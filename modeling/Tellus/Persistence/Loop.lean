import Mathlib.Tactic
import Tellus.Actor.Stopping
import Tellus.Persistence.Spawn

/-!
The loop of `spawn_event_sourced`, poll by poll, and a parent's stop in it.

Recovery is a future polled next to the parent's stop, the stop first.  Whenever the store has
an answer ready it goes on without the stop being polled again, so that one poll may cover any
number of pages; only where it has to wait does the loop come back to its `select!`.

* `spawnEventSourced`: the body of the loop.  Settlement is part of handling an incoming and is
  not polled next to anything.
* `stop_wins`: a parent's stop wins every race, in the loop of `spawn` as in this one.
-/

namespace Tellus

open Concurrent

variable {I : Type}

/-! ### The body -/

namespace EventSourced

/-- The calls of an event-sourced actor's task, and whether a store's answer has to be waited
for. -/
inductive Op (A : EventSourced I) : Type where
  | task (op : Tellus.Op A)
  | pending

/-- How a call is answered. -/
abbrev Op.Ans {A : EventSourced I} : Op A → Type
  | .task op => op.Ans
  | .pending => Bool

/-- Where the future of `recover` stands. -/
inductive Recovering (A : EventSourced I) where
  | fresh
  | loading (id : I)
  | reading (r : Recovered A)

/-- The places of the initialisation: the head of the `select!`, within a poll of the recovery,
and with the recovery done. -/
inductive Phase (A : EventSourced I) where
  | select (f : Recovering A)
  | poll (f : Recovering A)
  | recovered (r : Recovered A)

/-- A program of the task as one of the body. -/
def emb (A : EventSourced I) {α : Type} : Task A α → Prog (Op A) Op.Ans α
  | .ret a => .ret a
  | .call op k => .call (.task op) fun x => emb A (k x)

lemma emb_bind {A : EventSourced I} {α β : Type} (p : Task A α) (f : α → Task A β) :
    emb A (p.bind f) = (emb A p).bind fun a => emb A (f a) := by
  induction p with
  | ret a => rfl
  | call op k ih => exact congrArg (Prog.call (Op.task op)) (funext ih)

/-- Call out and wait for the answer. -/
def ask (A : EventSourced I) (op : Op A) : Loop.Task A.Command (Op.Ans (A := A)) op.Ans :=
  Loop.ask (.own op)

/-- One turn of the initialisation. -/
def start (A : EventSourced I) :
    Phase A → Loop.Task A.Command (Op.Ans (A := A)) (Option (Loop.Started (Phase A) (Recovered A)))
  | .select f => do
      match ← Loop.ask .pollStopped with
      | true => return some .stopped
      | false => return some (.again (.poll f))
  | .poll .fresh => do
      match ← ask A (.task .persistenceId) with
      | none => return some .failed
      | some id => return some (.again (.poll (.loading id)))
  | .poll (.loading id) => do
      match ← ask A .pending with
      | true => return some (.again (.select (.loading id)))
      | false =>
          match ← ask A (.task (.load id)) with
          | .ok snapshot =>
              match seedOf A id snapshot with
              | some r => return some (.again (.poll (.reading r)))
              | none => return some .failed
          | .err _ => return some .failed
          | .panic => return some .failed
  | .poll (.reading r) => do
      match ← ask A .pending with
      | true => return some (.again (.select (.reading r)))
      | false =>
          match ← Loop.emb (emb A (recoverPage A r)) with
          | some (r, true) => return some (.again (.recovered r))
          | some (r, false) => return some (.again (.poll (.reading r)))
          | none => return some .failed
  | .recovered r => do
      match catchAndLog (← ask A (.task (.recovered r.state))) with
      | some state => return some (.up { r with state := state })
      | none => return some .failed

/-- Handle an incoming and settle the effect. -/
def handle (A : EventSourced I) (incoming : Incoming A.Command) (r : Recovered A) :
    Prog (Op A) Op.Ans (Option (Loop.Handled (Recovered A))) := do
  match catchAndLog (← Prog.op (Op.task (.handle incoming r.state))) with
  | none => return some .failed
  | some effect =>
      match ← emb A (settle A r.id r.state r.nextSeqNo effect) with
      | some settled =>
          if settled.stop then
            return some .stop
          else
            return some (.goOn ⟨r.id, settled.state, settled.nextSeqNo⟩)
      | none => return some .failed

/-- The body of the loop of `spawn_event_sourced`. -/
def spawnEventSourced (A : EventSourced I) : Loop.Body A.Command (Op.Ans (A := A)) where
  Phase := Phase A
  Held := Recovered A
  first := .select .fresh
  start := start A
  handle := handle A
  release := fun _ => return some ()

/-! ### A parent's stop -/

/-- The call which begins a recovery. -/
def begins {A : EventSourced I} : Op A → Bool
  | .task .persistenceId => true
  | _ => false

/-- A recovery is begun by its first poll. -/
def due {A : EventSourced I} : Phase A → ℕ
  | .poll .fresh => 1
  | _ => 0

variable {A : EventSourced I}

/-- A program of the task which does not begin a recovery. -/
abbrev Later {α : Type} (p : Task A α) : Prop :=
  p.Ends (fun op => begins (.task op) = false) (fun _ _ => True) fun _ => True

lemma Later.emb {α : Type} {p : Task A α} (h : Later p) :
    (emb A p).Ends (fun op => begins op = false) (fun _ _ => True) fun _ => True := by
  induction p with
  | ret a => trivial
  | call op k ih => exact ⟨h.1, fun x hx => ih x (h.2 x hx)⟩

lemma later_encodeEvents (events : List A.Event) :
    Later (encodeEvents A events) := by
  induction events with
  | nil => trivial
  | cons event events ih =>
      refine ⟨rfl, fun x _ => ?_⟩
      cases x with
      | ok payload => exact ih.bind fun encoded _ => by cases encoded <;> trivial
      | err e => trivial
      | panic => trivial

lemma later_persist (id : I) (state : A.State) (next : SeqNo) (events : List A.Event) :
    Later (persist A id state next events) := by
  refine (later_encodeEvents events).bind fun encoded _ => ?_
  cases encoded with
  | none => trivial
  | some encoded => exact ⟨rfl, fun x _ => by cases x <;> trivial⟩

lemma later_runThens (state : A.State) (thens : List A.Then) :
    Later (runThens A state thens) := by
  induction thens with
  | nil => trivial
  | cons t thens ih =>
      refine ⟨rfl, fun x _ => ?_⟩
      cases x with
      | ok u => exact ih
      | err e => nomatch e
      | panic => trivial

lemma later_saveSnapshot (id : I) (state : A.State) (next : SeqNo) :
    Later (saveSnapshot A id state next) := by
  refine ⟨rfl, fun x _ => ?_⟩
  match x with
  | .ok (some snapshot) =>
      refine ⟨rfl, fun x _ => ?_⟩
      cases x with
      | ok payload => exact ⟨rfl, fun _ _ => trivial⟩
      | err e => trivial
      | panic => trivial
  | .ok none => trivial
  | .err e => trivial
  | .panic => trivial

lemma later_settle (id : I) (state : A.State) (next : SeqNo) (effect : Effect A) :
    Later (settle A id state next effect) := by
  have hpersist : Later (if !effect.events.isEmpty then persist A id state next effect.events
      else return some (state, next) : Task A _) := by
    split
    · exact later_persist id state next effect.events
    · trivial
  refine hpersist.bind fun persisted _ => ?_
  match persisted with
  | none => trivial
  | some (state, next) =>
      refine (later_runThens state effect.thens).bind fun ran _ => ?_
      cases ran with
      | false => trivial
      | true =>
          dsimp only
          split
          · exact (later_saveSnapshot id state next).bind fun _ _ => trivial
          · trivial

lemma later_handle (x : Incoming A.Command) (r : Recovered A) :
    (handle A x r).Ends (fun op => begins op = false) (fun _ _ => True) fun r => r.isSome := by
  refine ⟨rfl, fun outcome _ => ?_⟩
  cases outcome with
  | err e => exact rfl
  | panic => exact rfl
  | ok effect =>
      refine (later_settle r.id r.state r.nextSeqNo effect).emb.bind fun settled _ => ?_
      cases settled with
      | none => exact rfl
      | some settled =>
          dsimp only
          split <;> exact rfl

section Starting

variable {w : Loop.Calls A.Command Op.Ans}

/-- A turn of the initialisation ends, a recovery having been begun before. -/
lemma safe_started {r : Option (Loop.Started (Phase A) (Recovered A))}
    (h : Loop.At begins 0 2 (· = none) w)
    (hr : ∀ u, Loop.At begins 0 2 (· = none) u →
      Loop.StartedAt begins A.spawnEventSourced due u r) :
    Safe (Loop.contract begins A.spawnEventSourced) ()
      (Loop.StartedAt begins A.spawnEventSourced due) (.ret r) w :=
  Loop.safe_ret (by omega) (by omega) h hr

/-- A poll of the recovery begins one at most, and only if it is the first. -/
lemma safe_poll (f : Recovering A) (h : Loop.At begins (due (.poll f)) 2 (· = none) w) :
    Safe (Loop.contract begins A.spawnEventSourced) ()
      (Loop.StartedAt begins A.spawnEventSourced due) (start A (.poll f)) w := by
  cases f with
  | fresh =>
      refine Loop.safe_call le_rfl (by omega) h (by simp [Loop.ofLoop]) fun t x ht _ => ?_
      have ht : Loop.At begins 0 2 (· = none) (t.add (.own (.task .persistenceId)) x) := by
        refine ht.add rfl (by simp [Loop.takes, Loop.begun, begins]) (by simp [Loop.ofLoop]) ?_
        rintro _ rfl
        rfl
      cases x with
      | none => exact safe_started ht fun _ h => h
      | some id => exact safe_started ht fun _ h => h
  | loading id =>
      have h : Loop.At begins 0 2 (· = none) w := h
      refine Loop.safe_own rfl (by omega) (by omega) h fun x t ht => ?_
      cases x with
      | true => exact safe_started ht fun _ h => h
      | false =>
          refine Loop.safe_own rfl (by omega) (by omega) ht fun x t ht => ?_
          cases x with
          | err e => exact safe_started ht fun _ h => h
          | panic => exact safe_started ht fun _ h => h
          | ok snapshot =>
              rw [Prog.ret_bind]
              dsimp only
              split
              · exact safe_started ht fun _ h => h
              · exact safe_started ht fun _ h => h
  | reading r =>
      have h : Loop.At begins 0 2 (· = none) w := h
      refine Loop.safe_own rfl (by omega) (by omega) h fun x t ht => ?_
      cases x with
      | true => exact safe_started ht fun _ h => h
      | false =>
          refine Loop.safe_own rfl (by omega) (by omega) ht fun x t ht => ?_
          cases x with
          | err e => exact safe_started ht fun _ h => h
          | panic => exact safe_started ht fun _ h => h
          | ok page =>
              simp only [Prog.ret_bind, Prog.pure_eq, emb, Loop.emb]
              split
              · exact safe_started ht fun _ h => h
              · exact safe_started ht fun _ h => h
              · exact safe_started ht fun _ h => h

end Starting

/-- The loop of `spawn_event_sourced` is prompt. -/
lemma prompt (A : EventSourced I) : Loop.Prompt begins A.spawnEventSourced due where
  due_le := by
    intro phase
    cases phase with
    | select f => exact Nat.zero_le 1
    | poll f => cases f <;> simp [due]
    | recovered r => exact Nat.zero_le 1
  calls := by
    intro phase r h
    cases phase with
    | select f => cases h
    | poll f => cases f <;> cases h
    | recovered r => cases h
  release := fun _ => rfl
  handle := later_handle
  start := by
    intro phase w h
    cases phase with
    | select f =>
        refine Loop.safe_pollStopped (n := 1) (by simp [due]) (by omega) h
          (fun h hh => hh ▸ Loop.completed_none) ?_ ?_
        · exact fun t ht => Loop.safe_over ht fun _ h => h
        · intro t ht
          refine Loop.safe_ret le_rfl le_rfl ht fun u hu => ?_
          refine hu.mono ?_ (by omega) fun _ => id
          cases f <;> simp [due]
    | poll f => exact safe_poll f h
    | recovered r =>
        have h : Loop.At begins 0 2 (· = none) w := h
        refine Loop.safe_own rfl (by omega) (by omega) h fun x t ht => ?_
        cases x with
        | ok state => exact safe_started ht fun _ h => h.mono le_rfl (by omega) fun _ => id
        | err e => exact safe_started ht fun _ h => h
        | panic => exact safe_started ht fun _ h => h

end EventSourced

/-! ### The result -/

/-- **A parent's stop wins every race**, in both loops and whenever it comes: after it at most
one more incoming is taken or one more initialisation or recovery is begun, a handling with its
settlement is carried out to its end, the future which has resolved is not polled again, and
the loop goes nowhere but into `terminate`. -/
theorem stop_wins :
    (∀ (A : Actor) (strategy : SupervisionStrategy) st, Loop.Reachable A.spawn strategy st →
      Loop.StopWins Actor.begins A.spawn strategy st) ∧
    ∀ (I : Type) (A : EventSourced I) (strategy : SupervisionStrategy) st,
      Loop.Reachable A.spawnEventSourced strategy st →
      Loop.StopWins EventSourced.begins A.spawnEventSourced strategy st :=
  ⟨fun A _ _ h => A.prompt.stops h, fun _ A _ _ h => A.prompt.stops h⟩

lemma EventSourced.answers (A : EventSourced I) (w : Loop.Calls A.Command EventSourced.Op.Ans)
    (op : EventSourced.Op A) (x : op.Ans) : Loop.Exec w (.own op) x (w.add (.own op) x) :=
  Loop.answers w (.own op) x trivial

/-- The parent stops the counter right after its stop has been polled: a command is taken and
settled all the same, and the next poll ends the loop. -/
theorem stop_wins_counter : ∃ st, Loop.Reachable counter.spawnEventSourced .stop st ∧
    st.shared.stoppedAt = some 8 ∧ st.task () = .ret .terminate ∧
    (st.shared.made.drop 8).countP (fun c => Loop.takes c || Loop.begun EventSourced.begins c.1) ≤
      1 := by
  have h : Loop.Reachable counter.spawnEventSourced .stop
      (.solo .none (.ret (Loop.entry _))) := .refl
  have h := Tasks.solo_answer (Tasks.solo_jump h) (Loop.answers _ .pollStopped false rfl)
  have h := Tasks.solo_answer (Tasks.solo_jump h)
    (counter.answers _ (.task .persistenceId) (some ()))
  have h := Tasks.solo_answer (Tasks.solo_jump h) (counter.answers _ .pending false)
  have h := Tasks.solo_answer h (counter.answers _ (.task (.load ())) (.ok none))
  have h := Tasks.solo_answer (Tasks.solo_jump h) (counter.answers _ .pending false)
  have h := Tasks.solo_answer h
    (counter.answers _ (.task (.read () SeqNo.zero replayPageLimit)) (.ok []))
  have h := Tasks.solo_answer (Tasks.solo_jump h)
    (counter.answers _ (.task (.recovered (0 : ℕ))) (.ok (0 : ℕ)))
  have h := Tasks.solo_answer (Tasks.solo_jump h) (Loop.answers _ .pollStopped false rfl)
  have h := Tasks.solo_env h (.stop _)
  have h := Tasks.solo_answer h (Loop.answers _ .recv (some (.message ())) trivial)
  have h := Tasks.solo_answer h
    (counter.answers _ (.task (.handle (.message ()) (0 : ℕ))) (.ok count))
  have h := Tasks.solo_answer h (counter.answers _ (.task (.encodeEvent ())) (.ok []))
  have h := Tasks.solo_answer h
    (counter.answers _ (.task (.append () SeqNo.zero [counted])) (.ok ()))
  have h := Tasks.solo_answer h
    (counter.answers _ (.task (.snapshot (1 : ℕ))) (.ok none))
  have h := Tasks.solo_answer (Tasks.solo_jump h) (Loop.answers _ .pollStopped true rfl)
  exact ⟨_, h, rfl, rfl, ((stop_wins.2 _ _ _ _ h).few 8 rfl).1⟩

end Tellus
