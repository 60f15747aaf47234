import Mathlib.Tactic
import Tellus.Actor.Destructors
import Tellus.Persistence.Loop

/-!
The destructors of an event-sourced actor's values (`persistence/spawn.rs`), and what they may
cost its watchers.

* `recover`, `settle`: the functions of these names with every drop of an application's value.
* `spawnEventSourced`: the body of the loop with its drops; `erase_spawnEventSourced` leaves
  them out again.
* `watchers_signalled`: which destructors may panic without costing the watchers their signal.
-/

namespace Tellus.Dropping

open Concurrent

variable {I : Type}

section Body

variable (A : EventSourced I)

/-- The programs of an event-sourced actor's body with its drops. -/
abbrev Task (α : Type) := Drops A.Command (EventSourced.Op.Ans (A := A)) α

/-- Call the task's surroundings. -/
def call (op : Tellus.Op A) : Task A op.Ans := ask (.base (EventSourced.Op.task op))

/-- Whether a store's answer has to be waited for. -/
def pending : Task A Bool := ask (.base EventSourced.Op.pending)

/-! ### Recovery -/

/-- The snapshot to start from; the failure to decode it is dropped where it is logged. -/
def decodeSnapshot : Option StoredSnapshot → Task A (Option (A.Snapshot × SeqNo))
  | none => return none
  | some stored => do
      match ← catchAndLog (decodeVersioned A.snapshot stored.snapshot.manifest
          stored.snapshot.schemaVersion stored.snapshot.payload) with
      | some snapshot => return some (snapshot, stored.nextSeqNo)
      | none => return none

/-- The state and position to replay from. -/
def seedOf (id : I) (snapshot : Option StoredSnapshot) : Task A (Option (Recovered A)) := do
  match ← decodeSnapshot A snapshot with
  | some (snapshot, next) =>
      match ← catchAndLog (A.initFromSnapshot id snapshot) with
      | some state => return some ⟨id, state, next⟩
      | none => return none
  | none =>
      match ← catchAndLog (A.init id) with
      | some state => return some ⟨id, state, SeqNo.zero⟩
      | none => return none

/-- A page which has not been read: the state is dropped, and the store's failure after it. -/
def recoverPage (r : Recovered A) : Task A (Option (Recovered A × Bool)) := do
  match ← call A (.read r.id r.nextSeqNo replayPageLimit) with
  | .ok page =>
      match ← catchAndLog (replayPage A r.id r.state r.nextSeqNo page) with
      | some (state, next) => return some (⟨r.id, state, next⟩, page.length < replayPageLimit)
      | none => return none
  | .err _ => do
      dropContainingPanic .state
      dropBare .failure
      return none
  | .panic => do
      dropBare .payload
      dropContainingPanic .state
      return none

/-- One poll of the recovery, up to where it waits for a store. -/
def recover : EventSourced.Recovering A →
    Task A (Loop.Started (EventSourced.Phase A) (Recovered A))
  | .fresh => do
      match ← catchPanicAndLog (← call A .persistenceId) with
      | none => return .failed
      | some id => return .again (.poll (.loading id))
  | .loading id => do
      match ← pending A with
      | true => return .again (.select (.loading id))
      | false =>
          match ← catchAndLog (← call A (.load id)) with
          | some snapshot =>
              match ← seedOf A id snapshot with
              | some r => return .again (.poll (.reading r))
              | none => return .failed
          | none => return .failed
  | .reading r => do
      match ← pending A with
      | true => return .again (.select (.reading r))
      | false =>
          match ← recoverPage A r with
          | some (r, true) => return .again (.recovered r)
          | some (r, false) => return .again (.poll (.reading r))
          | none => return .failed

/-- One turn of the initialisation. -/
def start : EventSourced.Phase A →
    Loop.Task A.Command (Op.Ans (M := A.Command) (EventSourced.Op.Ans (A := A)))
      (Option (Loop.Started (EventSourced.Phase A) (Recovered A)))
  | .select f => do
      match ← Loop.ask .pollStopped with
      | true =>
          match ← Loop.emb (dropContainingPanic .recovery : Task A Unit).run with
          | none => return none
          | some () => return some .stopped
      | false => return some (.again (.poll f))
  | .poll f => Loop.emb (recover A f).run
  | .recovered r => Loop.emb (do
      match ← catchAndLog (← call A (.recovered r.state)) with
      | some state => return .up { r with state := state }
      | none => return .failed : Task A _).run

/-! ### Settlement -/

/-- Encode the events in order, up to the first failure, which is the one dropped. -/
def encodeEvents : List A.Event → Task A (Option (List EncodedEvent))
  | [] => return some []
  | event :: events => do
      match ← catchAndLog (← call A (.encodeEvent event)) with
      | some payload =>
          match ← encodeEvents events with
          | some encoded => return some (⟨A.event.manifest, A.event.version, payload⟩ :: encoded)
          | none => return none
      | none => return none

/-- Append the events of an effect and apply them once that has succeeded. -/
def persist (id : I) (state : A.State) (next : SeqNo) (events : List A.Event) :
    Task A (Option (A.State × SeqNo)) := do
  match ← encodeEvents A events with
  | none => do
      dropContainingPanic .values
      return none
  | some encoded =>
      match ← call A (.append id next encoded) with
      | .ok () =>
          match ← catchPanicAndLog (applyEvents A id state events) with
          | some state => return some (state, next.advancedBy events.length)
          | none => do
              dropContainingPanic .values
              return none
      | .err _ => do
          dropContainingPanic .values
          dropBare .failure
          return none
      | .panic => do
          dropBare .payload
          dropContainingPanic .values
          return none

/-- Run the continuations in order, up to the first panic; whether there was none. -/
def runThens (state : A.State) : List A.Then → Task A Bool
  | [] => return true
  | t :: thens => do
      match ← call A (.continuation t state) with
      | .ok () => runThens state thens
      | .err e => nomatch e
      | .panic => return false

/-- Build a snapshot and encode it. -/
def encodeSnapshot (state : A.State) :
    Task A (Outcome (SnapshotError A.Error) (Option EncodedSnapshot)) := do
  match ← call A (.snapshot state) with
  | .ok (some snapshot) =>
      match ← call A (.encodeSnapshot snapshot) with
      | .ok payload => return .ok (some ⟨A.snapshot.manifest, A.snapshot.version, payload⟩)
      | .err e => return .err (.encode e)
      | .panic => return .panic
  | .ok none => return .ok none
  | .err e => return .err (.actor e)
  | .panic => return .panic

/-- Save a snapshot if one is due; a failure is dropped where the warning is logged. -/
def saveSnapshot (id : I) (state : A.State) (next : SeqNo) : Task A Unit := do
  match ← catchAndLog (← encodeSnapshot A state) with
  | some (some snapshot) =>
      let _ ← catchAndLog (← call A (.save id next snapshot))
      return ()
  | _ => return ()

/-- Settle an effect: append and apply its events, run its continuations, offer a snapshot. -/
def settle (id : I) (state : A.State) (next : SeqNo) (effect : Effect A) :
    Task A (Option (Settled A)) := do
  let appended := !effect.events.isEmpty
  match ← (if appended then persist A id state next effect.events
      else return some (state, next)) with
  | none => return none
  | some (state, next) =>
      match ← runThens A state effect.thens with
      | false => do
          dropBare .payload
          dropContainingPanic .state
          return none
      | true =>
          if appended then
            saveSnapshot A id state next
          return some ⟨state, next, effect.stop⟩

/-- Handle an incoming and settle the effect. -/
def handle (incoming : Incoming A.Command) (r : Recovered A) :
    Task A (Loop.Handled (Recovered A)) := do
  match ← catchAndLog (← call A (.handle incoming r.state)) with
  | none => do
      dropContainingPanic .state
      return .failed
  | some effect =>
      match ← settle A r.id r.state r.nextSeqNo effect with
      | some settled =>
          if settled.stop then do
            dropContainingPanic .state
            return .stop
          else
            return .goOn ⟨r.id, settled.state, settled.nextSeqNo⟩
      | none => return .failed

/-- The body of the loop of `spawn_event_sourced` with its drops. -/
def spawnEventSourced :
    Loop.Body A.Command (Op.Ans (M := A.Command) (EventSourced.Op.Ans (A := A))) where
  Phase := EventSourced.Phase A
  Held := Recovered A
  first := .select .fresh
  start := start A
  handle := fun incoming r => (handle A incoming r).run
  release := fun _ => (dropContainingPanic .state).run

/-- What a task of an event-sourced actor drops last, having signalled its watchers: its stores
and its codec. -/
def dropPersistence : Task A Unit := do
  dropBare .stores
  dropBare .codec

end Body

/-! ### Without panicking destructors -/

section Erasing

variable {A : EventSourced I} {α β : Type}

/-- Leaving the drops out of `p` gives `q`. -/
def Erases (p : Task A α) (q : Prog (EventSourced.Op A) EventSourced.Op.Ans α) : Prop :=
  erase p.run = q.bind fun a => .ret (some a)

lemma erases_pure (a : α) : Erases (pure a : Task A α) (.ret a) := rfl

lemma Erases.erase_bind {p : Task A α} {q : Prog (EventSourced.Op A) EventSourced.Op.Ans α}
    (h : Erases p q) (f : α → Task A β) :
    erase (p >>= f).run = q.bind fun a => erase (f a).run := by
  rw [Dropping.erase_bind, h, Prog.bind_assoc]
  rfl

lemma Erases.bind {p : Task A α} {q : Prog (EventSourced.Op A) EventSourced.Op.Ans α}
    {f : α → Task A β} {g : α → Prog (EventSourced.Op A) EventSourced.Op.Ans β}
    (h : Erases p q) (hf : ∀ a, Erases (f a) (g a)) : Erases (p >>= f) (q.bind g) := by
  rw [Erases, h.erase_bind, Prog.bind_assoc]
  exact congrArg _ (funext hf)

lemma erases_call (op : Tellus.Op A) :
    Erases (call A op) (Prog.op (EventSourced.Op.task op)) := rfl

lemma erases_pending : Erases (pending A) (Prog.op EventSourced.Op.pending) := rfl

lemma erases_seedOf (id : I) (snapshot : Option StoredSnapshot) :
    Erases (seedOf A id snapshot) (.ret (Tellus.seedOf A id snapshot)) := by
  have hdecode : Erases (decodeSnapshot A snapshot) (.ret (Tellus.decodeSnapshot A snapshot)) := by
    cases snapshot with
    | none => exact erases_pure none
    | some stored =>
        simp only [decodeSnapshot, Tellus.decodeSnapshot, Option.bind_some]
        cases decodeVersioned A.snapshot stored.snapshot.manifest
          stored.snapshot.schemaVersion stored.snapshot.payload <;> rfl
  rw [Erases, seedOf, hdecode.erase_bind, Tellus.seedOf]
  match Tellus.decodeSnapshot A snapshot with
  | none =>
      simp only [Prog.ret_bind]
      cases A.init id <;> rfl
  | some (stored, next) =>
      simp only [Prog.ret_bind]
      cases A.initFromSnapshot id stored <;> rfl

lemma erases_recoverPage (r : Recovered A) :
    Erases (recoverPage A r) (EventSourced.emb A (Tellus.recoverPage A r)) := by
  refine Erases.bind (q := Prog.op (EventSourced.Op.task _)) (erases_call _) fun x => ?_
  cases x with
  | ok page =>
      simp only [Prog.ret_bind]
      cases replayPage A r.id r.state r.nextSeqNo page <;> rfl
  | err e => rfl
  | panic => rfl

lemma erases_encodeEvents (events : List A.Event) :
    Erases (encodeEvents A events) (EventSourced.emb A (Tellus.encodeEvents A events)) := by
  induction events with
  | nil => exact erases_pure _
  | cons event events ih =>
      refine Erases.bind (q := Prog.op (EventSourced.Op.task _)) (erases_call _) fun x => ?_
      cases x with
      | ok payload =>
          show Erases _ (EventSourced.emb A (Prog.bind (Tellus.encodeEvents A events) _))
          rw [EventSourced.emb_bind]
          refine ih.bind fun encoded => ?_
          cases encoded <;> rfl
      | err e => rfl
      | panic => rfl

lemma erases_persist (id : I) (state : A.State) (next : SeqNo) (events : List A.Event) :
    Erases (persist A id state next events)
      (EventSourced.emb A (Tellus.persist A id state next events)) := by
  show Erases _ (EventSourced.emb A (Prog.bind (Tellus.encodeEvents A events) _))
  rw [EventSourced.emb_bind]
  refine (erases_encodeEvents events).bind fun encoded => ?_
  cases encoded with
  | none => rfl
  | some encoded =>
      refine Erases.bind (q := Prog.op (EventSourced.Op.task _)) (erases_call _) fun x => ?_
      cases x with
      | ok u =>
          simp only [Prog.ret_bind]
          cases applyEvents A id state events <;> rfl
      | err e => rfl
      | panic => rfl

lemma erases_runThens (state : A.State) (thens : List A.Then) :
    Erases (runThens A state thens) (EventSourced.emb A (Tellus.runThens A state thens)) := by
  induction thens with
  | nil => exact erases_pure _
  | cons t thens ih =>
      refine Erases.bind (q := Prog.op (EventSourced.Op.task _)) (erases_call _) fun x => ?_
      cases x with
      | ok u => exact ih
      | err e => nomatch e
      | panic => rfl

lemma erases_saveSnapshot (id : I) (state : A.State) (next : SeqNo) :
    Erases (saveSnapshot A id state next)
      (EventSourced.emb A (Tellus.saveSnapshot A id state next)) := by
  have hencode : Erases (encodeSnapshot A state)
      (EventSourced.emb A (Tellus.encodeSnapshot A state)) := by
    refine Erases.bind (q := Prog.op (EventSourced.Op.task _)) (erases_call _) fun x => ?_
    match x with
    | .ok (some snapshot) =>
        refine Erases.bind (q := Prog.op (EventSourced.Op.task _)) (erases_call _) fun x => ?_
        cases x <;> rfl
    | .ok none => rfl
    | .err e => rfl
    | .panic => rfl
  show Erases _ (EventSourced.emb A (Prog.bind (Tellus.encodeSnapshot A state) _))
  rw [EventSourced.emb_bind]
  refine hencode.bind fun x => ?_
  match x with
  | .ok (some snapshot) =>
      refine Erases.bind (q := Prog.op (EventSourced.Op.task _)) (erases_call _) fun x => ?_
      cases x <;> rfl
  | .ok none => rfl
  | .err e => rfl
  | .panic => rfl

lemma erases_settle (id : I) (state : A.State) (next : SeqNo) (effect : Effect A) :
    Erases (settle A id state next effect)
      (EventSourced.emb A (Tellus.settle A id state next effect)) := by
  have hpersist : Erases (if !effect.events.isEmpty then persist A id state next effect.events
        else return some (state, next))
      (EventSourced.emb A (if !effect.events.isEmpty then
        Tellus.persist A id state next effect.events else return some (state, next))) := by
    split
    · exact erases_persist id state next effect.events
    · exact erases_pure _
  simp only [Tellus.settle, Prog.bind_eq, EventSourced.emb_bind]
  refine hpersist.bind fun persisted => ?_
  match persisted with
  | none => rfl
  | some (state, next) =>
      simp only [EventSourced.emb_bind]
      refine (erases_runThens state effect.thens).bind fun ran => ?_
      cases ran with
      | false => rfl
      | true =>
          dsimp only
          split
          · simp only [EventSourced.emb_bind]
            exact (erases_saveSnapshot id state next).bind fun _ => erases_pure _
          · exact erases_pure _

lemma erase_poll (f : EventSourced.Recovering A) :
    eraseLoop (start A (.poll f)) = EventSourced.start A (.poll f) := by
  refine (eraseLoop_emb _).trans ?_
  cases f with
  | fresh =>
      refine (congrArg Loop.emb ((erases_call _).erase_bind _)).trans ?_
      refine congrArg (Prog.call (Loop.Op.own (EventSourced.Op.task _))) (funext fun x => ?_)
      cases x <;> rfl
  | loading id =>
      refine (congrArg Loop.emb (erases_pending.erase_bind _)).trans ?_
      refine congrArg (Prog.call (Loop.Op.own EventSourced.Op.pending)) (funext fun x => ?_)
      cases x with
      | true => rfl
      | false =>
          refine (congrArg Loop.emb ((erases_call _).erase_bind _)).trans ?_
          refine congrArg (Prog.call (Loop.Op.own (EventSourced.Op.task _))) (funext fun x => ?_)
          cases x with
          | ok snapshot =>
              refine (congrArg Loop.emb ((erases_seedOf id snapshot).erase_bind _)).trans ?_
              simp only [Prog.ret_bind]
              cases Tellus.seedOf A id snapshot <;> rfl
          | err e => rfl
          | panic => rfl
  | reading r =>
      refine (congrArg Loop.emb (erases_pending.erase_bind _)).trans ?_
      refine congrArg (Prog.call (Loop.Op.own EventSourced.Op.pending)) (funext fun x => ?_)
      cases x with
      | true => rfl
      | false =>
          refine (congrArg Loop.emb ((erases_recoverPage r).erase_bind _)).trans ?_
          rw [Loop.emb_bind]
          refine congrArg _ (funext fun page => ?_)
          cases page with
          | none => rfl
          | some page =>
              obtain ⟨r, last⟩ := page
              cases last <;> rfl

lemma erase_handle (x : Incoming A.Command) (r : Recovered A) :
    erase (handle A x r).run = EventSourced.handle A x r := by
  refine ((erases_call _).erase_bind _).trans ?_
  refine congrArg (Prog.call (EventSourced.Op.task _)) (funext fun outcome => ?_)
  cases outcome with
  | err e => rfl
  | panic => rfl
  | ok effect =>
      refine ((erases_settle r.id r.state r.nextSeqNo effect).erase_bind _).trans ?_
      refine congrArg _ (funext fun settled => ?_)
      cases settled with
      | none => rfl
      | some settled =>
          dsimp only
          split <;> rfl

/-- Without panicking destructors this is the loop of `spawn_event_sourced`. -/
theorem erase_spawnEventSourced :
    (∀ phase, eraseLoop ((spawnEventSourced A).start phase) = A.spawnEventSourced.start phase) ∧
    (∀ x r, erase ((spawnEventSourced A).handle x r) = A.spawnEventSourced.handle x r) ∧
    ∀ r, erase ((spawnEventSourced A).release r) = A.spawnEventSourced.release r := by
  refine ⟨fun phase => ?_, erase_handle, fun r => rfl⟩
  cases phase with
  | select f =>
      refine congrArg (Prog.call Loop.Op.pollStopped) (funext fun x => ?_)
      cases x <;> rfl
  | poll f => exact erase_poll f
  | recovered r =>
      refine (eraseLoop_emb _).trans ((congrArg Loop.emb ((erases_call _).erase_bind _)).trans ?_)
      refine congrArg (Prog.call (Loop.Op.own (EventSourced.Op.task _))) (funext fun x => ?_)
      cases x <;> rfl

end Erasing

/-! ### Contained destructors -/

section Containing

variable {A : EventSourced I}

lemma tame_call (op : Tellus.Op A) : Tame (call A op) :=
  tame_ask (.base (EventSourced.Op.task op)) trivial

lemma tame_pending : Tame (pending A) := tame_ask (.base EventSourced.Op.pending) trivial

/-- After a failure: a contained drop, then one outside of every catch. -/
lemma tame_containedThenBare {α : Type} (value : Value) {value' : Value}
    (h : value'.uncaught = true) (a : α) :
    Tame (do dropContainingPanic value; dropBare value'; return a : Task A α) :=
  (tame_dropContainingPanic value).bind fun _ =>
    (tame_dropBare value' h).bind fun _ => Unwinding.contained_pure a

lemma tame_bareThenContained {α : Type} {value : Value} (h : value.uncaught = true)
    (value' : Value) (a : α) :
    Tame (do dropBare value; dropContainingPanic value'; return a : Task A α) :=
  (tame_dropBare value h).bind fun _ =>
    (tame_dropContainingPanic value').bind fun _ => Unwinding.contained_pure a

lemma tame_thenContained {α : Type} (value : Value) (a : α) :
    Tame (do dropContainingPanic value; return a : Task A α) :=
  (tame_dropContainingPanic value).bind fun _ => Unwinding.contained_pure a

lemma tame_seedOf (id : I) (snapshot : Option StoredSnapshot) : Tame (seedOf A id snapshot) := by
  have hdecode : Tame (decodeSnapshot A snapshot) := by
    cases snapshot with
    | none => exact Unwinding.contained_pure _
    | some stored =>
        refine (tame_catchAndLog _).bind fun snapshot => ?_
        cases snapshot <;> exact Unwinding.contained_pure _
  refine hdecode.bind fun decoded => ?_
  match decoded with
  | none =>
      refine (tame_catchAndLog _).bind fun state => ?_
      cases state <;> exact Unwinding.contained_pure _
  | some (snapshot, next) =>
      refine (tame_catchAndLog _).bind fun state => ?_
      cases state <;> exact Unwinding.contained_pure _

lemma tame_recoverPage (r : Recovered A) : Tame (recoverPage A r) := by
  refine (tame_call _).bind fun x => ?_
  cases x with
  | ok page =>
      refine (tame_catchAndLog _).bind fun replayed => ?_
      match replayed with
      | none => exact Unwinding.contained_pure _
      | some (state, next) => exact Unwinding.contained_pure _
  | err e => exact tame_containedThenBare .state rfl none
  | panic => exact tame_bareThenContained rfl .state none

lemma tame_recover (f : EventSourced.Recovering A) : Tame (recover A f) := by
  cases f with
  | fresh =>
      refine (tame_call _).bind fun id => (tame_catchPanicAndLog id).bind fun id => ?_
      cases id <;> exact Unwinding.contained_pure _
  | loading id =>
      refine tame_pending.bind fun x => ?_
      cases x with
      | true => exact Unwinding.contained_pure _
      | false =>
          refine (tame_call _).bind fun x => (tame_catchAndLog x).bind fun snapshot => ?_
          cases snapshot with
          | none => exact Unwinding.contained_pure _
          | some snapshot =>
              refine (tame_seedOf id snapshot).bind fun r => ?_
              cases r <;> exact Unwinding.contained_pure _
  | reading r =>
      refine tame_pending.bind fun x => ?_
      cases x with
      | true => exact Unwinding.contained_pure _
      | false =>
          refine (tame_recoverPage r).bind fun page => ?_
          match page with
          | some (r, true) => exact Unwinding.contained_pure _
          | some (r, false) => exact Unwinding.contained_pure _
          | none => exact Unwinding.contained_pure _

lemma tame_encodeEvents (events : List A.Event) : Tame (encodeEvents A events) := by
  induction events with
  | nil => exact Unwinding.contained_pure _
  | cons event events ih =>
      refine (tame_call _).bind fun x => (tame_catchAndLog x).bind fun payload => ?_
      cases payload with
      | none => exact Unwinding.contained_pure _
      | some payload =>
          refine ih.bind fun encoded => ?_
          cases encoded <;> exact Unwinding.contained_pure _

lemma tame_persist (id : I) (state : A.State) (next : SeqNo) (events : List A.Event) :
    Tame (persist A id state next events) := by
  refine (tame_encodeEvents events).bind fun encoded => ?_
  cases encoded with
  | none => exact tame_thenContained .values none
  | some encoded =>
      refine (tame_call _).bind fun x => ?_
      cases x with
      | ok u =>
          refine (tame_catchPanicAndLog _).bind fun applied => ?_
          cases applied with
          | none => exact tame_thenContained .values none
          | some state => exact Unwinding.contained_pure _
      | err e => exact tame_containedThenBare .values rfl none
      | panic => exact tame_bareThenContained rfl .values none

lemma tame_runThens (state : A.State) (thens : List A.Then) : Tame (runThens A state thens) := by
  induction thens with
  | nil => exact Unwinding.contained_pure _
  | cons t thens ih =>
      refine (tame_call _).bind fun x => ?_
      cases x with
      | ok u => exact ih
      | err e => nomatch e
      | panic => exact Unwinding.contained_pure _

lemma tame_saveSnapshot (id : I) (state : A.State) (next : SeqNo) :
    Tame (saveSnapshot A id state next) := by
  have hencode : Tame (encodeSnapshot A state) := by
    refine (tame_call _).bind fun x => ?_
    match x with
    | .ok (some snapshot) =>
        refine (tame_call _).bind fun x => ?_
        cases x <;> exact Unwinding.contained_pure _
    | .ok none => exact Unwinding.contained_pure _
    | .err e => exact Unwinding.contained_pure _
    | .panic => exact Unwinding.contained_pure _
  refine hencode.bind fun x => (tame_catchAndLog x).bind fun snapshot => ?_
  match snapshot with
  | some (some snapshot) =>
      refine (tame_call _).bind fun x => (tame_catchAndLog x).bind fun _ => ?_
      exact Unwinding.contained_pure _
  | some none => exact Unwinding.contained_pure _
  | none => exact Unwinding.contained_pure _

lemma tame_settle (id : I) (state : A.State) (next : SeqNo) (effect : Effect A) :
    Tame (settle A id state next effect) := by
  have hpersist : Tame (if !effect.events.isEmpty then persist A id state next effect.events
      else return some (state, next)) := by
    split
    · exact tame_persist id state next effect.events
    · exact Unwinding.contained_pure _
  refine hpersist.bind fun persisted => ?_
  match persisted with
  | none => exact Unwinding.contained_pure _
  | some (state, next) =>
      refine (tame_runThens state effect.thens).bind fun ran => ?_
      cases ran with
      | false => exact tame_bareThenContained rfl .state none
      | true =>
          dsimp only
          split
          · exact (tame_saveSnapshot id state next).bind fun _ => Unwinding.contained_pure _
          · exact Unwinding.contained_pure _

lemma tame_handle (x : Incoming A.Command) (r : Recovered A) : Tame (handle A x r) := by
  refine (tame_call _).bind fun outcome => (tame_catchAndLog outcome).bind fun effect => ?_
  cases effect with
  | none => exact tame_thenContained .state _
  | some effect =>
      refine (tame_settle r.id r.state r.nextSeqNo effect).bind fun settled => ?_
      cases settled with
      | none => exact Unwinding.contained_pure _
      | some settled =>
          dsimp only
          split
          · exact tame_thenContained .state _
          · exact Unwinding.contained_pure _

/-- The loop of `spawn_event_sourced` contains every destructor but those run outside of every
catch. -/
lemma contains_spawnEventSourced : Contains (spawnEventSourced A) (dropPersistence A) where
  start := by
    intro phase
    match phase with
    | .select f =>
        refine And.intro trivial fun x _ => ?_
        cases x with
        | true =>
            refine (endsIn_emb (tame_dropContainingPanic .recovery)).bind fun r hr => ?_
            match r with
            | none => cases hr
            | some () => rfl
        | false => rfl
    | .poll f => exact endsIn_emb (tame_recover f)
    | .recovered r =>
        refine endsIn_emb ((tame_call _).bind fun x => (tame_catchAndLog x).bind fun state => ?_)
        cases state <;> exact Unwinding.contained_pure _
  handle := tame_handle
  release := fun _ => tame_dropContainingPanic .state
  leave := (tame_dropBare .stores rfl).bind fun _ => tame_dropBare .codec rfl

end Containing

/-! ### The result -/

/-- A run in which the destructors of one kind of value dropped outside of every catch panic, and
no others, and which costs the task its place. -/
lemma uncaught_unwinds {value : Value} (huncaught : value.uncaught = true) :
    (∃ st, ReachableWhere (spawn Actor.summer) (pure ()) .stop (· = value) st ∧
      ¬WatchersSignalled st) ∨
    ∃ st, ReachableWhere (spawnEventSourced counter) (dropPersistence counter) .stop (· = value)
      st ∧ ¬WatchersSignalled st := by
  have hplain : ReachableWhere (spawn Actor.summer) (pure ()) .stop (· = value)
      (.solo .new (.ret (.loop (Loop.entry _)))) := .refl
  have hsourced : ReachableWhere (spawnEventSourced counter) (dropPersistence counter) .stop
      (· = value) (.solo .new (.ret (.loop (Loop.entry _)))) := .refl
  -- stopped by its parent while it recovers, the actor drops its stores and its codec last
  have h := Tasks.solo_answer (Tasks.solo_jump hsourced) ⟨.pollStopped true, panicsOnly_none rfl⟩
  have h := Tasks.solo_answer h ⟨.contained .recovery false, panicsOnly_none rfl⟩
  have h := Tasks.solo_answer (Tasks.solo_jump h) ⟨.drain, panicsOnly_none rfl⟩
  have h := Tasks.solo_answer h ⟨.dropReceiver false, panicsOnly_none rfl⟩
  have h := Tasks.solo_answer h ⟨.unwatchAll false, panicsOnly_none rfl⟩
  have h := Tasks.solo_answer h ⟨.stopChildren, panicsOnly_none rfl⟩
  have h := Tasks.solo_answer h ⟨.dropContext Nat.one_pos, panicsOnly_none rfl⟩
  have h := Tasks.solo_answer h ⟨.contained .actor false, panicsOnly_none rfl⟩
  have hleave := Tasks.solo_answer h ⟨.takeWatchers, panicsOnly_none rfl⟩
  cases value with
  | failure =>
      have h := Tasks.solo_answer (Tasks.solo_jump hplain)
        ⟨.base (Actor.Op.init (A := Actor.summer)) (Outcome.err ()), panicsOnly_none rfl⟩
      have h := Tasks.solo_answer h ⟨.bare .failure true, panicsOnly_some rfl rfl⟩
      exact .inl ⟨_, h, fun hw => hw.1 rfl⟩
  | payload =>
      have h := Tasks.solo_answer (Tasks.solo_jump hplain)
        ⟨.base (Actor.Op.init (A := Actor.summer)) Outcome.panic, panicsOnly_none rfl⟩
      have h := Tasks.solo_answer h ⟨.bare .payload true, panicsOnly_some rfl rfl⟩
      exact .inl ⟨_, h, fun hw => hw.1 rfl⟩
  | leftBehind =>
      have h := Tasks.solo_answer (Tasks.solo_jump hplain)
        ⟨.base (Actor.Op.init (A := Actor.summer)) (Outcome.ok (0 : ℕ)), panicsOnly_none rfl⟩
      have h := Tasks.solo_answer (Tasks.solo_jump h) ⟨.pollStopped true, panicsOnly_none rfl⟩
      have h := Tasks.solo_answer h ⟨.contained .state false, panicsOnly_none rfl⟩
      have h := Tasks.solo_answer (Tasks.solo_jump h) ⟨.drain, panicsOnly_none rfl⟩
      have h := Tasks.solo_answer h ⟨.dropReceiver false, panicsOnly_none rfl⟩
      have h := Tasks.solo_answer h ⟨.unwatchAll true, panicsOnly_some rfl rfl⟩
      exact .inl ⟨_, h, fun hw => hw.1 rfl⟩
  | stores =>
      have h := Tasks.solo_answer hleave ⟨.bare .stores true, panicsOnly_some rfl rfl⟩
      exact .inr ⟨_, h, fun hw => hw.1 rfl⟩
  | codec =>
      have h := Tasks.solo_answer hleave ⟨.bare .stores false, panicsOnly_none rfl⟩
      have h := Tasks.solo_answer h ⟨.bare .codec true, panicsOnly_some rfl rfl⟩
      exact .inr ⟨_, h, fun hw => hw.1 rfl⟩
  | _ => cases huncaught

/-- **Which panicking destructors cost the watchers their signal.**  Let the destructors of the
kinds of values which `may` panic do so, wherever they are run.  In every run of either loop,
whatever the others do and however callbacks and stores end, the task does not unwind, `terminate`
runs to its end, and every watcher it takes is sent its signal, exactly if none of these kinds is
one of those dropped outside of every catch: failures, payloads of caught panics, messages left
behind in a channel whose last sender the task drops, stores and codecs. -/
theorem watchers_signalled (may : Value → Prop) :
    ((∀ (A : Actor) strategy st, ReachableWhere (spawn A) (pure ()) strategy may st →
        WatchersSignalled st) ∧
      (∀ (I : Type) (B : EventSourced I) strategy st,
        ReachableWhere (spawnEventSourced B) (dropPersistence B) strategy may st →
        WatchersSignalled st) ∧
      ∀ (M Base : Type) (BaseAns : Base → Type) tr r,
        (terminate : Loop.Task M (Op.Ans (M := M) BaseAns) _).Yields tr r →
        (∀ c ∈ tr, PanicsOnly may c.1 c.2) → r = some ()) ↔
      ∀ value, may value → value.uncaught = false := by
  constructor
  · rintro ⟨hplain, hsourced, -⟩ value hmay
    by_contra huncaught
    have honly : ∀ v, v = value → may v := fun v hv => hv ▸ hmay
    rcases uncaught_unwinds (Bool.not_eq_false _ ▸ huncaught) with ⟨st, h, hlost⟩ | ⟨st, h, hlost⟩
    · exact hlost (hplain _ _ st (h.mono honly))
    · exact hlost (hsourced _ _ _ st (h.mono honly))
  · intro hmay
    refine ⟨fun A strategy st h => contains_spawn.signalled (h.mono hmay),
      fun I B strategy st h => contains_spawnEventSourced.signalled (h.mono hmay),
      fun M Base BaseAns tr r h htr => ?_⟩
    exact terminate_yields h fun c hc value hv => hmay value (htr c hc value hv)

/-- The watcher of the actors below. -/
def watcher : ActorId := ⟨7⟩

/-- An actor which stops at its first message although the destructors of its value and of a
drained message panic: its watcher is signalled all the same. -/
theorem watchers_signalled_summer : ∃ st,
    ReachableWhere (spawn Actor.summer) (pure ()) .stop (fun value => value.uncaught = false) st ∧
    st.task () = .ret .terminated ∧ st.shared.taken = [watcher] ∧
    st.shared.sent = st.shared.taken := by
  have h : ReachableWhere (spawn Actor.summer) (pure ()) .stop
      (fun value => value.uncaught = false) (.solo .new (.ret (.loop (Loop.entry _)))) := .refl
  have h := Tasks.solo_env h (.watch _ watcher rfl)
  have h := Tasks.solo_env h (.send _ (.message (1 : ℕ)) rfl (.inl rfl))
  have h := Tasks.solo_env h (.send _ (.message (2 : ℕ)) rfl (.inl rfl))
  have h := Tasks.solo_answer (Tasks.solo_jump h)
    ⟨.base (Actor.Op.init (A := Actor.summer)) (Outcome.ok (0 : ℕ)), panicsOnly_none rfl⟩
  have h := Tasks.solo_answer (Tasks.solo_jump h) ⟨.pollStopped false, panicsOnly_none rfl⟩
  have h := Tasks.solo_answer h ⟨.recv rfl, panicsOnly_none rfl⟩
  have h := Tasks.solo_answer h
    ⟨.base (Actor.Op.receive (A := Actor.summer) (.message (1 : ℕ)) (0 : ℕ))
      (Outcome.ok Control.stop), panicsOnly_none rfl⟩
  have h := Tasks.solo_answer (Tasks.solo_jump h) ⟨.drain, panicsOnly_none rfl⟩
  have h := Tasks.solo_answer h ⟨.dropReceiver false, panicsOnly_none rfl⟩
  have h := Tasks.solo_answer h ⟨.contained .queued true, panicsOnly_some rfl rfl⟩
  have h := Tasks.solo_answer h ⟨.bare .payload false, panicsOnly_none rfl⟩
  have h := Tasks.solo_answer h ⟨.unwatchAll false, panicsOnly_none rfl⟩
  have h := Tasks.solo_answer h ⟨.stopChildren, panicsOnly_none rfl⟩
  have h := Tasks.solo_answer h ⟨.dropContext Nat.one_pos, panicsOnly_none rfl⟩
  have h := Tasks.solo_answer h ⟨.contained .actor true, panicsOnly_some rfl rfl⟩
  have h := Tasks.solo_answer h ⟨.bare .payload false, panicsOnly_none rfl⟩
  have h := Tasks.solo_answer h ⟨.takeWatchers, panicsOnly_none rfl⟩
  have h := Tasks.solo_answer h ⟨.sendTerminated watcher true, panicsOnly_none rfl⟩
  have h := Tasks.solo_answer h ⟨.dropSink watcher false, panicsOnly_none rfl⟩
  have hsignalled := ((watchers_signalled _).mpr fun _ hv => hv).1 Actor.summer .stop _ h
  exact ⟨_, h, rfl, rfl, hsignalled.2 rfl⟩

/-- The failure with which `init` returns has a destructor which panics: the task unwinds and
its watcher is never signalled.  And a message which slips in behind the drain, the last other
reference being dropped meanwhile, is dropped with the context and unwinds the task likewise. -/
theorem destructors_unwind :
    (∃ st, Reachable (spawn Actor.summer) (pure ()) .stop st ∧ ¬WatchersSignalled st ∧
      st.shared.receiver = true ∧ st.shared.registry = some [watcher] ∧ st.shared.sent = []) ∧
    ∃ st, Reachable (spawn Actor.summer) (pure ()) .stop st ∧ ¬WatchersSignalled st ∧
      st.shared.context = false ∧ st.shared.registry = some [watcher] ∧ st.shared.sent = [] := by
  have h : Reachable (spawn Actor.summer) (pure ()) .stop
      (.solo .new (.ret (.loop (Loop.entry _)))) := .refl
  have h := Tasks.solo_env h (.watch _ watcher rfl)
  constructor
  · have h := Tasks.solo_answer (Tasks.solo_jump h)
      (.base (Actor.Op.init (A := Actor.summer)) (Outcome.err ()))
    have h := Tasks.solo_answer h (.bare .failure true)
    exact ⟨_, h, fun hw => hw.1 rfl, rfl, rfl, rfl⟩
  · have h := Tasks.solo_answer (Tasks.solo_jump h)
      (.base (Actor.Op.init (A := Actor.summer)) (Outcome.ok (0 : ℕ)))
    have h := Tasks.solo_answer (Tasks.solo_jump h) (.pollStopped true)
    have h := Tasks.solo_answer h (.contained .state false)
    have h := Tasks.solo_answer (Tasks.solo_jump h) .drain
    have h := Tasks.solo_env h (.send _ (.message (1 : ℕ)) rfl (.inl rfl))
    have h := Tasks.solo_answer h (.dropReceiver false)
    have h := Tasks.solo_answer h (.unwatchAll false)
    have h := Tasks.solo_env h (.drop _ rfl (.inl rfl))
    have h := Tasks.solo_answer h .stopChildren
    have h := Tasks.solo_answer (x := true) h (.dropLast rfl fun _ => List.cons_ne_nil _ _)
    exact ⟨_, h, fun hw => hw.1 rfl, rfl, rfl, rfl⟩

end Tellus.Dropping
