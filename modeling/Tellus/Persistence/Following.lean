import Mathlib.Tactic
import Tellus.Actor.Following
import Tellus.Persistence.Destructors

/-!
The loop of `spawn_event_sourced` follows the phases (`persistence/spawn.rs`).

Recovery and settlement do without the context, so that each of them stays in the phase it is
begun in: there is nothing user code could do in between but send.  Only `recovered` and `handle`
are given the context.

* `EventSourcedCode`: the callbacks, stores and destructors of an event-sourced actor.
* `Script.spawnEventSourced`: its script.
* `Script.spawnEventSourcedKeeps`: the loop with its drops follows the phases.
-/

namespace Tellus

open Concurrent

variable {I : Type} {A : EventSourced I} {rootId : ActorId} {k : Kind} {q : Phase A.Command}

/-! ### Scripts -/

/-- Only `recovered` and `handle` are given the context. -/
def EventSourced.context : EventSourced.Op A → Bool
  | .task (.recovered _) => true
  | .task (.handle _ _) => true
  | _ => false

/-- What the stores and the callbacks of an event-sourced actor do.  The task's stores and codec
are handles to the application's, and dropping one does nothing. -/
structure EventSourcedCode (A : EventSourced I) extends
    UserCode A.Command (EventSourced.Op.Ans (A := A)) where
  context_eq : context = EventSourced.context
  stores : ∃ panicked, drop .stores = .ret panicked
  codec : ∃ panicked, drop .codec = .ret panicked

/-- The script of `spawn_event_sourced`. -/
def Script.spawnEventSourced (code : EventSourcedCode A) (strategy : SupervisionStrategy) :
    Script A.Command where
  Base := EventSourced.Op A
  BaseAns := EventSourced.Op.Ans
  body := Dropping.spawnEventSourced A
  leave := Dropping.dropPersistence A
  strategy
  user := code.toUserCode

/-! ### Recovery -/

namespace EventSourcedCode

variable (u : EventSourcedCode A) (k : Kind) (rootId : ActorId)

/-- A call without the context. -/
lemma stays_base (op : EventSourced.Op A) (hop : EventSourced.context op = false)
    (hq : q.active = true) : Stays k rootId u.toUserCode q (Dropping.ask (.base op)) :=
  .ask (follows_bare (u.bare_call op (by rw [u.context_eq, hop])) hq)

lemma stays_seedOf (id : I) (snapshot : Option StoredSnapshot) (hq : q.active = true) :
    Stays k rootId u.toUserCode q (Dropping.seedOf A id snapshot) := by
  have hdecode : Stays k rootId u.toUserCode q (Dropping.decodeSnapshot A snapshot) := by
    cases snapshot with
    | none => exact stays_pure _
    | some stored =>
        refine (stays_catchAndLog k rootId _ _ hq).andThen fun snapshot => ?_
        cases snapshot <;> exact stays_pure _
  refine hdecode.andThen fun decoded => ?_
  match decoded with
  | none =>
      refine (stays_catchAndLog k rootId _ _ hq).andThen fun state => ?_
      cases state <;> exact stays_pure _
  | some (snapshot, next) =>
      refine (stays_catchAndLog k rootId _ _ hq).andThen fun state => ?_
      cases state <;> exact stays_pure _

lemma stays_recoverPage (r : Recovered A) (hq : q.active = true) :
    Stays k rootId u.toUserCode q (Dropping.recoverPage A r) := by
  refine (u.stays_base k rootId _ rfl hq).andThen fun x => ?_
  cases x with
  | ok page =>
      refine (stays_catchAndLog k rootId _ _ hq).andThen fun replayed => ?_
      match replayed with
      | none => exact stays_pure _
      | some (state, next) => exact stays_pure _
  | err e =>
      exact (stays_dropContainingPanic k rootId _ .state hq).andThen fun _ =>
        (stays_dropBare k rootId _ .failure hq).andThen fun _ => stays_pure _
  | panic =>
      exact (stays_dropBare k rootId _ .payload hq).andThen fun _ =>
        (stays_dropContainingPanic k rootId _ .state hq).andThen fun _ => stays_pure _

/-- The phase in which a turn of the initialisation is begun. -/
def place : EventSourced.Phase A → Phase A.Command
  | .recovered _ => .calling .init .none
  | _ => .recovering

/-- **One poll of the recovery**. -/
lemma goes_recover (f : EventSourced.Recovering A) : Goes k rootId u.toUserCode
    (fun r started => StartedAt place r (some started)) (Dropping.recover A f) .recovering := by
  have hfails : ∀ {r : Phase A.Command}, r = .recovering →
      Goes k rootId u.toUserCode (fun r started => StartedAt place r (some started))
        (pure .failed : Dropping.Task A (Loop.Started (EventSourced.Phase A) (Recovered A))) r := by
    rintro r rfl
    exact .step .recoverFails (.pure rfl)
  cases f with
  | fresh =>
      refine (u.stays_base k rootId _ rfl rfl).andThen fun id => ?_
      refine (stays_catchPanicAndLog k rootId _ id rfl).andThen fun id => ?_
      cases id with
      | none => exact hfails rfl
      | some id => exact .pure rfl
  | loading id =>
      refine (u.stays_base k rootId _ rfl rfl).andThen fun pending => ?_
      cases pending with
      | true => exact .pure rfl
      | false =>
          refine (u.stays_base k rootId _ rfl rfl).andThen fun x => ?_
          refine (stays_catchAndLog k rootId _ x rfl).andThen fun snapshot => ?_
          cases snapshot with
          | none => exact hfails rfl
          | some snapshot =>
              refine (u.stays_seedOf k rootId id snapshot rfl).andThen fun r => ?_
              cases r with
              | none => exact hfails rfl
              | some r => exact .pure rfl
  | reading r =>
      refine (u.stays_base k rootId _ rfl rfl).andThen fun pending => ?_
      cases pending with
      | true => exact .pure rfl
      | false =>
          refine (u.stays_recoverPage k rootId r rfl).andThen fun page => ?_
          match page with
          | some (r, true) => exact .step .recovered (.pure rfl)
          | some (r, false) => exact .pure rfl
          | none => exact hfails rfl

/-- One turn of the initialisation. -/
lemma turns_start (phase : EventSourced.Phase A) : Turns .eventSourced rootId u.toUserCode
    (StartedAt place) (Dropping.start A phase) (place phase) := by
  match phase with
  | .select f =>
      refine .call_of fun stopped _ => ?_
      cases stopped with
      | false => exact ⟨_, .recoveryPolled, .ret_of rfl⟩
      | true =>
          refine ⟨_, .recoveryStopped, ?_⟩
          have hdrop := stays_dropContainingPanic .eventSourced rootId u.toUserCode .recovery
            (q := .dropping false) rfl
          refine Turns.bind (p := Loop.emb (Dropping.dropContainingPanic .recovery).run)
            (.emb (Prog.Follows.mono hdrop fun r o ho => ?_))
          obtain ⟨_, rfl, rfl⟩ := ho
          exact Prog.Follows.step (Phase.Passes.dropped false) (.ret_of rfl)
  | .poll f => exact .emb (Goes.run (u.goes_recover .eventSourced rootId f))
  | .recovered r =>
      refine .emb (Goes.run ((stays_callback .eventSourced rootId _ .init _).andThen fun x => ?_))
      refine (stays_catchAndLog .eventSourced rootId _ x rfl).andThen fun state => ?_
      cases state with
      | some state => exact .step (.returned (.initialised .eventSourced)) (.pure rfl)
      | none => exact .step (.returned (.initFails .eventSourced)) (.pure rfl)

/-! ### Settlement -/

lemma stays_encodeEvents (events : List A.Event) (hq : q.active = true) :
    Stays k rootId u.toUserCode q (Dropping.encodeEvents A events) := by
  induction events with
  | nil => exact stays_pure _
  | cons event events ih =>
      refine (u.stays_base k rootId _ rfl hq).andThen fun x => ?_
      refine (stays_catchAndLog k rootId _ x hq).andThen fun payload => ?_
      cases payload with
      | none => exact stays_pure _
      | some payload =>
          refine ih.andThen fun encoded => ?_
          cases encoded <;> exact stays_pure _

/-- After a failure: a contained drop, and what is left to do. -/
lemma stays_containing {α : Type} (value : Dropping.Value) {p : Dropping.Task A α}
    (hq : q.active = true) (hp : Stays k rootId u.toUserCode q p) :
    Stays k rootId u.toUserCode q (do Dropping.dropContainingPanic value; p) :=
  (stays_dropContainingPanic k rootId _ value hq).andThen fun _ => hp

lemma stays_persist (id : I) (state : A.State) (next : SeqNo) (events : List A.Event)
    (hq : q.active = true) :
    Stays k rootId u.toUserCode q (Dropping.persist A id state next events) := by
  refine (u.stays_encodeEvents k rootId events hq).andThen fun encoded => ?_
  cases encoded with
  | none => exact u.stays_containing k rootId .values hq (stays_pure _)
  | some encoded =>
      refine (u.stays_base k rootId _ rfl hq).andThen fun x => ?_
      cases x with
      | ok _ =>
          refine (stays_catchPanicAndLog k rootId _ _ hq).andThen fun applied => ?_
          cases applied with
          | none => exact u.stays_containing k rootId .values hq (stays_pure _)
          | some state => exact stays_pure _
      | err e =>
          exact u.stays_containing k rootId .values hq
            ((stays_dropBare k rootId _ .failure hq).andThen fun _ => stays_pure _)
      | panic =>
          exact (stays_dropBare k rootId _ .payload hq).andThen fun _ =>
            u.stays_containing k rootId .values hq (stays_pure _)

lemma stays_runThens (state : A.State) (thens : List A.Then) (hq : q.active = true) :
    Stays k rootId u.toUserCode q (Dropping.runThens A state thens) := by
  induction thens with
  | nil => exact stays_pure _
  | cons t thens ih =>
      refine (u.stays_base k rootId _ rfl hq).andThen fun x => ?_
      cases x with
      | ok _ => exact ih
      | err e => nomatch e
      | panic => exact stays_pure _

lemma stays_saveSnapshot (id : I) (state : A.State) (next : SeqNo) (hq : q.active = true) :
    Stays k rootId u.toUserCode q (Dropping.saveSnapshot A id state next) := by
  have hencode : Stays k rootId u.toUserCode q (Dropping.encodeSnapshot A state) := by
    refine (u.stays_base k rootId _ rfl hq).andThen fun x => ?_
    match x with
    | .ok (some snapshot) =>
        refine (u.stays_base k rootId _ rfl hq).andThen fun x => ?_
        cases x <;> exact stays_pure _
    | .ok none => exact stays_pure _
    | .err e => exact stays_pure _
    | .panic => exact stays_pure _
  refine hencode.andThen fun x => (stays_catchAndLog k rootId _ x hq).andThen fun snapshot => ?_
  match snapshot with
  | some (some snapshot) =>
      refine (u.stays_base k rootId _ rfl hq).andThen fun x => ?_
      exact (stays_catchAndLog k rootId _ x hq).andThen fun _ => stays_pure _
  | some none => exact stays_pure _
  | none => exact stays_pure _

/-- **Settlement** stays in its phase. -/
lemma stays_settle (id : I) (state : A.State) (next : SeqNo) (effect : Effect A)
    (hq : q.active = true) :
    Stays k rootId u.toUserCode q (Dropping.settle A id state next effect) := by
  have hpersist : Stays k rootId u.toUserCode q
      (if !effect.events.isEmpty then Dropping.persist A id state next effect.events
        else return some (state, next)) := by
    split
    · exact u.stays_persist k rootId id state next effect.events hq
    · exact stays_pure _
  refine hpersist.andThen fun persisted => ?_
  match persisted with
  | none => exact stays_pure _
  | some (state, next) =>
      refine (u.stays_runThens k rootId state effect.thens hq).andThen fun ran => ?_
      cases ran with
      | false =>
          exact (stays_dropBare k rootId _ .payload hq).andThen fun _ =>
            u.stays_containing k rootId .state hq (stays_pure _)
      | true =>
          dsimp only
          split
          · exact (u.stays_saveSnapshot k rootId id state next hq).andThen fun _ => stays_pure _
          · exact stays_pure _

/-- An incoming is handled, and its effect settled. -/
lemma goes_handle (x : Incoming A.Command) (r : Recovered A) :
    Goes .eventSourced rootId u.toUserCode (fun r handled => HandledAt r (some handled))
      (Dropping.handle A x r) (.calling .receive .none) := by
  refine (stays_callback .eventSourced rootId _ .receive _).andThen fun outcome => ?_
  refine (stays_catchAndLog .eventSourced rootId _ outcome rfl).andThen fun effect => ?_
  cases effect with
  | none =>
      refine .step (.returned .handleFails) ?_
      refine (stays_dropContainingPanic .eventSourced rootId _ .state rfl).andThen fun _ => ?_
      exact .step (.dropped true) (.pure rfl)
  | some effect =>
      refine .step (.returned .decides) ?_
      refine (u.stays_settle .eventSourced rootId r.id r.state r.nextSeqNo effect rfl).andThen
        fun settled => ?_
      cases settled with
      | none => exact .step .settleFails (.pure rfl)
      | some settled =>
          dsimp only
          split
          · refine .step .settledStop ?_
            refine (stays_dropContainingPanic .eventSourced rootId _ .state rfl).andThen fun _ => ?_
            exact .step (.dropped false) (.pure rfl)
          · exact .step .settled (.pure rfl)

/-- A handle is dropped without a trace. -/
lemma stays_dropHandle {value : Dropping.Value} (h : ∃ panicked, u.drop value = .ret panicked) :
    Stays k rootId u.toUserCode q
      (Dropping.dropBare value : Dropping.Drops A.Command (EventSourced.Op.Ans (A := A)) Unit) := by
  have hdrop : (Hub.ofOwn u.toUserCode (.bare value)).Follows (phases k rootId)
      (fun r x => r = q ∧ x = false) q := by
    obtain ⟨panicked, hvalue⟩ := h
    refine Prog.Follows.bind (p := Hub.user (u.drop value)) ?_
    rw [hvalue]
    exact .ret_of (.ret_of ⟨rfl, rfl⟩)
  refine .bind (.ask (hdrop.mono fun r x hx => ?_))
  obtain ⟨rfl, rfl⟩ := hx
  exact stays_pure ()

/-- The stores and the codec are dropped without a trace. -/
lemma stays_dropPersistence : Stays k rootId u.toUserCode q (Dropping.dropPersistence A) :=
  (u.stays_dropHandle k rootId u.stores).andThen fun _ => u.stays_dropHandle k rootId u.codec

end EventSourcedCode

/-- **The loop of `spawn_event_sourced`** follows the phases of an event-sourced actor. -/
def Script.spawnEventSourcedKeeps (u : EventSourcedCode A) (strategy : SupervisionStrategy)
    (rootId : ActorId) : (Script.spawnEventSourced u strategy).Keeps .eventSourced rootId where
  place := EventSourcedCode.place
  starting := fun phase => by
    cases phase with
    | recovered r => exact .inr rfl
    | _ => exact .inl rfl
  first := rfl
  start := u.turns_start rootId
  handle := fun x r => Goes.run (u.goes_handle rootId x r)
  release := fun _ => Prog.Follows.after
    (stays_dropContainingPanic .eventSourced rootId u.toUserCode .state rfl) fun r o ho => by
      obtain ⟨_, rfl, rfl⟩ := ho
      exact ⟨_, .single (.dropped false), rfl, rfl⟩
  leave := u.stays_dropPersistence .eventSourced rootId

end Tellus
