import Mathlib.Tactic
import Tellus.Actor.Incoming
import Tellus.Persistence.Store

/-!
Event-sourced actors (`persistence/event_sourced.rs`, `effect.rs`, `versioned.rs`): the
persisted types, the pure callbacks, and what a stored stream means to them.

* `EventSourced`: the trait's types together with its pure callbacks.  The others, `handle`,
  `recovered` and `snapshot`, may answer whatever they like and are operations of the run
  loop.
* `decodeVersioned`, `replayPage`, `applyEvents`: the code reading and applying events.
* `EventSourced.stateAfter`: what a stream stands for, `apply` folded over `init` and its
  decoded events.  `replayPage_eq` says that replay computes it.
-/

namespace Tellus

/-! ### Versioned values -/

/-- Why a stored payload was not decoded. -/
inductive DecodeError where
  | payload
  | manifestMismatch (stored expected : String)
  | unsupportedSchemaVersion (manifest : String) (schemaVersion : SchemaVersion)
  deriving DecidableEq

/-- A type stored durably: its stable name, its current version, and how a payload of a
given version is decoded, old ones being upcast or rejected. -/
structure Versioned (T : Type) where
  manifest : String
  version : SchemaVersion
  decode : SchemaVersion → Payload → Outcome DecodeError T

/-- The default `decode`, which knows the current version only. -/
def Versioned.current {T : Type} (manifest : String) (version : SchemaVersion)
    (decode : Payload → Option T) : Versioned T where
  manifest := manifest
  version := version
  decode := fun schemaVersion payload =>
    if schemaVersion = version then
      match decode payload with
      | some value => .ok value
      | none => .err .payload
    else
      .err (.unsupportedSchemaVersion manifest schemaVersion)

/-- Decode a stored payload, provided that its manifest names the type. -/
def decodeVersioned {T : Type} (V : Versioned T) (manifest : String)
    (schemaVersion : SchemaVersion) (payload : Payload) : Outcome DecodeError T :=
  if manifest ≠ V.manifest then
    .err (.manifestMismatch manifest V.manifest)
  else
    V.decode schemaVersion payload

/-! ### Event-sourced actors -/

/-- An event-sourced actor, for each ID of its type: the trait's types and its pure
callbacks. -/
structure EventSourced (I : Type) where
  Command : Type
  Event : Type
  State : Type
  Snapshot : Type
  Error : Type
  /-- A continuation attached to an effect. -/
  Then : Type
  event : Versioned Event
  snapshot : Versioned Snapshot
  init : I → Outcome Error State
  initFromSnapshot : I → Snapshot → Outcome Error State
  /-- Fold an event into the state, `none` if that panics. -/
  apply : I → State → Event → Option State

variable {I : Type} (A : EventSourced I)

/-- The decision of an event-sourced actor after handling a command. -/
structure Effect where
  events : List A.Event
  stop : Bool
  thens : List A.Then

/-- Why a page of events was not replayed. -/
inductive ReplayError where
  | decode (e : DecodeError)
  | gap (seqNo expected : SeqNo)
  deriving DecidableEq

variable {A}

/-- Replay a page of stored events onto `state`, the first of them being expected at
`next`. -/
def replayPage (A : EventSourced I) (id : I) (state : A.State) (next : SeqNo) :
    List StoredEvent → Outcome ReplayError (A.State × SeqNo)
  | [] => .ok (state, next)
  | stored :: page =>
      if stored.seqNo ≠ next then
        .err (.gap stored.seqNo next)
      else
        match decodeVersioned A.event stored.event.manifest stored.event.schemaVersion
            stored.event.payload with
        | .ok event =>
            match A.apply id state event with
            | some state => replayPage A id state next.succ page
            | none => .panic
        | .err e => .err (.decode e)
        | .panic => .panic

/-- Apply the events of an effect in order, `none` if one of them panics. -/
def applyEvents (A : EventSourced I) (id : I) (state : A.State) (events : List A.Event) :
    Option A.State :=
  events.foldlM (A.apply id) state

/-! ### What a stream stands for -/

namespace EventSourced

/-- The event an encoded event stands for. -/
def decoded (A : EventSourced I) (e : EncodedEvent) : Option A.Event :=
  catchAndLog (decodeVersioned A.event e.manifest e.schemaVersion e.payload)

/-- Decode an event and apply it. -/
def evolve (A : EventSourced I) (id : I) (state : A.State) (e : EncodedEvent) : Option A.State :=
  (A.decoded e).bind (A.apply id state)

/-- The state after the given events, from `state` on. -/
def replay (A : EventSourced I) (id : I) (state : A.State) (es : List EncodedEvent) :
    Option A.State :=
  es.foldlM (A.evolve id) state

/-- The state a stream stands for: `apply` folded over `init` and its decoded events. -/
def stateAfter (A : EventSourced I) (id : I) (stream : List StoredEvent) : Option A.State :=
  (catchAndLog (A.init id)).bind fun seed => A.replay id seed (stream.map StoredEvent.event)

@[simp] lemma replay_nil (id : I) (state : A.State) : A.replay id state [] = some state := rfl

lemma replay_append (id : I) (state : A.State) (es es' : List EncodedEvent) :
    A.replay id state (es ++ es') = (A.replay id state es).bind (A.replay id · es') := by
  rw [replay, List.foldlM_append]
  rfl

lemma replay_cons (id : I) (state : A.State) (e : EncodedEvent) (es : List EncodedEvent) :
    A.replay id state (e :: es) = (A.evolve id state e).bind (A.replay id · es) := by
  rw [replay, List.foldlM_cons]
  rfl

/-- Extending a stream continues its fold. -/
lemma stateAfter_append (id : I) (stream more : List StoredEvent) :
    A.stateAfter id (stream ++ more) =
      (A.stateAfter id stream).bind (A.replay id · (more.map StoredEvent.event)) := by
  simp only [stateAfter, List.map_append, replay_append, Option.bind_assoc]

/-- Decoding keeps the number of events. -/
lemma length_of_decoded {es : List EncodedEvent} {events : List A.Event}
    (h : es.mapM A.decoded = some events) : es.length = events.length := by
  induction es generalizing events with
  | nil =>
      cases h
      rfl
  | cons e es ih =>
      simp only [List.mapM_cons, Option.pure_def, Option.bind_eq_bind, Option.bind_eq_some_iff,
        Option.some.injEq] at h
      obtain ⟨event, -, rest, hrest, rfl⟩ := h
      rw [List.length_cons, List.length_cons, ih hrest]

/-- Replaying decoded events is applying them. -/
lemma replay_of_decoded {id : I} {es : List EncodedEvent} {events : List A.Event}
    (h : es.mapM A.decoded = some events) (state : A.State) :
    A.replay id state es = applyEvents A id state events := by
  induction es generalizing events state with
  | nil =>
      cases h
      rfl
  | cons e es ih =>
      simp only [List.mapM_cons, Option.pure_def, Option.bind_eq_bind, Option.bind_eq_some_iff,
        Option.some.injEq] at h
      obtain ⟨event, he, rest, hrest, rfl⟩ := h
      rw [replay_cons, evolve, he, Option.bind_some, applyEvents, List.foldlM_cons]
      exact congrArg _ (funext fun s => ih hrest s)

end EventSourced

/-! ### Replay -/

/-- Replay over a numbered slice succeeds exactly when the fold does, and then ends after its
last event with the fold's state. -/
lemma replayPage_eq {id : I} {page : List StoredEvent} {state : A.State} {next : SeqNo}
    (hnum : ∀ (n : ℕ) (e : StoredEvent), page[n]? = some e → e.seqNo.toNat = next.toNat + n)
    (hfits : next.toNat + page.length < 2 ^ 64) :
    catchAndLog (replayPage A id state next page) =
      (A.replay id state (page.map StoredEvent.event)).map fun s =>
        (s, next.advancedBy page.length) := by
  induction page generalizing state next with
  | nil =>
      simp [replayPage, catchAndLog, SeqNo.advancedBy_zero]
  | cons e page ih =>
      have hlen : next.toNat + (page.length + 1) < 2 ^ 64 := by simpa using hfits
      have hsucc : next.succ.toNat = next.toNat + 1 := SeqNo.toNat_succ (by omega)
      have he : e.seqNo = next := SeqNo.ext (by simpa using hnum 0 e rfl)
      have hadv : next.succ.advancedBy page.length = next.advancedBy (page.length + 1) := by
        apply SeqNo.ext
        rw [SeqNo.toNat_advancedBy (by omega), SeqNo.toNat_advancedBy (by omega)]
        omega
      have hnum' : ∀ (n : ℕ) (e : StoredEvent), page[n]? = some e →
          e.seqNo.toNat = next.succ.toNat + n := by
        intro n e' hn
        have := hnum (n + 1) e' (by simpa using hn)
        omega
      rw [replayPage, if_neg (not_not.mpr he), List.map_cons, EventSourced.replay_cons,
        EventSourced.evolve, EventSourced.decoded, List.length_cons, ← hadv]
      cases hdec : decodeVersioned A.event e.event.manifest e.event.schemaVersion
          e.event.payload with
      | ok event =>
          cases happ : A.apply id state event with
          | none => simp [catchAndLog, happ]
          | some state' =>
              simpa [catchAndLog, happ] using @ih state' next.succ hnum' (by omega)
      | err d => simp [catchAndLog]
      | panic => simp [catchAndLog]

/-! ### A counter -/

/-- A counter of commands, one event each. -/
def counter : EventSourced Unit where
  Command := Unit
  Event := Unit
  State := ℕ
  Snapshot := ℕ
  Error := Unit
  Then := Empty
  event := .current "counted" ⟨1⟩ fun _ => some ()
  snapshot := .current "count" ⟨1⟩ fun payload => some payload.length
  init := fun _ => .ok 0
  initFromSnapshot := fun _ n => .ok n
  apply := fun _ n _ => some (n + (1 : ℕ))

/-- The counter's event as it is stored. -/
def counted : EncodedEvent := ⟨"counted", ⟨1⟩, []⟩

/-- The effect of a command. -/
def count : Effect counter := ⟨[()], false, []⟩

end Tellus
