import Mathlib.Tactic
import Tellus.Lib.Tasks
import Tellus.Persistence.EventSourced

/-!
The run loop of an event-sourced actor (`persistence/spawn.rs`).

The loop is a control-flow graph: `Point` lists the places it goes back to, `code` the block
run at each of them.  A block is a program over `Op`, the calls which leave the task: the
store, the callbacks whose answers are the application's own, the codec, and the parent.

* `recoverSeed`, `recoverPage`: `recover` up to its loop, and one turn of that loop.  Both
  are cancelled wherever they wait once the parent stops the actor.
* `persist`, `runThens`, `saveSnapshot`, `settle`: the settlement of an effect, which is
  never cancelled.
* `recover`: the whole of `recover` against a store which does not fail.
-/

namespace Tellus

open Concurrent

variable {I : Type}

/-- The number of events read at once during recovery. -/
def replayPageLimit : ℕ := 512

/-- The failure of a codec to encode a value. -/
inductive EncodeError where
  | notEncodable
  deriving DecidableEq

/-- Why there is no snapshot to save. -/
inductive SnapshotError (E : Type) where
  | actor (e : E)
  | encode (e : EncodeError)

/-- The result of `recover`, and what the run loop carries from one incoming to the next. -/
structure Recovered (A : EventSourced I) where
  id : I
  state : A.State
  nextSeqNo : SeqNo

/-- What an event-sourced actor's task calls.  `nextIncoming` names what the loop holds while
it waits. -/
inductive Op (A : EventSourced I) : Type where
  | persistenceId
  | load (id : I)
  | read (id : I) (start : SeqNo) (limit : ℕ)
  | append (id : I) (next : SeqNo) (events : List EncodedEvent)
  | save (id : I) (next : SeqNo) (snapshot : EncodedSnapshot)
  | recovered (state : A.State)
  | handle (incoming : Incoming A.Command) (state : A.State)
  | continuation (t : A.Then) (state : A.State)
  | snapshot (state : A.State)
  | encodeEvent (e : A.Event)
  | encodeSnapshot (s : A.Snapshot)
  | stoppedByParent
  | nextIncoming (held : Recovered A)
  | awaitRestart

/-- How a call is answered.  A panicking store or callback is an answer too, since every one
of them is called under `catch_unwind`; a store's own error is a text to be logged. -/
abbrev Op.Ans {A : EventSourced I} : Op A → Type
  | .persistenceId => Option I
  | .load _ => Outcome String (Option StoredSnapshot)
  | .read _ _ _ => Outcome String (List StoredEvent)
  | .append _ _ _ => Outcome (AppendError String) Unit
  | .save _ _ _ => Outcome String Unit
  | .recovered _ => Outcome A.Error A.State
  | .handle _ _ => Outcome A.Error (Effect A)
  | .continuation _ _ => Outcome Empty Unit
  | .snapshot _ => Outcome A.Error (Option A.Snapshot)
  | .encodeEvent _ => Outcome EncodeError Payload
  | .encodeSnapshot _ => Outcome EncodeError Payload
  | .stoppedByParent => Bool
  | .nextIncoming _ => Option (Incoming A.Command)
  | .awaitRestart => Bool

/-- The programs of an event-sourced actor's task. -/
abbrev Task (A : EventSourced I) (α : Type) := Prog (Op A) Op.Ans α

/-- Call out and wait for the answer. -/
def ask (A : EventSourced I) (op : Op A) : Task A op.Ans := Prog.op op

/-- The result of `settle`. -/
structure Settled (A : EventSourced I) where
  state : A.State
  nextSeqNo : SeqNo
  stop : Bool

variable (A : EventSourced I)

/-! ### Recovery -/

/-- The snapshot to start from, unless there is none or it does not decode. -/
def decodeSnapshot (snapshot : Option StoredSnapshot) : Option (A.Snapshot × SeqNo) :=
  snapshot.bind fun stored =>
    match decodeVersioned A.snapshot stored.snapshot.manifest stored.snapshot.schemaVersion
        stored.snapshot.payload with
    | .ok snapshot => some (snapshot, stored.nextSeqNo)
    | .err _ => none
    | .panic => none

/-- The state and position to replay from. -/
def seedOf (id : I) (snapshot : Option StoredSnapshot) : Option (Recovered A) :=
  match decodeSnapshot A snapshot with
  | some (snapshot, next) =>
      (catchAndLog (A.initFromSnapshot id snapshot)).map fun state => ⟨id, state, next⟩
  | none => (catchAndLog (A.init id)).map fun state => ⟨id, state, SeqNo.zero⟩

/-- `recover` up to its loop. -/
def recoverSeed : Task A (Option (Recovered A)) := do
  match ← ask A .persistenceId with
  | none => return none
  | some id =>
      match ← ask A (.load id) with
      | .ok snapshot => return seedOf A id snapshot
      | .err _ => return none
      | .panic => return none

/-- One turn of the loop of `recover`: the new state and position, and whether the page was
short, which ends the loop. -/
def recoverPage (r : Recovered A) : Task A (Option (Recovered A × Bool)) := do
  match ← ask A (.read r.id r.nextSeqNo replayPageLimit) with
  | .ok page =>
      return (catchAndLog (replayPage A r.id r.state r.nextSeqNo page)).map fun (state, next) =>
        (⟨r.id, state, next⟩, page.length < replayPageLimit)
  | .err _ => return none
  | .panic => return none

/-! ### Settlement -/

/-- Encode the events in order, up to the first failure. -/
def encodeEvents : List A.Event → Task A (Option (List EncodedEvent))
  | [] => return some []
  | event :: events => do
      match ← ask A (.encodeEvent event) with
      | .ok payload =>
          match ← encodeEvents events with
          | some encoded => return some (⟨A.event.manifest, A.event.version, payload⟩ :: encoded)
          | none => return none
      | .err _ => return none
      | .panic => return none

/-- Append the events of an effect and apply them once that has succeeded. -/
def persist (id : I) (state : A.State) (next : SeqNo) (events : List A.Event) :
    Task A (Option (A.State × SeqNo)) := do
  match ← encodeEvents A events with
  | none => return none
  | some encoded =>
      match ← ask A (.append id next encoded) with
      | .ok () =>
          return (applyEvents A id state events).map fun state =>
            (state, next.advancedBy events.length)
      | .err _ => return none
      | .panic => return none

/-- Run the continuations in order, up to the first panic; whether there was none. -/
def runThens (state : A.State) : List A.Then → Task A Bool
  | [] => return true
  | t :: thens => do
      match ← ask A (.continuation t state) with
      | .ok () => runThens state thens
      | .err e => nomatch e
      | .panic => return false

/-- Build a snapshot and encode it. -/
def encodeSnapshot (state : A.State) :
    Task A (Outcome (SnapshotError A.Error) (Option EncodedSnapshot)) := do
  match ← ask A (.snapshot state) with
  | .ok (some snapshot) =>
      match ← ask A (.encodeSnapshot snapshot) with
      | .ok payload => return .ok (some ⟨A.snapshot.manifest, A.snapshot.version, payload⟩)
      | .err e => return .err (.encode e)
      | .panic => return .panic
  | .ok none => return .ok none
  | .err e => return .err (.actor e)
  | .panic => return .panic

/-- Save a snapshot if one is due; no failure on the way counts. -/
def saveSnapshot (id : I) (state : A.State) (next : SeqNo) : Task A Unit := do
  match ← encodeSnapshot A state with
  | .ok (some snapshot) =>
      let _ ← ask A (.save id next snapshot)
      return ()
  | .ok none => return ()
  | .err _ => return ()
  | .panic => return ()

/-- Settle an effect: append and apply its events, run its continuations, offer a snapshot. -/
def settle (id : I) (state : A.State) (next : SeqNo) (effect : Effect A) :
    Task A (Option (Settled A)) := do
  let appended := !effect.events.isEmpty
  match ← (if appended then persist A id state next effect.events
      else return some (state, next)) with
  | none => return none
  | some (state, next) =>
      match ← runThens A state effect.thens with
      | false => return none
      | true =>
          if appended then
            saveSnapshot A id state next
          return some ⟨state, next, effect.stop⟩

/-! ### The run loop -/

/-- The places the run loop goes back to. -/
inductive Point where
  /-- The head of the outer loop. -/
  | run
  /-- The head of the loop of `recover`. -/
  | replay (r : Recovered A)
  /-- `recover` has returned. -/
  | recovered (r : Recovered A)
  /-- The head of the inner loop: the next incoming is about to be taken. -/
  | running (r : Recovered A)
  /-- A failure, to be handed to supervision. -/
  | failed
  /-- The loop is left for good. -/
  | terminate

/-- The block at each place of the run loop. -/
def code : Point A → Task A (Point A)
  | .run => do
      match ← (recoverSeed A).interruptible .stoppedByParent id with
      | none => return .terminate
      | some none => return .failed
      | some (some r) => return .replay r
  | .replay r => do
      match ← (recoverPage A r).interruptible .stoppedByParent id with
      | none => return .terminate
      | some none => return .failed
      | some (some (r, true)) => return .recovered r
      | some (some (r, false)) => return .replay r
  | .recovered r => do
      match catchAndLog (← ask A (.recovered r.state)) with
      | some state => return .running { r with state := state }
      | none => return .failed
  | .running r => do
      match ← ask A (.nextIncoming r) with
      | none => return .terminate
      | some incoming =>
          match catchAndLog (← ask A (.handle incoming r.state)) with
          | none => return .failed
          | some effect =>
              match ← settle A r.id r.state r.nextSeqNo effect with
              | some settled =>
                  if settled.stop then
                    return .terminate
                  else
                    return .running ⟨r.id, settled.state, settled.nextSeqNo⟩
              | none => return .failed
  | .failed => do
      match ← ask A .awaitRestart with
      | true => return .run
      | false => return .terminate
  | .terminate => return .terminate

/-! ### Recovery against a quiet store -/

/-- The answers of a store which neither fails nor changes, given to the actor of `id`. -/
def storeAnswers (s : InMemoryStore I) (id : I) : (op : Op A) → Option op.Ans
  | .persistenceId => some (some id)
  | .load id => some (.ok (s.load id))
  | .read id start limit => some (.ok (s.read id start limit))
  | _ => none

/-- The loop of `recover` against a quiet store, for at most `fuel` pages. -/
def recoverLoop (s : InMemoryStore I) (id : I) : ℕ → Recovered A → Option (Option (Recovered A))
  | 0, _ => none
  | fuel + 1, r =>
      match (recoverPage A r).eval (storeAnswers A s id) with
      | none => none
      | some none => some none
      | some (some (r, true)) => some (some r)
      | some (some (r, false)) => recoverLoop s id fuel r

/-- `recover` against a quiet store, for at most `fuel` pages: `none` if it needs more of
them, `some none` if it fails. -/
def recover (s : InMemoryStore I) (id : I) (fuel : ℕ) : Option (Option (Recovered A)) :=
  match (recoverSeed A).eval (storeAnswers A s id) with
  | none => none
  | some none => some none
  | some (some r) => recoverLoop A s id fuel r

end Tellus
