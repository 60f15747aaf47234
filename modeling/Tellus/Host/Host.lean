import Mathlib.Tactic
import Tellus.Actor.Incoming
import Tellus.Lib.Program

/-!
Hosts (`host.rs`): actors which spawn an actor for each key, its entity, on the first message for
that key, and passivate it once it has not been messaged for a while.

The callbacks of a host are programs over `Op`, the calls which leave them: the function which
spawns entities, the mailboxes of the entities, the clock, and the run loop around them.

* `route`, `terminated`, `passivateIdle`, `tickLater`: the methods of a host, on its `State`.
* `init`, `receive`: its callbacks.  The functions a host is given, the keys' `Hash` and `Eq` and
  the destructors of messages are user code, so a callback may panic at any of its calls.
* `code`: the run loop of `spawn` with these callbacks.
-/

namespace Tellus.Host

open Concurrent

/-! ### Configuration -/

/-- A configuration which cannot be used. -/
inductive InvalidHostConfig where
  | zeroIdleTimeout
  deriving DecidableEq

/-- Configuration for a host.  A duration is a number of ticks of the clock. -/
structure HostConfig where
  idleTimeout : Option ℕ+
  buffer : ℕ+

namespace HostConfig

/-- A configuration keeping every entity alive. -/
def new (buffer : ℕ+) : HostConfig := ⟨none, buffer⟩

/-- This configuration, passivating entities. -/
def withIdleTimeout (config : HostConfig) (idleTimeout : ℕ) :
    Except InvalidHostConfig HostConfig :=
  if h : 0 < idleTimeout then
    .ok { config with idleTimeout := some ⟨idleTimeout, h⟩ }
  else
    .error .zeroIdleTimeout

/-- The default buffers 64 messages. -/
def default : HostConfig := new 64

end HostConfig

/-! ### The state -/

/-- What a host knows of the entity of a key.  An instant is a reading of the clock. -/
inductive Entry (M : Type) where
  | live (actor : ActorId) (lastMessage : ℕ)
  | stopping (actorId : ActorId) (buffered : List M)

/-- The entity. -/
def Entry.actor {M : Type} : Entry M → ActorId
  | .live a _ => a
  | .stopping a _ => a

/-- The messages waiting for the next entity. -/
def Entry.buffered {M : Type} : Entry M → List M
  | .live _ _ => []
  | .stopping _ ms => ms

/-- The state of a host. -/
structure State (K M : Type) where
  entries : K → Option (Entry M)
  keys : ActorId → Option K
  ticker : Option ActorId

namespace State

variable {K M : Type}

/-- Nothing is hosted. -/
def default : State K M := ⟨fun _ => none, fun _ => none, none⟩

/-- The messages buffered for a key. -/
def buffered (state : State K M) (key : K) : List M :=
  ((state.entries key).map Entry.buffered).getD []

/-- The entity of `actor` has gone. -/
@[simps] def forget (state : State K M) (actor : ActorId) : State K M :=
  { state with keys := Function.update state.keys actor none }

/-- `actor` is an entity of `key`. -/
@[simps] def remember (state : State K M) (actor : ActorId) (key : K) : State K M :=
  { state with keys := Function.update state.keys actor (some key) }

variable [DecidableEq K]

@[simps] def insert (state : State K M) (key : K) (entry : Entry M) : State K M :=
  { state with entries := Function.update state.entries key (some entry) }

@[simps] def remove (state : State K M) (key : K) : State K M :=
  { state with entries := Function.update state.entries key none }

end State

/-! ### Calls -/

/-- A message for the entity under the given key. -/
structure HostEnvelope (K M : Type) where
  key : K
  message : M
  deriving DecidableEq

/-- Why a message was not enqueued. -/
inductive SendError where
  | mailboxFull
  | actorTerminated
  deriving DecidableEq

/-- What the task of a host calls.  Calls about a message for an entity name its key. -/
inductive Op (K M : Type) where
  /-- The function which spawns the entity of a key. -/
  | spawn (key : K)
  | spawnTicker
  | watch (actor : ActorId)
  | tell (key : K) (actor : ActorId) (message : M)
  | tryTellForced (key : K) (actor : ActorId) (message : M)
  /-- `try_tell` with the message built by `passivate`. -/
  | passivate (actor : ActorId)
  /-- A message is put into the buffer of a stopping entity. -/
  | buffer (key : K) (message : M)
  /-- A message is dropped, because the buffer is full. -/
  | refuse (key : K) (message : M)
  | deadLetter (actor : ActorId) (error : String)
  /-- `Instant::now`. -/
  | now
  /-- The order in which a `HashMap` is iterated over. -/
  | order (entries : K → Option (Entry M))
  /-- Whether user code panics here. -/
  | panics
  | nextIncoming (held : State K M)
  /-- The callback returns to the run loop, or fails. -/
  | returned (ok : Bool)
  | awaitRestart

/-- How a call is answered. -/
abbrev Op.Ans {K M : Type} : Op K M → Type
  | .spawn _ => ActorId
  | .spawnTicker => ActorId
  | .watch _ => Unit
  | .tell _ _ _ => Except SendError Unit
  | .tryTellForced _ _ _ => Except SendError Unit
  | .passivate _ => Except SendError Unit
  | .buffer _ _ => Unit
  | .refuse _ _ => Unit
  | .deadLetter _ _ => Unit
  | .now => ℕ
  | .order _ => List K
  | .panics => Bool
  | .nextIncoming _ => Option (Incoming (HostEnvelope K M))
  | .returned _ => Unit
  | .awaitRestart => Bool

/-- The programs of a host's task. -/
abbrev Task (K M α : Type) := Prog (Op K M) Op.Ans α

/-- Call out and wait for the answer. -/
def ask {K M : Type} (op : Op K M) : Task K M op.Ans := Prog.op op

/-! ### Methods -/

variable {K M : Type} [DecidableEq K] (config : HostConfig)

/-- Spawn the entity of a key and watch it. -/
def spawnEntity (key : K) : Task K M ActorId := do
  let entity ← ask (.spawn key)
  ask (.watch entity)
  return entity

/-- Route a message: to the live entity, into the buffer of the stopping one, or to a new one. -/
def route (state : State K M) (key : K) (message : M) : Task K M (State K M) := do
  match state.entries key with
  | some (.live actor _) =>
      let _ ← ask (.tell key actor message)
      let now ← ask .now
      return state.insert key (.live actor now)
  | some (.stopping actorId buffered) =>
      if buffered.length < config.buffer then
        ask (.buffer key message)
        return state.insert key (.stopping actorId (buffered ++ [message]))
      else
        ask (.deadLetter actorId "host buffer full")
        ask (.refuse key message)
        return state
  | none =>
      let actor ← spawnEntity key
      let _ ← ask (.tell key actor message)
      let now ← ask .now
      return (state.remember actor key).insert key (.live actor now)

/-- The loop of `passivate_idle`, over the keys in their order. -/
def passivateEach (idleTimeout : ℕ) : List K → State K M → Task K M (State K M)
  | [], state => return state
  | key :: keys, state => do
      match state.entries key with
      | some (.live actor lastMessage) =>
          let now ← ask .now
          if now - lastMessage < idleTimeout then
            passivateEach idleTimeout keys state
          else
            match ← ask (.passivate actor) with
            | .ok () => passivateEach idleTimeout keys (state.insert key (.stopping actor []))
            | .error _ => passivateEach idleTimeout keys state
      | some (.stopping _ _) => passivateEach idleTimeout keys state
      | none => passivateEach idleTimeout keys state

/-- Ask every entity to stop which has not been messaged for the idle timeout. -/
def passivateIdle (state : State K M) : Task K M (State K M) := do
  match config.idleTimeout with
  | none => return state
  | some idleTimeout =>
      let keys ← ask (.order state.entries)
      passivateEach idleTimeout keys state

/-- Spawn the next ticker, if there is an idle timeout. -/
def tickLater (state : State K M) : Task K M (State K M) := do
  match config.idleTimeout with
  | none => return { state with ticker := none }
  | some _ =>
      let ticker ← ask .spawnTicker
      ask (.watch ticker)
      return { state with ticker := some ticker }

/-- Tell a new entity what was buffered for it, past its capacity. -/
def tellBuffered (key : K) (actor : ActorId) : List M → Task K M Unit
  | [] => return ()
  | message :: buffered => do
      match ← ask (.tryTellForced key actor message) with
      | .ok () => tellBuffered key actor buffered
      | .error _ =>
          ask (.deadLetter actor "entity terminated")
          tellBuffered key actor buffered

/-- A terminated signal: that of the ticker is the time to sweep, that of an entity which was
stopping with messages buffered is the time to spawn the next one. -/
def terminated (state : State K M) (actorId : ActorId) : Task K M (State K M) := do
  if state.ticker = some actorId then
    let state ← passivateIdle config state
    tickLater config state
  else
    match state.keys actorId with
    | none => return state
    | some key =>
        let removed := (state.forget actorId).remove key
        match state.entries key with
        | some (.stopping _ buffered) =>
            if buffered.isEmpty then
              return removed
            else
              let actor ← spawnEntity key
              tellBuffered key actor buffered
              let now ← ask .now
              return (removed.remember actor key).insert key (.live actor now)
        | some (.live _ _) => return removed
        | none => return removed

/-! ### Callbacks and the run loop -/

/-- The callback `init`. -/
def init : Task K M (State K M) := tickLater config State.default

/-- The callback `receive`, which never stops the host. -/
def receive (state : State K M) : Incoming (HostEnvelope K M) → Task K M (State K M)
  | .message envelope => route config state envelope.key envelope.message
  | .terminated actorId => terminated config state actorId

/-- The places the run loop goes back to. -/
inductive Point (K M : Type) where
  /-- The head of the outer loop. -/
  | run
  /-- The head of the inner loop. -/
  | running (state : State K M)
  /-- A failure, to be handed to supervision; the state has been dropped. -/
  | failed
  /-- The loop is left for good. -/
  | terminate

/-- Run a callback, and return from it or fail if it panics. -/
def call (callback : Task K M (State K M)) : Task K M (Point K M) := do
  match ← callback.interruptible .panics id with
  | some state =>
      ask (.returned true)
      return .running state
  | none =>
      ask (.returned false)
      return .failed

/-- The block at each place of the run loop. -/
def code : Point K M → Task K M (Point K M)
  | .run => call (init config)
  | .running state => do
      match ← ask (.nextIncoming state) with
      | none => return .terminate
      | some incoming => call (receive config state incoming)
  | .failed => do
      match ← ask .awaitRestart with
      | true => return .run
      | false => return .terminate
  | .terminate => return .terminate

end Tellus.Host
