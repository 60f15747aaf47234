import Mathlib.Tactic
import Tellus.Actor.Incoming
import Tellus.Lib.Tasks

/-!
The run loop of an actor's task (`actor_context.rs`), poll by poll.

`spawn` and `spawn_event_sourced` run the same loop around different bodies: how they start,
how they handle an incoming and what they hold in between.  `Body` is what they differ in, and
`code` the loop, whose calls are those of the loop itself (`Op`) and those of the body.

A future is polled rather than awaited here, since the outcome of a race depends on the order
of the polls: a biased `select!` polls the parent's stop first and comes back to it whenever
every branch is pending.

* `SupervisionStrategy`, `nextRestart`: whether and when a failed actor is restarted.
* `nextIncoming`: one turn of the macro of that name.
* `awaitRestart`: the function of that name up to the `select!` of `await_backoff`.
* `code`: the block at each place of the loop.
-/

namespace Tellus

open Concurrent

/-! ### Supervision -/

/-- An exponential backoff between two bounds, in units of time. -/
structure Backoff where
  min : ℕ
  max : ℕ
  min_le_max : min ≤ max

/-- The delay before the restart after `step` others.  The factor is a `u32`; the product
saturates above every `max`. -/
def Backoff.duration (b : Backoff) (step : ℕ) : ℕ :=
  let factor := if step < 32 then 2 ^ step else 2 ^ 32 - 1
  Nat.min (b.min * factor) b.max

/-- How often an actor is restarted, how long it waits before, and how long it has to be up
for its restarts to be forgotten. -/
structure RestartPolicy where
  maxRestarts : ℕ
  maxRestarts_pos : 0 < maxRestarts
  backoff : Backoff
  resetAfter : ℕ

/-- What becomes of a failed actor. -/
inductive SupervisionStrategy where
  | stop
  | restart (policy : RestartPolicy)

/-- The decision of `next_restart`. -/
inductive Restart where
  | after (delay : ℕ)
  | limitExceeded
  | notConfigured
  deriving DecidableEq

/-- Whether to restart, and the restarts counted from then on; `reset` says whether the actor
was up for long enough. -/
def nextRestart (strategy : SupervisionStrategy) (reset : Bool) (restarts : ℕ) : Restart × ℕ :=
  match strategy with
  | .stop => (.notConfigured, restarts)
  | .restart policy =>
      let restarts := if reset then 0 else restarts
      if policy.maxRestarts ≤ restarts then
        (.limitExceeded, restarts)
      else
        (.after (policy.backoff.duration restarts), restarts + 1)

namespace Loop

/-! ### Calls -/

/-- What the task calls: the polls and probes of the loop, and the body's own calls. -/
inductive Op (M : Type) (Own : Type) : Type where
  /-- Poll the pinned future which resolves once the parent stops the actor. -/
  | pollStopped
  /-- Probe the parent's stop without touching that future. -/
  | hasChanged
  /-- Poll the mailbox. -/
  | recv
  | takeWatchedFor (other : ActorId)
  /-- Whether the actor has been up for at least this long. -/
  | elapsed (resetAfter : ℕ)
  | stopChildren
  /-- Poll the sleep before a restart. -/
  | sleep (delay : ℕ)
  | own (op : Own)

/-- How a call is answered: a poll by `true` or `some` once it is ready, `hasChanged` by `none`
if the parent's sender is gone. -/
abbrev Op.Ans {M Own : Type} (OwnAns : Own → Type) : Op M Own → Type
  | .pollStopped => Bool
  | .hasChanged => Option Bool
  | .recv => Option (Incoming M)
  | .takeWatchedFor _ => Bool
  | .elapsed _ => Bool
  | .stopChildren => Unit
  | .sleep _ => Bool
  | .own op => OwnAns op

/-- How one turn of a body's initialisation ends. -/
inductive Started (Phase Held : Type) where
  | again (phase : Phase)
  | up (held : Held)
  | failed
  | stopped

/-- How the handling of an incoming ends. -/
inductive Handled (Held : Type) where
  | goOn (held : Held)
  | stop
  | failed

variable {M Own : Type} {OwnAns : Own → Type}

/-- The programs of a loop around a body with the calls `Own`. -/
abbrev Task (M : Type) (OwnAns : Own → Type) (α : Type) := Prog (Op M Own) (Op.Ans OwnAns) α

/-- What the two loops differ in.  A program which ends with `none` has unwound. -/
structure Body (M : Type) (OwnAns : Own → Type) where
  /-- The places of the initialisation. -/
  Phase : Type
  /-- What is kept from one incoming to the next. -/
  Held : Type
  first : Phase
  start : Phase → Task M OwnAns (Option (Started Phase Held))
  handle : Incoming M → Held → Prog Own OwnAns (Option (Handled Held))
  /-- Drop what is held, the actor being stopped. -/
  release : Held → Prog Own OwnAns (Option Unit)

/-- Call out and wait for the answer. -/
def ask (op : Op M Own) : Task M OwnAns (op.Ans OwnAns) := Prog.op op

/-- A program of the body as one of the loop. -/
def emb {α : Type} : Prog Own OwnAns α → Task M OwnAns α
  | .ret a => .ret a
  | .call op k => .call (.own op) fun x => emb (k x)

lemma emb_bind {α β : Type} (p : Prog Own OwnAns α) (f : α → Prog Own OwnAns β) :
    emb (M := M) (p.bind f) = (emb p).bind fun a => emb (f a) := by
  induction p with
  | ret a => rfl
  | call op k ih => exact congrArg (Prog.call (Op.own op)) (funext ih)

/-! ### The loop -/

/-- What comes out of one turn of `next_incoming!`. -/
inductive Next (M : Type) where
  /-- The parent stops the actor. -/
  | stopped
  /-- Nothing is there, or nothing the actor is to see. -/
  | again
  | incoming (x : Incoming M)

/-- One turn of `next_incoming!`. -/
def nextIncoming : Task M OwnAns (Next M) := do
  match ← ask .pollStopped with
  | true => return .stopped
  | false =>
      match ← ask .recv with
      | none => return .again
      | some (.message m) => return .incoming (.message m)
      | some (.terminated other) =>
          match ← ask (.takeWatchedFor other) with
          | true => return .incoming (.terminated other)
          | false => return .again

/-- The decision of `await_restart`: not to restart, to do so, or to wait first. -/
inductive Awaited where
  | no
  | yes (restarts : ℕ)
  | backoff (restarts delay : ℕ)

/-- Whether the actor was up for long enough, which is asked only where it matters. -/
def elapsed (strategy : SupervisionStrategy) (up : Bool) : Task M OwnAns Bool :=
  match strategy, up with
  | .restart policy, true => ask (.elapsed policy.resetAfter)
  | _, _ => return false

/-- `await_restart`, with `await_backoff` up to its `select!`. -/
def awaitRestart (strategy : SupervisionStrategy) (up : Bool) (restarts : ℕ) :
    Task M OwnAns Awaited := do
  match nextRestart strategy (← elapsed strategy up) restarts with
  | (.limitExceeded, _) => return .no
  | (.notConfigured, _) => return .no
  | (.after delay, restarts) =>
      if (← ask .hasChanged).getD true then
        return .no
      ask .stopChildren
      if delay = 0 then
        if (← ask .hasChanged).getD true then
          return .no
        return .yes restarts
      return .backoff restarts delay

variable (b : Body M OwnAns)

/-- The places the loop goes back to. -/
inductive Point where
  /-- In the initialisation, the head of the outer loop included. -/
  | starting (restarts : ℕ) (phase : b.Phase)
  /-- The head of `next_incoming!`. -/
  | running (restarts : ℕ) (held : b.Held)
  /-- A failure; `up` says whether the initialisation had succeeded. -/
  | failed (restarts : ℕ) (up : Bool)
  /-- The head of the `select!` of `await_backoff`. -/
  | backoff (restarts delay : ℕ)
  /-- The loop is left for `terminate`. -/
  | terminate
  /-- The task has unwound. -/
  | unwound

/-- The block at each place of the loop. -/
def code (strategy : SupervisionStrategy) : Point b → Task M OwnAns (Point b)
  | .starting restarts phase => do
      match ← b.start phase with
      | none => return .unwound
      | some (.again phase) => return .starting restarts phase
      | some (.up held) => return .running restarts held
      | some .failed => return .failed restarts false
      | some .stopped => return .terminate
  | .running restarts held => do
      match ← nextIncoming with
      | .again => return .running restarts held
      | .stopped =>
          match ← emb (b.release held) with
          | none => return .unwound
          | some () => return .terminate
      | .incoming x =>
          match ← emb (b.handle x held) with
          | none => return .unwound
          | some (.goOn held) => return .running restarts held
          | some .stop => return .terminate
          | some .failed => return .failed restarts true
  | .failed restarts up => do
      match ← awaitRestart strategy up restarts with
      | .no => return .terminate
      | .yes restarts => return .starting restarts b.first
      | .backoff restarts delay => return .backoff restarts delay
  | .backoff restarts delay => do
      match ← ask .pollStopped with
      | true => return .terminate
      | false =>
          match ← ask (.sleep delay) with
          | true => return .starting restarts b.first
          | false => return .backoff restarts delay
  | .terminate => return .terminate
  | .unwound => return .unwound

/-- The head of the outer loop, for the first time. -/
def entry : Point b := .starting 0 b.first

end Loop

/-! ### Actors -/

/-- The types of an actor.  Its callbacks may answer whatever they like and are calls of its
task. -/
structure Actor where
  Message : Type
  State : Type
  Error : Type

/-- The decision of an actor after receiving an incoming. -/
inductive Control (State : Type) where
  | goOn (state : State)
  | stop

namespace Actor

/-- The callbacks. -/
inductive Op (A : Actor) : Type where
  | init
  | receive (incoming : Incoming A.Message) (state : A.State)

/-- How a callback ends. -/
abbrev Op.Ans {A : Actor} : Op A → Type
  | .init => Outcome A.Error A.State
  | .receive _ _ => Outcome A.Error (Control A.State)

/-- The body of the loop of `spawn`: one call to initialise, one for each incoming. -/
def spawn (A : Actor) : Loop.Body A.Message (Op.Ans (A := A)) where
  Phase := Unit
  Held := A.State
  first := ()
  start := fun _ => do
    match catchAndLog (← Loop.ask (.own .init)) with
    | some state => return some (.up state)
    | none => return some .failed
  handle := fun incoming state => do
    match catchAndLog (← Prog.op (Op.receive incoming state)) with
    | some (.goOn state) => return some (.goOn state)
    | some .stop => return some .stop
    | none => return some .failed
  release := fun _ => return some ()

/-- An actor of numbers. -/
def summer : Actor := ⟨ℕ, ℕ, Unit⟩

end Actor

end Tellus
