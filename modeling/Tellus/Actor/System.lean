import Mathlib.Tactic
import Tellus.Actor.Incoming
import Tellus.Lib.Runs

/-!
A system of actors (`actor_context.rs`, `mailbox.rs`, `actor_system.rs`): their run loops,
mailboxes, watcher registries and stop channels, step by step.

Every actor is somewhere in its run loop or in `terminate` (`Phase`).  A step of the system is
one step of one actor's task between two points at which another task can see or change
something, a step of an actor system's owner, or a message from outside; any order of them is a
run.  What the callbacks do is left open: whenever user code runs, the actor may send, and with
its context at hand it may also spawn, watch and unwatch.

* `Sys`: the state.  The stop channel of an actor's children is its `generation`, which
  `stop_children` replaces; a child holds a receiver of the generation it was spawned in.
* `Move`: the steps which change nothing but the phase of the actor taking them.
* `Step`: all steps, with their labels; `Runs kind tr s` is a run from the empty system.
-/

namespace Tellus

open Concurrent

/-! ### Phases -/

/-- Which run loop an actor has: that of `spawn`, or that of `spawn_event_sourced`. -/
inductive Kind where
  | plain
  | eventSourced
  deriving DecidableEq

/-- Who receives the terminated signal of an actor: another actor, or the oneshot behind
`ActorSystem::terminated`. -/
inductive Watcher where
  | actor (id : ActorId)
  | root
  deriving DecidableEq

/-- An item of a mailbox.  A message remembers which actor's user code has sent it, `none` being
code outside of any actor. -/
inductive Item (M : Type) where
  | message (sender : Option ActorId) (m : M)
  | terminated (id : ActorId)
  deriving DecidableEq

/-- The callbacks which are given the context: `init` and `recovered`, `receive` and `handle`. -/
inductive Callback where
  | init
  | receive
  deriving DecidableEq

/-- Where a callback is inside of a call of `watch` or `unwatch`. -/
inductive Call where
  | none
  /-- `watch`: `WatcherRegistry::add` has returned. -/
  | watchAdded (x : ActorId) (ok : Bool)
  /-- `watch`: the other actor is in the watched map, and the signal is still to be sent. -/
  | watchMapped (x : ActorId)
  /-- `unwatch`: the other actor is out of the watched map. -/
  | unwatchMapped (x : ActorId)
  deriving DecidableEq

/-- The steps of `terminate`, named after what comes next. -/
inductive Terminating where
  | drain
  | disconnect
  | dropMessages
  | deregister (todo : Finset ActorId)
  | stopChildren
  | awaitChildren
  | dropActor
  | takeWatchers
  | signal (todo : Finset Watcher)
  deriving DecidableEq

/-- Where an actor's task is. -/
inductive Phase (M : Type) where
  | unborn
  /-- In `recover`. -/
  | recovering
  /-- In a callback which has the context. -/
  | calling (cb : Callback) (call : Call)
  /-- In `settle`. -/
  | settling
  /-- In `next_incoming!`, before the stop is polled. -/
  | idle
  /-- In `next_incoming!`, the parent not having stopped the actor. -/
  | receiving
  /-- In `next_incoming!`, with an item out of the mailbox. -/
  | taking (item : Item M)
  /-- The state or a recovery is dropped; `fails` says whether supervision comes next. -/
  | dropping (fails : Bool)
  /-- In `await_restart`, before the strategy is asked. -/
  | failed
  /-- In `stop_children`, before a restart. -/
  | restarting
  | backoff
  | terminating (t : Terminating)
  | finished
  deriving DecidableEq

namespace Phase

variable {M : Type}

/-- The head of the run loop. -/
def start : Kind → Phase M
  | .plain => .calling .init .none
  | .eventSourced => .recovering

/-- The mailbox has not been drained. -/
def live : Phase M → Bool
  | .unborn => false
  | .terminating .drain => true
  | .terminating _ => false
  | .finished => false
  | _ => true

/-- The receiver has not been dropped. -/
def connected : Phase M → Bool
  | .terminating .disconnect => true
  | p => p.live

/-- User code is running which can send: a callback outside of a context call, or a
destructor. -/
def active : Phase M → Bool
  | .recovering => true
  | .calling _ .none => true
  | .settling => true
  | .dropping _ => true
  | .terminating .dropMessages => true
  | .terminating .dropActor => true
  | _ => false

/-- The watchers have been taken: registration is closed, and no user code follows. -/
def closed : Phase M → Bool
  | .terminating (.signal _) => true
  | .finished => true
  | _ => false

/-- In `stop_children`, waiting for the receivers of the replaced channel to be dropped. -/
def awaiting : Phase M → Bool
  | .restarting => true
  | .terminating .awaitChildren => true
  | _ => false

end Phase

/-! ### The state -/

/-- The oneshot behind `ActorSystem::terminated`: not made yet, made, or resolved. -/
inductive Sink where
  | absent
  | armed
  | resolved
  deriving DecidableEq

/-- The state of a system of actors. -/
structure Sys (M : Type) where
  phase : ActorId → Phase M
  /-- The parent, and the generation of its stop channel this actor holds a receiver of. -/
  parent : ActorId → Option (ActorId × ℕ)
  /-- How often the stop channel of the children has been replaced. -/
  generation : ActorId → ℕ
  queue : ActorId → List (Item M)
  /-- The watcher registry, `none` once it has been taken. -/
  registry : ActorId → Option (Finset Watcher)
  /-- The watched map of an actor's context. -/
  watched : ActorId → Finset ActorId
  /-- `ActorSystem::stop` has been called for this root. -/
  stopped : ActorId → Bool
  sink : ActorId → Sink

namespace Sys

variable {M : Type}

/-- No actor has been spawned. -/
def init : Sys M where
  phase := fun _ => .unborn
  parent := fun _ => none
  generation := fun _ => 0
  queue := fun _ => []
  registry := fun _ => some ∅
  watched := fun _ => ∅
  stopped := fun _ => false
  sink := fun _ => .absent

/-- An actor's task goes on to a phase. -/
@[simps] def goto (s : Sys M) (a : ActorId) (p : Phase M) : Sys M :=
  { s with phase := Function.update s.phase a p }

/-- An item is put into a mailbox. -/
@[simps] def push (s : Sys M) (b : ActorId) (item : Item M) : Sys M :=
  { s with queue := Function.update s.queue b (s.queue b ++ [item]) }

/-- A mailbox is left with the given items. -/
@[simps] def setQueue (s : Sys M) (a : ActorId) (items : List (Item M)) : Sys M :=
  { s with queue := Function.update s.queue a items }

/-- A registry is left as given. -/
@[simps] def setRegistry (s : Sys M) (x : ActorId) (r : Option (Finset Watcher)) : Sys M :=
  { s with registry := Function.update s.registry x r }

/-- A watched map is left as given. -/
@[simps] def setWatched (s : Sys M) (a : ActorId) (xs : Finset ActorId) : Sys M :=
  { s with watched := Function.update s.watched a xs }

/-- The stop channel of the children is replaced and the old one sent on. -/
@[simps] def replaceChannel (s : Sys M) (a : ActorId) : Sys M :=
  { s with generation := Function.update s.generation a (s.generation a + 1) }

/-- An actor is given its parent. -/
@[simps] def setParent (s : Sys M) (c : ActorId) (p : ActorId × ℕ) : Sys M :=
  { s with parent := Function.update s.parent c (some p) }

/-- A root is stopped. -/
@[simps] def setStopped (s : Sys M) (r : ActorId) : Sys M :=
  { s with stopped := Function.update s.stopped r true }

/-- A oneshot is left as given. -/
@[simps] def setSink (s : Sys M) (r : ActorId) (k : Sink) : Sys M :=
  { s with sink := Function.update s.sink r k }

/-- The parent, or the owner of the actor system, has stopped the actor. -/
def Signalled (s : Sys M) (a : ActorId) : Prop :=
  match s.parent a with
  | some (p, g) => g < s.generation p
  | none => s.stopped a = true

/-- A root nobody has stopped. -/
lemma not_signalled_root {s : Sys M} {r : ActorId} (hroot : s.parent r = none)
    (hstopped : s.stopped r = false) : ¬s.Signalled r := by
  simp [Signalled, hroot, hstopped]

/-- A child of the current generation. -/
lemma not_signalled_child {s : Sys M} {p c : ActorId} {g : ℕ} (hchild : s.parent c = some (p, g))
    (hg : s.generation p = g) : ¬s.Signalled c := by
  simp [Signalled, hchild, hg]

/-- Nobody but the actor itself holds a receiver of the replaced stop channel any more. -/
def ChildrenGone (s : Sys M) (a : ActorId) : Prop :=
  ∀ c g, s.parent c = some (a, g) → g + 1 = s.generation a → s.phase c = .finished

/-- Remove a watcher from a registry, which does nothing once the registry is closed. -/
def removed (s : Sys M) (x : ActorId) (w : Watcher) : Option (Finset Watcher) :=
  (s.registry x).map fun ws => ws.erase w

end Sys

/-! ### Steps -/

/-- What a step does, as far as it is remembered. -/
inductive Label (M : Type) where
  | spawnRoot (r : ActorId)
  /-- The oneshot behind `ActorSystem::terminated` is resolved. -/
  | resolve (r : ActorId)
  /-- Another step of the owner of an actor system. -/
  | system (r : ActorId)
  | spawn (a c : ActorId)
  /-- An item enters a mailbox. -/
  | send (b : ActorId) (item : Item M)
  | watch (a x : ActorId)
  | unwatch (a x : ActorId)
  /-- An item is handed to `receive` or `handle`. -/
  | hand (a : ActorId) (item : Item M)
  /-- A terminated signal is dropped, because the actor is not watched. -/
  | discard (a x : ActorId)
  /-- A callback which has the context has returned. -/
  | returned (a : ActorId)
  /-- The run loop starts over. -/
  | restart (a : ActorId)
  /-- Another step of an actor's task. -/
  | internal (a : ActorId)
  deriving DecidableEq

section Steps

variable {M : Type} (kind : ActorId → Kind)

/-- Where a callback with the context leads to once it has returned. -/
inductive Returns : Kind → Callback → Phase M → Prop
  | initialised (k : Kind) : Returns k .init .idle
  | initFails (k : Kind) : Returns k .init .failed
  | continues : Returns .plain .receive .idle
  | stops : Returns .plain .receive (.terminating .drain)
  | fails : Returns .plain .receive .failed
  | decides : Returns .eventSourced .receive .settling
  | handleFails : Returns .eventSourced .receive (.dropping true)

/-- The steps of actor `a` which change nothing but its own phase. -/
inductive Move (s : Sys M) (a : ActorId) : Phase M → Label M → Phase M → Prop
  /-- A callback with the context returns. -/
  | returned {cb : Callback} {p : Phase M} (h : Returns (kind a) cb p) :
      Move s a (.calling cb .none) (.returned a) p
  /-- `recover` succeeds, and `recovered` is called. -/
  | recovered : Move s a .recovering (.internal a) (.calling .init .none)
  | recoverFails : Move s a .recovering (.internal a) .failed
  | recoverStopped (h : s.Signalled a) : Move s a .recovering (.internal a) (.dropping false)
  /-- `watch` finds the registry closed. -/
  | watchRefused {cb : Callback} {x : ActorId} (hx : s.phase x ≠ .unborn)
      (h : s.registry x = none) :
      Move s a (.calling cb .none) (.watch a x) (.calling cb (.watchAdded x false))
  /-- `unwatch` finds the other actor not watched. -/
  | unwatchNothing {cb : Callback} {x : ActorId} (h : x ∉ s.watched a) :
      Move s a (.calling cb .none) (.unwatch a x) (.calling cb .none)
  | settled : Move s a .settling (.internal a) .idle
  | settledStop : Move s a .settling (.internal a) (.dropping false)
  | settleFails : Move s a .settling (.internal a) .failed
  /-- `next_incoming!` polls the stop first. -/
  | polled (h : ¬s.Signalled a) : Move s a .idle (.internal a) .receiving
  | stopped (h : s.Signalled a) : Move s a .idle (.internal a) (.dropping false)
  /-- There is nothing to receive. -/
  | pending (h : s.queue a = []) : Move s a .receiving (.internal a) .idle
  | handMessage {o : Option ActorId} {m : M} :
      Move s a (.taking (.message o m)) (.hand a (.message o m)) (.calling .receive .none)
  /-- A signal of an actor which is not watched. -/
  | discard {x : ActorId} (h : x ∉ s.watched a) :
      Move s a (.taking (.terminated x)) (.discard a x) .idle
  | dropped (fails : Bool) :
      Move s a (.dropping fails) (.internal a) (if fails then .failed else .terminating .drain)
  /-- No restart is configured, the limit is exceeded, or the parent has stopped the actor. -/
  | notRestarted : Move s a .failed (.internal a) (.terminating .drain)
  /-- `stop_children` ends before a restart. -/
  | childrenStopped (h : s.ChildrenGone a) : Move s a .restarting (.internal a) .backoff
  | backoffStopped (h : s.Signalled a) : Move s a .backoff (.internal a) (.terminating .drain)
  | restarted (h : ¬s.Signalled a) : Move s a .backoff (.restart a) (.start (kind a))
  | disconnected :
      Move s a (.terminating .disconnect) (.internal a) (.terminating .dropMessages)
  | deregistered :
      Move s a (.terminating (.deregister ∅)) (.internal a) (.terminating .stopChildren)
  /-- `stop_children` ends inside of `terminate`. -/
  | childrenTerminated (h : s.ChildrenGone a) :
      Move s a (.terminating .awaitChildren) (.internal a) (.terminating .dropActor)
  | actorDropped :
      Move s a (.terminating .dropActor) (.internal a) (.terminating .takeWatchers)
  /-- A watcher whose mailbox is gone. -/
  | signalLost {todo : Finset Watcher} {b : ActorId} (hb : .actor b ∈ todo)
      (h : (s.phase b).connected = false) :
      Move s a (.terminating (.signal todo)) (.internal a)
        (.terminating (.signal (todo.erase (.actor b))))
  /-- The task ends and drops its receivers of the parent's stop channel. -/
  | finished : Move s a (.terminating (.signal ∅)) (.internal a) .finished

/-- The steps of a system of actors. -/
inductive Step (s : Sys M) : Label M → Sys M → Prop
  /-- An actor system is created. -/
  | spawnRoot {r : ActorId} (h : s.phase r = .unborn) :
      Step s (.spawnRoot r) (s.goto r (.start (kind r)))
  /-- `watch_root` registers. -/
  | watchRoot {r : ActorId} {ws : Finset Watcher} (hborn : s.phase r ≠ .unborn)
      (hroot : s.parent r = none) (hsink : s.sink r = .absent) (h : s.registry r = some ws) :
      Step s (.system r) ((s.setRegistry r (some (insert .root ws))).setSink r .armed)
  /-- `watch_root` finds the registry closed and sends to its own sink. -/
  | watchRootLate {r : ActorId} (hborn : s.phase r ≠ .unborn) (hroot : s.parent r = none)
      (hsink : s.sink r = .absent) (h : s.registry r = none) :
      Step s (.resolve r) (s.setSink r .resolved)
  /-- `ActorSystem::stop`. -/
  | stop {r : ActorId} (hborn : s.phase r ≠ .unborn) (hroot : s.parent r = none) :
      Step s (.system r) (s.setStopped r)
  | move {a : ActorId} {l : Label M} {p q : Phase M} (ha : s.phase a = p)
      (h : Move kind s a p l q) : Step s l (s.goto a q)
  | spawn {a c : ActorId} {cb : Callback} (ha : s.phase a = .calling cb .none)
      (hc : s.phase c = .unborn) :
      Step s (.spawn a c)
        ((s.setParent c (a, s.generation a)).goto c (.start (kind c)))
  | tell {a b : ActorId} (m : M) (ha : (s.phase a).active = true)
      (hb : (s.phase b).connected = true) :
      Step s (.send b (.message (some a) m)) (s.push b (.message (some a) m))
  /-- A message from outside of any actor. -/
  | tellOutside {b : ActorId} (m : M) (hb : (s.phase b).connected = true) :
      Step s (.send b (.message none m)) (s.push b (.message none m))
  | watchAdded {a x : ActorId} {cb : Callback} {ws : Finset Watcher}
      (ha : s.phase a = .calling cb .none) (hx : s.phase x ≠ .unborn)
      (h : s.registry x = some ws) :
      Step s (.watch a x) ((s.setRegistry x (some (insert (.actor a) ws))).goto a
        (.calling cb (.watchAdded x true)))
  | watchMapped {a x : ActorId} {cb : Callback} {ok : Bool}
      (ha : s.phase a = .calling cb (.watchAdded x ok)) :
      Step s (.internal a) ((s.setWatched a (insert x (s.watched a))).goto a
        (.calling cb (if ok then .none else .watchMapped x)))
  /-- `watch` sends the signal of a terminated actor itself. -/
  | watchSignals {a x : ActorId} {cb : Callback}
      (ha : s.phase a = .calling cb (.watchMapped x)) :
      Step s (.send a (.terminated x)) ((s.push a (.terminated x)).goto a (.calling cb .none))
  | unwatch {a x : ActorId} {cb : Callback} (ha : s.phase a = .calling cb .none)
      (h : x ∈ s.watched a) :
      Step s (.unwatch a x) ((s.setWatched a ((s.watched a).erase x)).goto a
        (.calling cb (.unwatchMapped x)))
  | unwatchRemoved {a x : ActorId} {cb : Callback}
      (ha : s.phase a = .calling cb (.unwatchMapped x)) :
      Step s (.internal a) ((s.setRegistry x (s.removed x (.actor a))).goto a
        (.calling cb .none))
  | take {a : ActorId} {item : Item M} {rest : List (Item M)} (ha : s.phase a = .receiving)
      (h : s.queue a = item :: rest) :
      Step s (.internal a) ((s.setQueue a rest).goto a (.taking item))
  | handSignal {a x : ActorId} (ha : s.phase a = .taking (.terminated x))
      (h : x ∈ s.watched a) :
      Step s (.hand a (.terminated x)) ((s.setWatched a ((s.watched a).erase x)).goto a
        (.calling .receive .none))
  /-- `stop_children` begins before a restart.  A stop which comes after `await_restart` has looked
  for one does not keep the actor from it. -/
  | restart {a : ActorId} (ha : s.phase a = .failed) :
      Step s (.internal a) ((s.replaceChannel a).goto a .restarting)
  /-- `stop_children` begins inside of `terminate`. -/
  | stopChildren {a : ActorId} (ha : s.phase a = .terminating .stopChildren) :
      Step s (.internal a) ((s.replaceChannel a).goto a (.terminating .awaitChildren))
  | drain {a : ActorId} (ha : s.phase a = .terminating .drain) :
      Step s (.internal a) ((s.setQueue a []).goto a (.terminating .disconnect))
  | takeWatched {a : ActorId} (ha : s.phase a = .terminating .dropMessages) :
      Step s (.internal a) ((s.setWatched a ∅).goto a
        (.terminating (.deregister (s.watched a))))
  | deregister {a x : ActorId} {todo : Finset ActorId}
      (ha : s.phase a = .terminating (.deregister todo)) (hx : x ∈ todo) :
      Step s (.internal a) ((s.setRegistry x (s.removed x (.actor a))).goto a
        (.terminating (.deregister (todo.erase x))))
  | takeWatchers {a : ActorId} (ha : s.phase a = .terminating .takeWatchers) :
      Step s (.internal a) ((s.setRegistry a none).goto a
        (.terminating (.signal ((s.registry a).getD ∅))))
  | signal {a b : ActorId} {todo : Finset Watcher}
      (ha : s.phase a = .terminating (.signal todo)) (hb : .actor b ∈ todo)
      (h : (s.phase b).connected = true) :
      Step s (.send b (.terminated a)) ((s.push b (.terminated a)).goto a
        (.terminating (.signal (todo.erase (.actor b)))))
  | signalRoot {a : ActorId} {todo : Finset Watcher}
      (ha : s.phase a = .terminating (.signal todo)) (h : .root ∈ todo)
      (hsink : s.sink a = .armed) :
      Step s (.resolve a) ((s.setSink a .resolved).goto a
        (.terminating (.signal (todo.erase .root))))
  /-- The oneshot has been resolved before. -/
  | signalRootAgain {a : ActorId} {todo : Finset Watcher}
      (ha : s.phase a = .terminating (.signal todo)) (h : .root ∈ todo)
      (hsink : s.sink a ≠ .armed) :
      Step s (.internal a) (s.goto a (.terminating (.signal (todo.erase .root))))

/-- The runs of a system of actors, from before the first one is spawned. -/
abbrev Runs (tr : List (Label M)) (s : Sys M) : Prop := Run (Step kind) Sys.init tr s

end Steps

end Tellus
