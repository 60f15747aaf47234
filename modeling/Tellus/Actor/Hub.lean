import Mathlib.Tactic
import Tellus.Actor.Destructors
import Tellus.Actor.System

/-!
The tasks of actors as programs on what they share (`actor_context.rs`, `mailbox.rs`).

In `Sys` an actor is where its phase says.  Here it has a program instead: the run loop and
`terminate`, poll by poll and drop by drop (`Dropping.code`), with user code for every callback and
every destructor.  What the tasks share, the mailboxes, registries and stop channels, is changed by
one small step at a time, and the steps of other tasks come in between.

* `Hub`: what the tasks share.
* `UserCode`: the callbacks and destructors of an actor.
* `Hub.ofUser`, `Hub.ofLoop`: the calls of user code and of the run loop in small steps.
* `Hub.Exec`, `Hub.Env`: what these do to the hub, and what happens outside of any actor.
* `Script`: an actor's loop, its user code and its strategy; `Script.code` is its task.
-/

namespace Tellus

open Concurrent

/-! ### What the tasks share -/

/-- What the tasks of a system of actors share. -/
structure Hub (M : Type) where
  /-- The task has been spawned. -/
  born : ActorId → Bool
  /-- The receiver of the mailbox has not been dropped. -/
  connected : ActorId → Bool
  /-- The task has ended. -/
  done : ActorId → Bool
  /-- The parent, and the generation of its stop channel this actor holds a receiver of. -/
  parent : ActorId → Option (ActorId × ℕ)
  generation : ActorId → ℕ
  queue : ActorId → List (Item M)
  registry : ActorId → Option (Finset Watcher)
  watched : ActorId → Finset ActorId
  stopped : ActorId → Bool
  sink : ActorId → Sink

namespace Hub

variable {M : Type}

/-- No actor has been spawned. -/
def init : Hub M where
  born := fun _ => false
  connected := fun _ => false
  done := fun _ => false
  parent := fun _ => none
  generation := fun _ => 0
  queue := fun _ => []
  registry := fun _ => some ∅
  watched := fun _ => ∅
  stopped := fun _ => false
  sink := fun _ => .absent

variable (h : Hub M)

/-- The parent, or the owner of the actor system, has stopped the actor. -/
def Stops (a : ActorId) : Prop :=
  match h.parent a with
  | some (p, g) => g < h.generation p
  | none => h.stopped a = true

/-- Nobody but the actor itself holds a receiver of the replaced stop channel any more. -/
def ChildrenDone (a : ActorId) : Prop :=
  ∀ c g, h.parent c = some (a, g) → g + 1 = h.generation a → h.done c = true

/-- `d` is below `a` in the tree. -/
def Descendant (d a : ActorId) : Prop :=
  Relation.TransGen (fun c b => ∃ g, h.parent c = some (b, g)) d a

/-- `w` is in the registry of `x`. -/
def Registered (w x : ActorId) : Prop := ∃ ws, h.registry x = some ws ∧ .actor w ∈ ws

/-- A task is spawned. -/
def spawn (c : ActorId) : Hub M :=
  { h with
    born := Function.update h.born c true
    connected := Function.update h.connected c true }

/-- An item is put into a mailbox. -/
def push (b : ActorId) (item : Item M) : Hub M :=
  { h with queue := Function.update h.queue b (h.queue b ++ [item]) }

/-- A registry is left as given. -/
def setRegistry (x : ActorId) (r : Option (Finset Watcher)) : Hub M :=
  { h with registry := Function.update h.registry x r }

/-- A watched map is left as given. -/
def setWatched (a : ActorId) (xs : Finset ActorId) : Hub M :=
  { h with watched := Function.update h.watched a xs }

/-- A oneshot is left as given. -/
def setSink (r : ActorId) (k : Sink) : Hub M :=
  { h with sink := Function.update h.sink r k }

end Hub

/-- What an item is to the actor which receives it. -/
def Item.incoming {M : Type} : Item M → Incoming M
  | .message _ m => .message m
  | .terminated id => .terminated id

/-- The watcher with an ID, `rootId` being that of the oneshot. -/
def Watcher.ofId (rootId id : ActorId) : Watcher := if id = rootId then .root else .actor id

/-! ### User code -/

/-- What user code does: `ActorRef::tell`, the methods of the context, and whatever else it may
look at, answered by any number. -/
inductive UserOp (M : Type) where
  | tell (b : ActorId) (m : M)
  | spawn
  | watch (x : ActorId)
  | unwatch (x : ActorId)
  | other

/-- How that is answered: `tell` by whether the message has been enqueued. -/
abbrev UserOp.Ans {M : Type} : UserOp M → Type
  | .tell _ _ => Bool
  | .spawn => ActorId
  | .watch _ => Unit
  | .unwatch _ => Unit
  | .other => ℕ

/-- It does without the context. -/
def UserOp.Bare {M : Type} : UserOp M → Prop
  | .tell _ _ => True
  | .other => True
  | _ => False

/-- The programs of user code. -/
abbrev UserTask (M : Type) (α : Type) := Prog (UserOp M) UserOp.Ans α

/-- The callbacks and destructors of an actor.  Only some callbacks are given the context. -/
structure UserCode (M : Type) {Base : Type} (BaseAns : Base → Type) where
  context : Base → Bool
  call : (op : Base) → UserTask M (BaseAns op)
  /-- Whether the destructor panics. -/
  drop : Dropping.Value → UserTask M Bool
  bare_call : ∀ op, context op = false →
    (call op).Ends UserOp.Bare (fun _ _ => True) fun _ => True
  bare_drop : ∀ value, (drop value).Ends UserOp.Bare (fun _ _ => True) fun _ => True

/-! ### Small steps -/

namespace Hub

/-- The steps of a task. -/
inductive Op (M : Type) where
  /-- The task is spawned. -/
  | begin
  | pollStopped
  | hasChanged
  | recv
  | takeWatchedFor (x : ActorId)
  | elapsed (resetAfter : ℕ)
  | sleep (delay : ℕ)
  /-- `stop_children` up to where it waits. -/
  | replaceChannel
  /-- `closed` is ready. -/
  | awaitClosed
  | tell (b : ActorId) (m : M)
  | spawn
  /-- `WatcherRegistry::add`. -/
  | add (x : ActorId)
  | insertWatched (x : ActorId)
  /-- `SelfRef::send_terminated`. -/
  | sendSelf (x : ActorId)
  | removeWatched (x : ActorId)
  /-- `WatcherRegistry::remove`. -/
  | remove (x : ActorId)
  | other
  | drain
  | dropReceiver
  | takeWatched
  | takeWatchers
  | sendTerminated (watcher : ActorId)
  /-- The task ends and drops its receivers of the parent's stop channel. -/
  | finish

/-- How a step is answered. -/
abbrev Op.Ans {M : Type} : Op M → Type
  | .begin => Unit
  | .pollStopped => Bool
  | .hasChanged => Option Bool
  | .recv => Option (Incoming M)
  | .takeWatchedFor _ => Bool
  | .elapsed _ => Bool
  | .sleep _ => Bool
  | .replaceChannel => Unit
  | .awaitClosed => Unit
  | .tell _ _ => Bool
  | .spawn => ActorId
  | .add _ => Bool
  | .insertWatched _ => Unit
  | .sendSelf _ => Unit
  | .removeWatched _ => Bool
  | .remove _ => Unit
  | .other => ℕ
  | .drain => List (Incoming M)
  | .dropReceiver => Bool
  | .takeWatched => List ActorId
  | .takeWatchers => List ActorId
  | .sendTerminated _ => Bool
  | .finish => Unit

/-- The programs of tasks, in small steps. -/
abbrev Task (M : Type) (α : Type) := Prog (Op M) Op.Ans α

variable {M Base : Type} {BaseAns : Base → Type}

/-- Take a step and wait for the answer. -/
def ask (op : Op M) : Task M op.Ans := Prog.op op

/-- What user code does, in small steps. -/
def ofUser : (op : UserOp M) → Task M op.Ans
  | .tell b m => ask (.tell b m)
  | .spawn => ask .spawn
  | .watch x => do
      let ok ← ask (.add x)
      ask (.insertWatched x)
      if !ok then
        ask (.sendSelf x)
  | .unwatch x => do
      if ← ask (.removeWatched x) then
        ask (.remove x)
  | .other => ask .other

/-- A program of user code. -/
def user {α : Type} (p : UserTask M α) : Task M α := p.translate ofUser

/-- Leave the registries one by one. -/
def removeEach : List ActorId → Task M Unit
  | [] => return ()
  | x :: xs => do
      ask (.remove x)
      removeEach xs

variable (u : UserCode M BaseAns)

/-- The calls of a body and of `terminate`, in small steps.  No destructor panics which is run
outside of every catch: such a panic ends the task without `terminate` (see `Dropping`). -/
def ofOwn : (op : Dropping.Op M Base) → Task M (op.Ans BaseAns)
  | .base op => user (u.call op)
  | .contained value => user (u.drop value)
  | .bare value => do
      let _ ← user (u.drop value)
      return false
  | .drain => ask .drain
  | .dropReceiver => ask .dropReceiver
  | .unwatchAll => do
      removeEach (← ask .takeWatched)
      return false
  | .dropContext => do
      let _ ← user (u.drop .leftBehind)
      return false
  | .takeWatchers => ask .takeWatchers
  | .sendTerminated watcher => ask (.sendTerminated watcher)
  | .dropSink _ => return false

/-- The calls of the run loop, in small steps. -/
def ofLoop : (op : Loop.Op M (Dropping.Op M Base)) → Task M (op.Ans (Dropping.Op.Ans BaseAns))
  | .pollStopped => ask .pollStopped
  | .hasChanged => ask .hasChanged
  | .recv => ask .recv
  | .takeWatchedFor x => ask (.takeWatchedFor x)
  | .elapsed resetAfter => ask (.elapsed resetAfter)
  | .stopChildren => do
      ask .replaceChannel
      ask .awaitClosed
  | .sleep delay => ask (.sleep delay)
  | .own op => ofOwn u op

/-! ### What the steps do -/

/-- The steps of the task of actor `a`. -/
inductive Exec (rootId a : ActorId) (h : Hub M) : (op : Op M) → op.Ans → Hub M → Prop
  | begin (hborn : h.born a = true) : Exec rootId a h .begin () h
  | pollStopped {x : Bool} (hx : x = true ↔ h.Stops a) : Exec rootId a h .pollStopped x h
  | hasChanged {x : Option Bool} (hx : x.getD true = true ↔ h.Stops a) :
      Exec rootId a h .hasChanged x h
  | pending (hq : h.queue a = []) : Exec rootId a h .recv none h
  | recv {item : Item M} {rest : List (Item M)} (hq : h.queue a = item :: rest) :
      Exec rootId a h .recv (some item.incoming)
        { h with queue := Function.update h.queue a rest }
  | takeWatchedFor (x : ActorId) :
      Exec rootId a h (.takeWatchedFor x) (decide (x ∈ h.watched a))
        (h.setWatched a ((h.watched a).erase x))
  | elapsed (resetAfter : ℕ) (x : Bool) : Exec rootId a h (.elapsed resetAfter) x h
  | sleep (delay : ℕ) (x : Bool) : Exec rootId a h (.sleep delay) x h
  | replaceChannel : Exec rootId a h .replaceChannel ()
      { h with generation := Function.update h.generation a (h.generation a + 1) }
  | awaitClosed (hdone : h.ChildrenDone a) : Exec rootId a h .awaitClosed () h
  | tell {b : ActorId} {m : M} (hb : h.connected b = true) :
      Exec rootId a h (.tell b m) true (h.push b (.message (some a) m))
  /-- The mailbox is full, or the actor has terminated. -/
  | refused (b : ActorId) (m : M) : Exec rootId a h (.tell b m) false h
  | spawn {c : ActorId} (hc : h.born c = false) :
      Exec rootId a h .spawn c
        { h.spawn c with parent := Function.update h.parent c (some (a, h.generation a)) }
  | add {x : ActorId} {ws : Finset Watcher} (hx : h.born x = true)
      (hr : h.registry x = some ws) :
      Exec rootId a h (.add x) true (h.setRegistry x (some (insert (.actor a) ws)))
  | addClosed {x : ActorId} (hx : h.born x = true) (hr : h.registry x = none) :
      Exec rootId a h (.add x) false h
  | insertWatched (x : ActorId) :
      Exec rootId a h (.insertWatched x) () (h.setWatched a (insert x (h.watched a)))
  | sendSelf (x : ActorId) : Exec rootId a h (.sendSelf x) () (h.push a (.terminated x))
  | removeWatched (x : ActorId) :
      Exec rootId a h (.removeWatched x) (decide (x ∈ h.watched a))
        (h.setWatched a ((h.watched a).erase x))
  | remove (x : ActorId) :
      Exec rootId a h (.remove x) ()
        (h.setRegistry x ((h.registry x).map fun ws => ws.erase (.actor a)))
  | other (n : ℕ) : Exec rootId a h .other n h
  | drain : Exec rootId a h .drain ((h.queue a).map Item.incoming)
      { h with queue := Function.update h.queue a [] }
  | dropReceiver (x : Bool) : Exec rootId a h .dropReceiver x
      { h with connected := Function.update h.connected a false }
  /-- The map is iterated in any order. -/
  | takeWatched {xs : List ActorId} (hxs : xs.Nodup) (hwatched : xs.toFinset = h.watched a) :
      Exec rootId a h .takeWatched xs (h.setWatched a ∅)
  | takeWatchers {ws : List ActorId} (hws : (ws.map (Watcher.ofId rootId)).Nodup)
      (hr : (ws.map (Watcher.ofId rootId)).toFinset = (h.registry a).getD ∅) :
      Exec rootId a h .takeWatchers ws (h.setRegistry a none)
  | sendTerminated {b : ActorId} (hb : b ≠ rootId) (hconn : h.connected b = true) :
      Exec rootId a h (.sendTerminated b) true (h.push b (.terminated a))
  | notSent {b : ActorId} (hb : b ≠ rootId) (hconn : h.connected b = false) :
      Exec rootId a h (.sendTerminated b) false h
  | resolve (hsink : h.sink a = .armed) :
      Exec rootId a h (.sendTerminated rootId) true (h.setSink a .resolved)
  | notResolved (hsink : h.sink a ≠ .armed) : Exec rootId a h (.sendTerminated rootId) false h
  | finish : Exec rootId a h .finish () { h with done := Function.update h.done a true }

/-- What happens outside of any actor. -/
inductive Env (h : Hub M) : Hub M → Prop
  | spawnRoot {r : ActorId} (hr : h.born r = false) : Env h (h.spawn r)
  | watchRoot {r : ActorId} {ws : Finset Watcher} (hr : h.born r = true)
      (hroot : h.parent r = none) (hsink : h.sink r = .absent) (hreg : h.registry r = some ws) :
      Env h ((h.setRegistry r (some (insert .root ws))).setSink r .armed)
  | watchRootLate {r : ActorId} (hr : h.born r = true) (hroot : h.parent r = none)
      (hsink : h.sink r = .absent) (hreg : h.registry r = none) : Env h (h.setSink r .resolved)
  | stop {r : ActorId} (hr : h.born r = true) (hroot : h.parent r = none) :
      Env h { h with stopped := Function.update h.stopped r true }
  | tellOutside {b : ActorId} (m : M) (hb : h.connected b = true) :
      Env h (h.push b (.message none m))

end Hub

/-! ### Tasks -/

/-- What the task of an actor runs: a body with its calls, what it drops last, the strategy, and
the actor's user code. -/
structure Script (M : Type) where
  Base : Type
  BaseAns : Base → Type
  body : Loop.Body M (Dropping.Op.Ans (M := M) BaseAns)
  leave : Dropping.Drops M BaseAns Unit
  strategy : SupervisionStrategy
  user : UserCode M BaseAns

namespace Script

variable {M : Type}

/-- The places of a task, `none` being before it is spawned. -/
abbrev Place (S : Script M) := Option (Dropping.Point S.body)

/-- The block at each place of a task. -/
def code (S : Script M) : S.Place → Hub.Task M S.Place
  | none => do
      Hub.ask .begin
      return some (.loop (Loop.entry S.body))
  | some (.loop pt) => do
      return some (← (Dropping.code S.body S.leave S.strategy (.loop pt)).translate
        (Hub.ofLoop S.user))
  | some .terminated => do
      Hub.ask .finish
      return some .terminated

/-- The script of `spawn`. -/
def spawn {State Error : Type} (user : UserCode M (Actor.Op.Ans (A := ⟨M, State, Error⟩)))
    (strategy : SupervisionStrategy) : Script M where
  Base := Actor.Op ⟨M, State, Error⟩
  BaseAns := Actor.Op.Ans
  body := Dropping.spawn ⟨M, State, Error⟩
  leave := pure ()
  strategy
  user

end Script

section Running

variable {M : Type} (script : ActorId → Script M)

/-- The places of all tasks. -/
abbrev Places := (a : ActorId) × (script a).Place

/-- The code of all tasks. -/
def tasksCode : ActorId → Places script → Hub.Task M (Places script) := fun _ pt => do
  return ⟨pt.1, ← (script pt.1).code pt.2⟩

/-- No task has been spawned. -/
def Running.init : Tasks ActorId (Hub.Op M) Hub.Op.Ans (Hub M) (Places script) :=
  ⟨Hub.init, fun a => .ret ⟨a, none⟩⟩

/-- The states the tasks can get into. -/
abbrev Running (rootId : ActorId)
    (st : Tasks ActorId (Hub.Op M) Hub.Op.Ans (Hub M) (Places script)) : Prop :=
  Tasks.Reaches (tasksCode script) (Hub.Exec rootId) Hub.Env (Running.init script) st

end Running

end Tellus
