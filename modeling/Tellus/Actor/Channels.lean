import Mathlib.Tactic
import Tellus.Actor.Tree

/-!
The stop channels of a system of actors (`actor_context.rs`, `actor_system.rs`), which are Tokio
watch channels.

In `Sys` an actor is stopped once its parent has replaced its stop channel, and `stop_children`
ends once the children of the replaced one have finished.  Here are the channels themselves: a
channel has a version, which every send raises, and it has ends, which are held by contexts, tasks
and actor systems and are dropped with them.  `changed` is ready once the version is another one
than the receiver has seen or no sender is left, `closed` once no receiver is left.

* `Channels`: the channels, and who holds which of their ends.
* `Wired.Ready`, `Wired.Received`: what a receiver and a sender find.
* `Wired.Step`: the steps of `Sys`, those which have to do with a stop channel by way of it.
-/

namespace Tellus

open Concurrent

/-! ### Channels -/

/-- A watch channel, named after who has made it: the owner of an actor system for its root, or
the context of an actor, one after the other for its children. -/
inductive Channel where
  | root (r : ActorId)
  | children (a : ActorId) (n : ℕ)
  deriving DecidableEq

/-- A receiver, with the version it has seen. -/
structure Receiver where
  channel : Channel
  seen : ℕ

/-- The watch channels, and who holds which of their ends. -/
structure Channels where
  version : Channel → ℕ
  /-- `stopping_tx` and `stopping_rx` of an actor's context. -/
  context : ActorId → Option (Channel × Receiver)
  /-- How many channels an actor's context has made. -/
  made : ActorId → ℕ
  /-- The sender `stop_children` has taken out of the context and waits on. -/
  taken : ActorId → Option Channel
  /-- `parent_stopping_rx` of an actor's task, and the clone whose `changed` is its
  `stopped_by_parent`. -/
  task : ActorId → Option (Receiver × Receiver)
  /-- `stopping_tx` of an `ActorSystem`. -/
  system : ActorId → Option Channel

namespace Channels

/-- No channel has been made. -/
def init : Channels where
  version := fun _ => 0
  context := fun _ => none
  made := fun _ => 0
  taken := fun _ => none
  task := fun _ => none
  system := fun _ => none

variable (c : Channels)

/-- `Sender::send` with a receiver left, and `Sender::send_replace`. -/
@[simps] def send (ch : Channel) : Channels :=
  { c with version := Function.update c.version ch (c.version ch + 1) }

/-- The next channel of a context. -/
def fresh (a : ActorId) : Channel := .children a (c.made a)

/-- A context gets a new channel: `ActorContext::new`, and the new channel of `stop_children`. -/
@[simps context made taken task system] def renew (a : ActorId) : Channels :=
  { c with
    version := Function.update c.version (c.fresh a) 0
    context := Function.update c.context a (some (c.fresh a, ⟨c.fresh a, 0⟩))
    made := Function.update c.made a (c.made a + 1) }

@[simp] lemma renew_children (a b : ActorId) (g : ℕ) : (c.renew a).version (.children b g) =
    if b = a ∧ g = c.made a then 0 else c.version (.children b g) := by
  simp [renew, fresh, Function.update_apply]

@[simp] lemma renew_root (a b : ActorId) :
    (c.renew a).version (.root b) = c.version (.root b) := by
  simp [renew, fresh]

/-- A task starts with a receiver, and clones it. -/
@[simps] def start (a : ActorId) (rx : Receiver) : Channels :=
  { c with task := Function.update c.task a (some (rx, rx)) }

/-- `spawn_root` makes the channel of an actor system. -/
@[simps] def own (r : ActorId) : Channels :=
  { c with
    version := Function.update c.version (.root r) 0
    system := Function.update c.system r (some (.root r)) }

/-- `ActorSystem` is dropped. -/
@[simps] def disown (r : ActorId) : Channels :=
  { c with system := Function.update c.system r none }

/-- `stop_children` takes the sender out of the context. -/
@[simps] def take (a : ActorId) (ch : Channel) : Channels :=
  { c with taken := Function.update c.taken a (some ch) }

/-- `stop_children` has ended and drops the sender. -/
@[simps] def untake (a : ActorId) : Channels :=
  { c with taken := Function.update c.taken a none }

/-- `terminate` drops the context. -/
@[simps] def dropContext (a : ActorId) : Channels :=
  { c with context := Function.update c.context a none }

/-- The task ends and drops its receivers. -/
@[simps] def finish (a : ActorId) : Channels :=
  { c with task := Function.update c.task a none }

/-- `changed` has been ready: the clone has seen the version. -/
@[simps] def observe (a : ActorId) (rx clone : Receiver) : Channels :=
  { c with
    task := Function.update c.task a (some (rx, { clone with seen := c.version clone.channel })) }

end Channels

/-! ### Actors and their channels -/

/-- A system of actors with their stop channels. -/
structure Wired (M : Type) where
  sys : Sys M
  channels : Channels

namespace Wired

variable {M : Type}

/-- No actor has been spawned. -/
def init : Wired M := ⟨Sys.init, Channels.init⟩

variable (w : Wired M)

/-- A receiver of the channel is left. -/
def Received (ch : Channel) : Prop :=
  (∃ a tx rx, w.channels.context a = some (tx, rx) ∧ rx.channel = ch) ∨
    ∃ a rx clone, w.channels.task a = some (rx, clone) ∧ (rx.channel = ch ∨ clone.channel = ch)

/-- A sender of the channel is left.  That of a root is also held by the `RootTerminatedSink`, as
long as this is in the root's registry or among the watchers taken out of it. -/
def Held (ch : Channel) : Prop :=
  (∃ a rx, w.channels.context a = some (ch, rx)) ∨ (∃ a, w.channels.taken a = some ch) ∨
    (∃ r, w.channels.system r = some ch) ∨ ∃ r, ch = .root r ∧ Armed w.sys r

/-- `changed` is ready, and `has_changed().unwrap_or(true)` is true. -/
def Ready (rx : Receiver) : Prop :=
  w.channels.version rx.channel ≠ rx.seen ∨ ¬w.Held rx.channel

end Wired

/-! ### Steps -/

/-- The steps which may have to do with a stop channel, whatever the phases. -/
def Label.wired {M : Type} : Label M → Bool
  | .spawnRoot _ => true
  | .system _ => true
  | .spawn _ _ => true
  | .restart _ => true
  | _ => false

/-- Whether a task which goes from one phase to another one has to do with a stop channel. -/
def Phase.wired {M : Type} : Phase M → Phase M → Bool
  | .recovering, .dropping _ => true
  | .idle, _ => true
  | .failed, .restarting => true
  | .restarting, _ => true
  | .backoff, _ => true
  | .terminating .stopChildren, _ => true
  | .terminating .awaitChildren, _ => true
  | .terminating (.signal _), .finished => true
  | _, _ => false

section Steps

variable {M : Type} (kind : ActorId → Kind)

/-- The first half of `stop_children`, up to where it waits: the context gets a new channel, and
the old one is sent on, which fails if no receiver is left. -/
inductive Wired.Replaces (w : Wired M) (a : ActorId) : Channels → Prop
  | sent {tx : Channel} {rx : Receiver} (h : w.channels.context a = some (tx, rx))
      (hrx : w.Received tx) : Replaces w a (((w.channels.take a tx).send tx).renew a)
  | unsent {tx : Channel} {rx : Receiver} (h : w.channels.context a = some (tx, rx))
      (hrx : ¬w.Received tx) : Replaces w a ((w.channels.take a tx).renew a)

/-- The steps of a system of actors with its stop channels; dropping an actor system has no
label. -/
inductive Wired.Step (w : Wired M) : Option (Label M) → Wired M → Prop
  | spawnRoot {r : ActorId} (h : w.sys.phase r = .unborn) :
      Step w (some (.spawnRoot r))
        ⟨w.sys.goto r (.start (kind r)), ((w.channels.own r).start r ⟨.root r, 0⟩).renew r⟩
  | watchRoot {r : ActorId} {ws : Finset Watcher} (hborn : w.sys.phase r ≠ .unborn)
      (hroot : w.sys.parent r = none) (hsink : w.sys.sink r = .absent)
      (h : w.sys.registry r = some ws) :
      Step w (some (.system r))
        ⟨(w.sys.setRegistry r (some (insert .root ws))).setSink r .armed, w.channels⟩
  /-- `ActorSystem::stop`. -/
  | stop {r : ActorId} {ch : Channel} (h : w.channels.system r = some ch) :
      Step w (some (.system r)) ⟨w.sys.setStopped r, w.channels.send ch⟩
  /-- `ActorSystem` is dropped, once it has been created. -/
  | dropSystem {r : ActorId} (h : w.sys.sink r ≠ .absent) :
      Step w none ⟨w.sys, w.channels.disown r⟩
  | spawn {a c : ActorId} {cb : Callback} {tx : Channel} {rx : Receiver}
      (ha : w.sys.phase a = .calling cb .none) (hc : w.sys.phase c = .unborn)
      (h : w.channels.context a = some (tx, rx)) :
      Step w (some (.spawn a c))
        ⟨(w.sys.setParent c (a, w.sys.generation a)).goto c (.start (kind c)),
          (w.channels.start c rx).renew c⟩
  | recoverStopped {a : ActorId} {rx clone : Receiver} (ha : w.sys.phase a = .recovering)
      (hrx : w.channels.task a = some (rx, clone)) (h : w.Ready clone) :
      Step w (some (.internal a)) ⟨w.sys.goto a (.dropping false), w.channels.observe a rx clone⟩
  /-- `next_incoming!` polls the stop first. -/
  | polled {a : ActorId} {rx clone : Receiver} (ha : w.sys.phase a = .idle)
      (hrx : w.channels.task a = some (rx, clone)) (h : ¬w.Ready clone) :
      Step w (some (.internal a)) ⟨w.sys.goto a .receiving, w.channels⟩
  | stopped {a : ActorId} {rx clone : Receiver} (ha : w.sys.phase a = .idle)
      (hrx : w.channels.task a = some (rx, clone)) (h : w.Ready clone) :
      Step w (some (.internal a)) ⟨w.sys.goto a (.dropping false), w.channels.observe a rx clone⟩
  /-- `await_restart` goes on, and `stop_children` begins.  A stop may come after it has looked at
  its receiver. -/
  | restart {a : ActorId} {c : Channels} (ha : w.sys.phase a = .failed) (hc : w.Replaces a c) :
      Step w (some (.internal a)) ⟨(w.sys.replaceChannel a).goto a .restarting, c⟩
  /-- `stop_children` ends before a restart: `closed` is ready. -/
  | childrenStopped {a : ActorId} {ch : Channel} (ha : w.sys.phase a = .restarting)
      (hch : w.channels.taken a = some ch) (h : ¬w.Received ch) :
      Step w (some (.internal a)) ⟨w.sys.goto a .backoff, w.channels.untake a⟩
  /-- `await_backoff` with a delay. -/
  | backoffStopped {a : ActorId} {rx clone : Receiver} (ha : w.sys.phase a = .backoff)
      (hrx : w.channels.task a = some (rx, clone)) (h : w.Ready clone) :
      Step w (some (.internal a))
        ⟨w.sys.goto a (.terminating .drain), w.channels.observe a rx clone⟩
  | restarted {a : ActorId} {rx clone : Receiver} (ha : w.sys.phase a = .backoff)
      (hrx : w.channels.task a = some (rx, clone)) (h : ¬w.Ready clone) :
      Step w (some (.restart a)) ⟨w.sys.goto a (.start (kind a)), w.channels⟩
  /-- `await_backoff` without a delay, which looks at the other receiver. -/
  | probedStopped {a : ActorId} {rx clone : Receiver} (ha : w.sys.phase a = .backoff)
      (hrx : w.channels.task a = some (rx, clone)) (h : w.Ready rx) :
      Step w (some (.internal a)) ⟨w.sys.goto a (.terminating .drain), w.channels⟩
  | restartedAtOnce {a : ActorId} {rx clone : Receiver} (ha : w.sys.phase a = .backoff)
      (hrx : w.channels.task a = some (rx, clone)) (h : ¬w.Ready rx) :
      Step w (some (.restart a)) ⟨w.sys.goto a (.start (kind a)), w.channels⟩
  /-- `stop_children` begins inside of `terminate`. -/
  | stopChildren {a : ActorId} {c : Channels} (ha : w.sys.phase a = .terminating .stopChildren)
      (hc : w.Replaces a c) :
      Step w (some (.internal a))
        ⟨(w.sys.replaceChannel a).goto a (.terminating .awaitChildren), c⟩
  /-- `stop_children` ends inside of `terminate`, which drops the context. -/
  | childrenTerminated {a : ActorId} {ch : Channel}
      (ha : w.sys.phase a = .terminating .awaitChildren) (hch : w.channels.taken a = some ch)
      (h : ¬w.Received ch) :
      Step w (some (.internal a))
        ⟨w.sys.goto a (.terminating .dropActor), (w.channels.untake a).dropContext a⟩
  /-- The task ends. -/
  | finished {a : ActorId} (ha : w.sys.phase a = .terminating (.signal ∅)) :
      Step w (some (.internal a)) ⟨w.sys.goto a .finished, w.channels.finish a⟩
  /-- A step which has nothing to do with stop channels. -/
  | other {l : Label M} {s : Sys M} (h : Tellus.Step kind w.sys l s) (hl : l.wired = false)
      (hphase : ∀ a, s.phase a ≠ w.sys.phase a → (w.sys.phase a).wired (s.phase a) = false) :
      Step w (some l) ⟨s, w.channels⟩

/-- The runs from before the first actor is spawned. -/
abbrev Wired.Runs (tr : List (Option (Label M))) (w : Wired M) : Prop :=
  Run (Wired.Step kind) Wired.init tr w

end Steps

end Tellus
