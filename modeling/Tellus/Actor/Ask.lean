import Mathlib.Tactic
import Tellus.Actor.Quota
import Tellus.Lib.Duration
import Tellus.Lib.Traces

/-!
Requests and their replies (`ask.rs`, `ActorRef::ask` in `actor_ref.rs`).

An asker makes a oneshot channel, wraps its sender into a `ReplyTo`, has the message built around
it, sends the message within the capacity of the mailbox, and polls the receiver until the time is
up.  A `ReplyTo` is consumed by the reply, so of each there is one, and it is somewhere: in a
message, in the hands of user code, or gone.  What user code does with those it has is left open.

Of a message nothing matters but the `ReplyTo`s in it.  The mailbox belongs to one actor, which
receives until it terminates; the mailbox lives on as long as somebody has a reference to the
actor, and every asker has one.

* `ask`, `awaitReply`: the code of an asker, up to where it is suspended and from there on.
* `World`: the mailbox, the oneshot channels, and where every `ReplyTo` is.
* `Exec`: what an operation of a party does.
* `Env`: what user code does with the `ReplyTo`s it has, and the other senders.
-/

namespace Tellus.Ask

open Concurrent

/-! ### The code -/

/-- Why a message was not sent. -/
inductive SendError where
  | mailboxFull
  | actorTerminated
  deriving DecidableEq

/-- The error of a mailbox, from that of its channel. -/
def SendError.ofCounted : Quota.CountedSendError → SendError
  | .full => .mailboxFull
  | .disconnected => .actorTerminated

/-- The possible failures of an ask. -/
inductive AskError where
  | mailboxFull
  | actorTerminated
  | noReply
  | timeout (within : Machine.Duration)
  deriving DecidableEq

/-- The error of an ask whose request was not sent. -/
def AskError.ofSend : SendError → AskError
  | .mailboxFull => .mailboxFull
  | .actorTerminated => .actorTerminated

/-- The sender of a oneshot channel was dropped. -/
inductive RecvError where
  | closed
  deriving DecidableEq

/-- A message: the `ReplyTo`s in it, each named by its ask. -/
abbrev Message (ι : Type) := List ι

/-- The atomic operations.  `pollTimer` and `cancelled` are answered by the surroundings: whether
the time is up, and whether the future of the ask has been dropped. -/
inductive Op (ι : Type) where
  /-- Make the oneshot channel and build the message. -/
  | makeMessage
  /-- An operation on the mailbox. -/
  | mailbox (op : Quota.Op (Message ι))
  /-- Drop a message which was not sent. -/
  | dropMessage (m : Message ι)
  | pollReply
  | pollTimer
  | cancelled
  /-- Drop the receiver of the oneshot channel. -/
  | dropReply
  /-- Drop the first of the drained messages, if there is one. -/
  | dropDrained

/-- How an operation is answered: `pollReply` by nothing as long as there is neither a reply nor
an error, `dropDrained` by whether there was a message. -/
abbrev Op.Ans {ι : Type} (R : Type) : Op ι → Type
  | .makeMessage => Message ι
  | .mailbox op => op.Ans
  | .dropMessage _ => Unit
  | .pollReply => Option (Except RecvError R)
  | .pollTimer => Bool
  | .cancelled => Bool
  | .dropReply => Unit
  | .dropDrained => Bool

variable {ι R : Type}

/-- A program of a party. -/
abbrev Task (ι R α : Type) := Prog (Op ι) (Op.Ans R) α

/-- Do one operation. -/
def call (op : Op ι) : Task ι R (op.Ans R) := Prog.op op

/-- What `try_send_counted` does to the mailbox, with the message it has been given: it is dropped
by a send which fails, and where there is no capacity it is dropped at the end. -/
def deliver (m : Message ι) : (op : Quota.Op (Message ι)) → Task ι R op.Ans
  | .send item => do
      match ← call (.mailbox (.send item)) with
      | true => return true
      | false =>
          call (.dropMessage m)
          return false
  | .isDisconnected => do
      let gone ← call (.mailbox .isDisconnected)
      call (.dropMessage m)
      return gone
  | op => call (.mailbox op)

/-- Send a message to the actor. -/
def trySendMessage (m : Message ι) : Task ι R (Except SendError Unit) := do
  match ← (Quota.trySendCounted (.message m)).translate (deliver m) with
  | .ok () => return .ok ()
  | .error e => return .error (.ofCounted e)

/-- The places of a party. -/
inductive Point (R : Type) where
  /-- An asker before its call. -/
  | start
  /-- An asker suspended in `timeout(within, reply_rx)`. -/
  | awaiting
  | returned (result : Except AskError R)
  /-- The future has been dropped where it was suspended. -/
  | cancelled
  /-- The actor between two calls of `recv`. -/
  | running
  /-- The actor in `terminate`, the receiver of the mailbox being dropped. -/
  | dropping
  | terminated

/-- Return from an ask, dropping the receiver of the oneshot channel. -/
def finish (result : Except AskError R) : Task ι R (Point R) := do
  call .dropReply
  return .returned result

/-- Poll `timeout(within, reply_rx)`, which looks for the reply first. -/
def pollReply (within : Machine.Duration) : Task ι R (Point R) := do
  match ← call .pollReply with
  | some (.ok reply) => finish (.ok reply)
  | some (.error _) => finish (.error .noReply)
  | none =>
      match ← call .pollTimer with
      | true => finish (.error (.timeout within))
      | false => return .awaiting

/-- Ask, up to where the future is suspended for the first time. -/
def ask (within : Machine.Duration) : Task ι R (Point R) := do
  let m ← call .makeMessage
  match ← trySendMessage m with
  | .error e => finish (.error (.ofSend e))
  | .ok () => pollReply within

/-- The suspended future is dropped, or polled again. -/
def awaitReply (within : Machine.Duration) : Task ι R (Point R) := do
  match ← call .cancelled with
  | true =>
      call .dropReply
      return .cancelled
  | false => pollReply within

/-- The askers, and the task of the actor. -/
inductive Party (ι : Type) where
  | asker (i : ι)
  | actor
  deriving DecidableEq

/-- What a party does at each of its places, `within` being how long each ask waits. -/
def code (within : ι → Machine.Duration) : Party ι → Point R → Task ι R (Point R)
  | .asker i, .start => ask (within i)
  | .asker i, .awaiting => awaitReply (within i)
  | .actor, .running => do
      match ← call (.mailbox .goesOn) with
      | true =>
          let _ ← Quota.recv.translate fun op => call (.mailbox op)
          return .running
      | false =>
          Quota.terminate.translate fun op => call (.mailbox op)
          return .dropping
  | .actor, .dropping => do
      match ← call .dropDrained with
      | true => return .dropping
      | false => return .terminated
  | _, point => return point

/-! ### The state -/

/-- A oneshot channel for a reply, by what its sender has done. -/
inductive Slot (R : Type) where
  | unmade
  /-- There is a `ReplyTo`. -/
  | open
  | sent (reply : R)
  /-- The reply has been received. -/
  | taken (reply : R)
  /-- The reply came after the receiver had been dropped. -/
  | refused
  /-- The `ReplyTo` was dropped without a reply. -/
  | dropped

/-- There is a `ReplyTo`. -/
def Slot.isOpen : Slot R → Bool
  | .open => true
  | _ => false

/-- A reply has been sent, whatever has become of it. -/
def Slot.replied : Slot R → Bool
  | .sent _ => true
  | .taken _ => true
  | .refused => true
  | _ => false

/-- A reply has been sent too late. -/
def Slot.isRefused : Slot R → Bool
  | .refused => true
  | _ => false

/-- The `ReplyTo`s in an item of the mailbox. -/
def replyTos : Incoming (Message ι) → List ι
  | .message m => m
  | .terminated _ => []

/-- The state the parties share. -/
structure World (ι R : Type) where
  mailbox : Quota.Channel (Message ι)
  /-- What the actor has drained and not dropped yet. -/
  drained : List (Incoming (Message ι))
  slot : ι → Slot R
  /-- Whose receiver has not been dropped. -/
  waiting : ι → Bool
  /-- The `ReplyTo`s user code has: that of the actor, whose callbacks are handed the messages,
  and any other it passes them on to. -/
  held : List ι
  /-- The messages of the askers which are sending them. -/
  sending : List (ι × Message ι)
  /-- Whose request has entered the mailbox. -/
  enqueued : ι → Bool
  /-- The replies sent so far, and those of them which were logged as dead letters. -/
  replies : List (ι × R)
  deadLetters : List ι
  /-- The replies which had been sent when an asker last looked for its own. -/
  polled : ι → List (ι × R)

namespace World

variable (w : World ι R)

/-- Nobody has asked. -/
def init : World ι R where
  mailbox := ⟨0, [], true⟩
  drained := []
  slot := fun _ => .unmade
  waiting := fun _ => false
  held := []
  sending := []
  enqueued := fun _ => false
  replies := []
  deadLetters := []
  polled := fun _ => []

/-- Every `ReplyTo` there is. -/
def tokens : List ι :=
  w.held ++ w.sending.flatMap Prod.snd ++ w.mailbox.queue.flatMap replyTos ++
    w.drained.flatMap replyTos

variable [DecidableEq ι]

/-- A slot is left as given. -/
def setSlot (i : ι) (slot : Slot R) : World ι R :=
  { w with slot := Function.update w.slot i slot }

/-- The `ReplyTo`s `kept` come into the hands of user code, those in `gone` are dropped. -/
def release (kept gone : List ι) : World ι R :=
  { w with
    held := kept ++ w.held
    slot := fun j => if j ∈ gone then .dropped else w.slot j }

/-- `ReplyTo::reply`. -/
def reply (i : ι) (r : R) : World ι R :=
  if w.waiting i then
    { w with
      held := w.held.erase i
      slot := Function.update w.slot i (.sent r)
      replies := (i, r) :: w.replies }
  else
    { w with
      held := w.held.erase i
      slot := Function.update w.slot i .refused
      replies := (i, r) :: w.replies
      deadLetters := i :: w.deadLetters }

end World

/-! ### Operations -/

variable [DecidableEq ι]

/-- What an operation on the mailbox does to the rest of the state: an asker whose message is sent
no longer has it, what the actor receives is handed to user code, what it drains it keeps. -/
def World.after (w : World ι R) (party : Party ι) (mailbox : Quota.Channel (Message ι)) :
    (op : Quota.Op (Message ι)) → op.Ans → World ι R
  | .send (.message m), true =>
      match party with
      | .asker i =>
          { w with
            mailbox
            sending := w.sending.erase (i, m)
            enqueued := Function.update w.enqueued i true }
      | .actor => { w with mailbox }
  | .recv, some item => { w with mailbox, held := replyTos item ++ w.held }
  | .drain, _ => { w with mailbox, drained := w.drained ++ w.mailbox.queue }
  | _, _ => { w with mailbox }

/-- The operations of a party.  The destructor of a message is user code, so it may put some of
the `ReplyTo`s away or reply to them; the others are dropped. -/
inductive Exec (capacity : Quota.Capacity) (w : World ι R) :
    Party ι → (op : Op ι) → op.Ans R → World ι R → Prop
  /-- The function which builds the message may put the new `ReplyTo` elsewhere, and may put
  others into the message. -/
  | makeMessage {i : ι} {m : Message ι} {held : List ι} (h : (m ++ held).Perm (i :: w.held)) :
      Exec capacity w (.asker i) .makeMessage m
        { w with
          held
          slot := Function.update w.slot i .open
          waiting := Function.update w.waiting i true
          sending := (i, m) :: w.sending }
  | mailbox {party : Party ι} {op : Quota.Op (Message ι)} {x : op.Ans}
      {mailbox : Quota.Channel (Message ι)} (h : Quota.Atomic capacity w.mailbox op x mailbox) :
      Exec capacity w party (.mailbox op) x (w.after party mailbox op x)
  | dropMessage {i : ι} {m : Message ι} (kept gone : List ι) (h : m.Perm (kept ++ gone)) :
      Exec capacity w (.asker i) (.dropMessage m) ()
        { w.release kept gone with sending := w.sending.erase (i, m) }
  | pending {i : ι} (h : w.slot i = .open) :
      Exec capacity w (.asker i) .pollReply none
        { w with polled := Function.update w.polled i w.replies }
  | replied {i : ι} {r : R} (h : w.slot i = .sent r) :
      Exec capacity w (.asker i) .pollReply (some (.ok r)) (w.setSlot i (.taken r))
  | closed {i : ι} (h : w.slot i = .dropped) :
      Exec capacity w (.asker i) .pollReply (some (.error .closed)) w
  | pollTimer {i : ι} (elapsed : Bool) : Exec capacity w (.asker i) .pollTimer elapsed w
  | cancelled {i : ι} (b : Bool) : Exec capacity w (.asker i) .cancelled b w
  | dropReply {i : ι} :
      Exec capacity w (.asker i) .dropReply ()
        { w with waiting := Function.update w.waiting i false }
  | dropDrained {item : Incoming (Message ι)} {rest : List (Incoming (Message ι))}
      (hdrained : w.drained = item :: rest) (kept gone : List ι)
      (h : (replyTos item).Perm (kept ++ gone)) :
      Exec capacity w .actor .dropDrained true { w.release kept gone with drained := rest }
  | allDropped (h : w.drained = []) : Exec capacity w .actor .dropDrained false w

/-- What happens besides: user code replies to a `ReplyTo` it has, drops it or sends it to the
actor, and other senders reserve, give back and enqueue signals.  For an unbounded mailbox the
count never stands in the way. -/
inductive Env (w : World ι R) : World ι R → Prop
  | reply {i : ι} (r : R) (h : i ∈ w.held) : Env w (w.reply i r)
  | drop {i : ι} (h : i ∈ w.held) :
      Env w { w.setSlot i .dropped with held := w.held.erase i }
  | tell {m : Message ι} {held : List ι} (hconnected : w.mailbox.connected = true)
      (h : (m ++ held).Perm w.held) :
      Env w
        { w with
          held
          mailbox := { w.mailbox with queue := w.mailbox.queue ++ [.message m] } }
  | signal (id : ActorId) (hconnected : w.mailbox.connected = true) :
      Env w
        { w with
          mailbox := { w.mailbox with queue := w.mailbox.queue ++ [.terminated id] } }
  | count (n : ℕ) : Env w { w with mailbox := { w.mailbox with count := n } }

/-- Every asker is before its call, and the actor is running. -/
def start : Tasks (Party ι) (Op ι) (Op.Ans R) (World ι R) (Point R) where
  shared := World.init
  task := fun party =>
    match party with
    | .asker _ => .ret .start
    | .actor => .ret .running

/-- The states the parties get into, whatever user code does with the `ReplyTo`s and however the
operations interleave. -/
abbrev Reachable (capacity : Quota.Capacity) (within : ι → Machine.Duration) :
    Tasks (Party ι) (Op ι) (Op.Ans R) (World ι R) (Point R) → Prop :=
  Tasks.Reaches (code within) (fun party w op x w' => Exec capacity w party op x w') Env start

end Tellus.Ask
