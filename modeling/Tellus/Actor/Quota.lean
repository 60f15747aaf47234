import Mathlib.Tactic
import Tellus.Actor.Incoming
import Tellus.Lib.Tasks

/-!
A mailbox's quota and channel (`quota.rs`, `mailbox.rs`), used by any number of senders at once.

Messages reserve capacity before they are enqueued and give it back when they are dequeued,
terminated signals ride the same channel and reserve nothing.  Reserving, enqueueing, dequeueing
and giving back are atomic each, and the steps of other parties may come in between.

* `trySendCounted`, `trySendForced`, `trySendUncounted`: the three kinds of sends.
* `recv`, `terminate`: what the one receiver does.
* `Atomic`: the quota's counter and the channel.
* `Books`: what the parties have done, read off their operations: who holds a reservation, what
  the receiver has taken out, and what each sender's latest call has changed.
-/

namespace Tellus.Quota

open Concurrent

/-! ### The code -/

/-- Why a send failed.  Forced and uncounted sends fail as disconnected only. -/
inductive CountedSendError where
  | full
  | disconnected
  deriving DecidableEq

/-- What is sent: a message within the capacity, a message past it, or a terminated signal. -/
inductive Send (M : Type) where
  | counted (m : M)
  | forced (m : M)
  | uncounted (id : ActorId)

/-- The atomic operations.  `nextSend` and `goesOn` are the decisions of the parties themselves:
what a sender sends next, and whether the receiver goes on or terminates. -/
inductive Op (M : Type) where
  | nextSend
  | goesOn
  | reserve
  | reserveForced
  | unreserve
  | send (item : Incoming M)
  | isDisconnected
  | recv
  | drain
  | dropReceiver

/-- How an operation is answered: `reserve` whether there was capacity left, `send` whether the
receiver is still there. -/
abbrev Op.Ans {M : Type} : Op M → Type
  | .nextSend => Send M
  | .goesOn => Bool
  | .reserve => Bool
  | .reserveForced => Unit
  | .unreserve => Unit
  | .send _ => Bool
  | .isDisconnected => Bool
  | .recv => Option (Incoming M)
  | .drain => Unit
  | .dropReceiver => Unit

variable {M : Type}

/-- A program of a party. -/
abbrev Task (M α : Type) := Prog (Op M) Op.Ans α

/-- Do one operation. -/
def ask (op : Op M) : Task M op.Ans := Prog.op op

/-- Enqueue an item a reservation has been taken for, and commit the reservation.  One which is
not committed is given back when it is dropped. -/
def sendReserved (item : Incoming M) : Task M (Except CountedSendError Unit) := do
  match ← ask (.send item) with
  | true => return .ok ()
  | false =>
      ask .unreserve
      return .error .disconnected

/-- Send an item within the capacity. -/
def trySendCounted (item : Incoming M) : Task M (Except CountedSendError Unit) := do
  match ← ask .reserve with
  | true => sendReserved item
  | false =>
      match ← ask .isDisconnected with
      | true => return .error .disconnected
      | false => return .error .full

/-- Send an item past the capacity, counting it all the same. -/
def trySendForced (item : Incoming M) : Task M (Except CountedSendError Unit) := do
  ask .reserveForced
  sendReserved item

/-- Send an item without counting it. -/
def trySendUncounted (item : Incoming M) : Task M (Except CountedSendError Unit) := do
  match ← ask (.send item) with
  | true => return .ok ()
  | false => return .error .disconnected

/-- The item which is sent. -/
def Send.item : Send M → Incoming M
  | .counted m => .message m
  | .forced m => .message m
  | .uncounted id => .terminated id

/-- Messages are counted or forced, terminated signals are not counted. -/
def Send.perform (s : Send M) : Task M (Except CountedSendError Unit) :=
  match s with
  | .counted _ => trySendCounted s.item
  | .forced _ => trySendForced s.item
  | .uncounted _ => trySendUncounted s.item

/-- Take an incoming out of the mailbox. -/
def recv : Task M (Option (Incoming M)) := do
  match ← ask .recv with
  | none => return none
  | some (.message m) =>
      ask .unreserve
      return some (.message m)
  | some (.terminated id) => return some (.terminated id)

/-- Move out what is queued and drop the receiver. -/
def terminate : Task M Unit := do
  ask .drain
  ask .dropReceiver

/-- The places of a party. -/
inductive Point (M : Type) where
  /-- A sender which has not sent anything yet. -/
  | idle
  /-- A sender whose latest call has returned. -/
  | returned (s : Send M) (result : Except CountedSendError Unit)
  /-- The receiver between two calls of `recv`. -/
  | running
  /-- The receiver is dropped. -/
  | terminated

/-- A sender's next call. -/
def sendNext : Task M (Point M) := do
  let s ← ask .nextSend
  let result ← s.perform
  return .returned s result

/-- What a party does at each of its places. -/
def code : Point M → Task M (Point M)
  | .idle => sendNext
  | .returned _ _ => sendNext
  | .running => do
      match ← ask .goesOn with
      | true =>
          let _ ← recv
          return .running
      | false =>
          terminate
          return .terminated
  | .terminated => return .terminated

/-! ### The counter and the channel -/

/-- A `NonZeroUsize`. -/
structure Capacity where
  get : ℕ
  pos : 0 < get
  lt : get < 2 ^ 64

/-- A bounded quota's counter, and the channel it sits in front of. -/
structure Channel (M : Type) where
  count : ℕ
  queue : List (Incoming M)
  /-- The receiver has not been dropped. -/
  connected : Bool

/-- `fetch_sub(1)` on a `usize`, which wraps. -/
def fetchSub : ℕ → ℕ
  | 0 => 2 ^ 64 - 1
  | count + 1 => count

/-- The effect of an operation.  The counter is a `usize`: it wraps where it is decremented, and
where it is incremented past the capacity it has room, since a reservation belongs to a thread or
to an item in memory, of which there are fewer than `2 ^ 64`. -/
inductive Atomic (capacity : Capacity) (s : Channel M) : (op : Op M) → op.Ans → Channel M → Prop
  | nextSend (x : Send M) : Atomic capacity s .nextSend x s
  | goesOn (b : Bool) : Atomic capacity s .goesOn b s
  | reserve (h : s.count < capacity.get) :
      Atomic capacity s .reserve true { s with count := s.count + 1 }
  | full (h : ¬s.count < capacity.get) : Atomic capacity s .reserve false s
  | reserveForced (hroom : s.count + 1 < 2 ^ 64) :
      Atomic capacity s .reserveForced () { s with count := s.count + 1 }
  | unreserve :
      Atomic capacity s .unreserve () { s with count := fetchSub s.count }
  | send (item : Incoming M) (h : s.connected = true) :
      Atomic capacity s (.send item) true { s with queue := s.queue ++ [item] }
  | sendFails (item : Incoming M) (h : s.connected = false) :
      Atomic capacity s (.send item) false s
  | isDisconnected : Atomic capacity s .isDisconnected (!s.connected) s
  | recv {item : Incoming M} {rest : List (Incoming M)} (h : s.queue = item :: rest) :
      Atomic capacity s .recv (some item) { s with queue := rest }
  | recvNone (h : s.queue = []) : Atomic capacity s .recv none s
  | drain : Atomic capacity s .drain () { s with queue := [] }
  | dropReceiver : Atomic capacity s .dropReceiver () { s with connected := false }

/-! ### What the parties have done -/

/-- The senders, and the one task which owns the receiver. -/
inductive Party (ι : Type) where
  | sender (i : ι)
  | actor
  deriving DecidableEq

/-- What the parties have done. -/
structure Books (ι M : Type) where
  /-- The senders which hold a reservation and have not enqueued their item. -/
  holders : List ι
  /-- The messages the receiver has dequeued and not yet given back the capacity of. -/
  dequeued : ℕ
  /-- The messages the drain has taken out. -/
  drained : ℕ
  /-- There has been a forced reservation. -/
  forced : Bool
  /-- By how much a sender's latest call has changed the count. -/
  net : ι → ℤ
  /-- What a sender's latest call has enqueued. -/
  pushed : ι → List (Incoming M)
  /-- The receiver was dropped before the latest call began. -/
  late : ι → Bool

/-- The number of messages. -/
def messages (items : List (Incoming M)) : ℕ :=
  items.countP fun item =>
    match item with
    | .message _ => true
    | .terminated _ => false

namespace Books

variable {ι : Type}

/-- Nothing has been done. -/
def init : Books ι M := ⟨[], 0, 0, false, fun _ => 0, fun _ => [], fun _ => false⟩

/-- Who holds a reservation once a sender has done an operation. -/
def holdersAfter [DecidableEq ι] (b : Books ι M) (i : ι) : (op : Op M) → op.Ans → List ι
  | .reserve, true => i :: b.holders
  | .reserveForced, _ => i :: b.holders
  | .send (.message _), true => b.holders.erase i
  | .unreserve, _ => b.holders.erase i
  | _, _ => b.holders

/-- Whether there has been a forced reservation once a sender has done an operation. -/
def forcedAfter (b : Books ι M) : Op M → Bool
  | .reserveForced => true
  | _ => b.forced

/-- The books after an operation of a sender, from what it has done to the channel.  A call begins
with `nextSend`. -/
def bySender [DecidableEq ι] (b : Books ι M) (i : ι) (s s' : Channel M) (op : Op M)
    (x : op.Ans) : Books ι M :=
  match op with
  | .nextSend =>
      { b with
        net := Function.update b.net i 0
        pushed := Function.update b.pushed i []
        late := Function.update b.late i (!s.connected) }
  | op =>
      { b with
        holders := b.holdersAfter i op x
        forced := b.forcedAfter op
        net := Function.update b.net i (b.net i + (s'.count - s.count))
        pushed := Function.update b.pushed i (b.pushed i ++ s'.queue.drop s.queue.length) }

/-- The books after an operation of the receiver. -/
def byActor (b : Books ι M) (s : Channel M) : (op : Op M) → op.Ans → Books ι M
  | .recv, some (.message _) => { b with dequeued := b.dequeued + 1 }
  | .unreserve, _ => { b with dequeued := b.dequeued - 1 }
  | .drain, _ => { b with drained := b.drained + messages s.queue }
  | _, _ => b

end Books

/-- The channel and the books. -/
structure World (ι M : Type) where
  channel : Channel M
  books : Books ι M

/-- An empty mailbox. -/
def World.init {ι : Type} : World ι M := ⟨⟨0, [], true⟩, Books.init⟩

/-- An operation of a party. -/
def Exec {ι : Type} [DecidableEq ι] (capacity : Capacity) (party : Party ι) (w : World ι M)
    (op : Op M) (x : op.Ans) (w' : World ι M) : Prop :=
  Atomic capacity w.channel op x w'.channel ∧
    w'.books = match party with
      | .sender i => w.books.bySender i w.channel w'.channel op x
      | .actor => w.books.byActor w.channel op x

/-- Every sender is idle, the receiver is running, and nothing has been sent. -/
def start {ι : Type} : Tasks (Party ι) (Op M) Op.Ans (World ι M) (Point M) where
  shared := World.init
  task := fun party =>
    match party with
    | .sender _ => .ret .idle
    | .actor => .ret .running

/-- The states the parties get into, whatever they send and however their operations interleave. -/
abbrev Reachable {ι : Type} [DecidableEq ι] (capacity : Capacity) :
    Tasks (Party ι) (Op M) Op.Ans (World ι M) (Point M) → Prop :=
  Tasks.Reaches (fun _ => code) (Exec capacity) (fun _ _ => False) start

end Tellus.Quota
