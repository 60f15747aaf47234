import Mathlib.Tactic
import Tellus.Actor.Accounting
import Tellus.Host.Entries
import Tellus.Lib.Ledger

/-!
What becomes of the messages a host is handed.

A host on its own, handed any envelopes and signals whatsoever, its calls answered in any way: the
messages for a key are told apart by the calls about them, and these make up a ledger.  Messages
are held back in the buffer of a stopping entity and nowhere else, so what is placed is placed in
the order of routing, whatever becomes of the entities in between.

* `routedTo`, `enqueuedFor`, `refusedFor`: what the calls say about a key.
* `Booked`: the ledger of a key, with the message the host has at hand.
* `Settled`: what holds of the state between two callbacks; `Midway` what holds inside of one.
* `messages_accounted`: every message is enqueued, refused or buffered, and why it is refused.
-/

namespace Tellus.Host

open Concurrent

variable {K M : Type}

/-! ### What the calls tell -/

/-- The calls since `init` was last begun, after one more. -/
def sinceInitAfter (calls : Calls K M) : (op : Op K M) × op.Ans → Calls K M
  | ⟨.awaitRestart, _⟩ => []
  | call => calls ++ [call]

/-- The calls since `init` was last begun: all of them, if the host has not been restarted. -/
def sinceInit (h : Calls K M) : Calls K M := h.foldl sinceInitAfter []

/-- The entity spawned while the latest incoming is handled. -/
def justSpawned (calls : Calls K M) : Option (K × ActorId) :=
  calls.foldl (fun fresh call =>
    match call with
    | ⟨.nextIncoming _, _⟩ => none
    | ⟨.spawn key, a⟩ => some (key, a)
    | _ => fresh) none

section Keys

variable [DecidableEq K] (key : K)

/-- The messages the host was handed for a key. -/
def routedTo (calls : Calls K M) : List M :=
  calls.filterMap fun
    | ⟨.nextIncoming _, some (.message envelope)⟩ =>
        if envelope.key = key then some envelope.message else none
    | _ => none

/-- The messages enqueued for a key, with the entities they went to. -/
def enqueuedFor (calls : Calls K M) : List (ActorId × M) :=
  calls.filterMap fun
    | ⟨.tell key' a m, .ok _⟩ => if key' = key then some (a, m) else none
    | ⟨.tryTellForced key' a m, .ok _⟩ => if key' = key then some (a, m) else none
    | _ => none

/-- The messages for a key which were dropped as dead letters: by `ActorRef::tell`, because the
buffer was full, or because the next entity had gone. -/
def refusedFor (calls : Calls K M) : List M :=
  calls.filterMap fun
    | ⟨.tell key' _ m, .error _⟩ => if key' = key then some m else none
    | ⟨.tryTellForced key' _ m, .error _⟩ => if key' = key then some m else none
    | ⟨.refuse key' m, _⟩ => if key' = key then some m else none
    | _ => none

/-- The entities spawned for a key, oldest first. -/
def incarnationsOf (calls : Calls K M) : List ActorId :=
  calls.filterMap fun
    | ⟨.spawn key', a⟩ => if key' = key then some a else none
    | _ => none

end Keys

/-! ### The ledger of a key -/

section Booked

variable [DecidableEq K] {key : K} {calls : Calls K M} {hand held : List M} {m : M} {a : ActorId}

lemma routedTo_concat (key : K) (calls : Calls K M) (call : (op : Op K M) × op.Ans) :
    routedTo key (calls ++ [call]) = routedTo key calls ++ routedTo key [call] :=
  List.filterMap_append ..

lemma enqueuedFor_concat (key : K) (calls : Calls K M) (call : (op : Op K M) × op.Ans) :
    enqueuedFor key (calls ++ [call]) = enqueuedFor key calls ++ enqueuedFor key [call] :=
  List.filterMap_append ..

lemma refusedFor_concat (key : K) (calls : Calls K M) (call : (op : Op K M) × op.Ans) :
    refusedFor key (calls ++ [call]) = refusedFor key calls ++ refusedFor key [call] :=
  List.filterMap_append ..

lemma incarnationsOf_concat (key : K) (calls : Calls K M) (call : (op : Op K M) × op.Ans) :
    incarnationsOf key (calls ++ [call]) = incarnationsOf key calls ++ incarnationsOf key [call] :=
  List.filterMap_append ..

/-- The ledger of a key: the messages routed, but for those at hand, balance with the messages
enqueued to its entities, those refused, and those held back. -/
structure Booked (key : K) (calls : Calls K M) (hand held : List M) : Prop where
  balance : ∃ arrived, routedTo key calls = arrived ++ hand ∧
    Balances arrived (enqueuedFor key calls) (refusedFor key calls) held
  told : ∀ p ∈ enqueuedFor key calls, p.1 ∈ incarnationsOf key calls

/-- A call about the key: `balance` says what it does to the ledger. -/
lemma Booked.call {hand' held' : List M} {call : (op : Op K M) × op.Ans}
    (hb : Booked key calls hand held)
    (hbalance : ∀ arrived placed refused, Balances arrived placed refused held →
      ∃ arrived', arrived ++ hand ++ routedTo key [call] = arrived' ++ hand' ∧
        Balances arrived' (placed ++ enqueuedFor key [call]) (refused ++ refusedFor key [call]) held')
    (htold : ∀ p ∈ enqueuedFor key [call], p.1 ∈ incarnationsOf key calls) :
    Booked key (calls ++ [call]) hand' held' := by
  obtain ⟨⟨arrived, hrouted, hb⟩, hmem⟩ := hb
  refine ⟨?_, fun p hp => ?_⟩
  · rw [routedTo_concat, enqueuedFor_concat, refusedFor_concat, hrouted]
    exact hbalance arrived _ _ hb
  · rw [enqueuedFor_concat, List.mem_append] at hp
    rw [incarnationsOf_concat]
    exact List.mem_append_left _ (hp.elim (hmem p) (htold p))

/-- A call which says nothing about the key. -/
lemma Booked.other (hb : Booked key calls hand held) {call : (op : Op K M) × op.Ans}
    (hr : routedTo key [call] = []) (he : enqueuedFor key [call] = [])
    (hf : refusedFor key [call] = []) : Booked key (calls ++ [call]) hand held := by
  refine hb.call (fun arrived placed refused hbal => ⟨arrived, ?_, ?_⟩) fun p hp => ?_
  · rw [hr, List.append_nil]
  · rwa [he, hf, List.append_nil, List.append_nil]
  · rw [he] at hp
    cases hp

/-- A message is handed over for the key. -/
lemma Booked.arrive (hb : Booked key calls [] held) (state : State K M) (m : M) :
    Booked key (calls ++ [⟨.nextIncoming state, some (.message ⟨key, m⟩)⟩]) [m] held := by
  refine hb.call (fun arrived placed refused hbal => ⟨arrived, ?_, ?_⟩) fun p hp => ?_
  · simp [routedTo]
  · simpa [enqueuedFor, refusedFor] using hbal
  · simp [enqueuedFor] at hp

/-- The message at hand is told to an entity, nothing being held back. -/
lemma Booked.tell (hb : Booked key calls [m] []) (ha : a ∈ incarnationsOf key calls)
    (x : Except SendError Unit) : Booked key (calls ++ [⟨.tell key a m, x⟩]) [] [] := by
  refine hb.call (fun arrived placed refused hbal => ⟨arrived ++ [m], ?_, ?_⟩) fun p hp => ?_
  · simp [routedTo]
  · cases x with
    | ok => simpa [enqueuedFor, refusedFor] using hbal.place a m
    | error e => simpa [enqueuedFor, refusedFor] using hbal.refuse m
  · cases x with
    | ok =>
        obtain rfl : p = (a, m) := by simpa [enqueuedFor] using hp
        exact ha
    | error e => simp [enqueuedFor] at hp

/-- The message at hand is buffered. -/
lemma Booked.buffer (hb : Booked key calls [m] held) (x : Unit) :
    Booked key (calls ++ [⟨.buffer key m, x⟩]) [] (held ++ [m]) := by
  refine hb.call (fun arrived placed refused hbal => ⟨arrived ++ [m], ?_, ?_⟩) fun p hp => ?_
  · simp [routedTo]
  · simpa [enqueuedFor, refusedFor] using hbal.hold m
  · simp [enqueuedFor] at hp

/-- The message at hand is refused. -/
lemma Booked.refuse (hb : Booked key calls [m] held) (x : Unit) :
    Booked key (calls ++ [⟨.refuse key m, x⟩]) [] held := by
  refine hb.call (fun arrived placed refused hbal => ⟨arrived ++ [m], ?_, ?_⟩) fun p hp => ?_
  · simp [routedTo]
  · simpa [enqueuedFor, refusedFor] using hbal.refuse m
  · simp [enqueuedFor] at hp

/-- The oldest message held back is told to the next entity. -/
lemma Booked.tryTellForced (hb : Booked key calls [] (m :: held))
    (ha : a ∈ incarnationsOf key calls) (x : Except SendError Unit) :
    Booked key (calls ++ [⟨.tryTellForced key a m, x⟩]) [] held := by
  refine hb.call (fun arrived placed refused hbal => ⟨arrived, ?_, ?_⟩) fun p hp => ?_
  · simp [routedTo]
  · cases x with
    | ok => simpa [enqueuedFor, refusedFor] using hbal.deliver a
    | error e => simpa [enqueuedFor, refusedFor] using hbal.discard
  · cases x with
    | ok =>
        obtain rfl : p = (a, m) := by simpa [enqueuedFor] using hp
        exact ha
    | error e => simp [enqueuedFor] at hp

end Booked

/-! ### The contract -/

section Contract

variable [DecidableEq K]

/-- What is known of the entities: a key's entry is about its newest one, and no buffer is above
its bound. -/
structure Newest (config : HostConfig) (calls : Calls K M) (state : State K M) : Prop where
  entry : ∀ key e, state.entries key = some e →
    (incarnationsOf key calls).getLast? = some e.actor
  bounded : ∀ key a ms, state.entries key = some (.stopping a ms) → ms.length ≤ config.buffer

/-- What holds of the state of a host between two callbacks: nothing is at hand, and what is held
back for a key is in its buffer. -/
structure Settled (config : HostConfig) (calls : Calls K M) (state : State K M) : Prop
    extends Newest config calls state where
  booked : ∀ key, Booked key calls [] (state.buffered key)

/-- What is due before a call about a message: it goes to the newest entity of the key, past the
capacity only to one spawned just now, and is refused only by a buffer as full as configured. -/
def Addressed (config : HostConfig) (h : Calls K M) : Op K M → Prop
  | .nextIncoming state => Settled config (sinceInit h) state
  | .tell key a _ => (incarnationsOf key (sinceInit h)).getLast? = some a
  | .tryTellForced key a _ => (incarnationsOf key (sinceInit h)).getLast? = some a ∧
      justSpawned (sinceInit h) = some (key, a)
  | .refuse key _ => ∃ state a ms, lastHeld h = some state ∧
      state.entries key = some (.stopping a ms) ∧ ms.length = config.buffer
  | _ => True

/-- What is due at each place of the run loop. -/
def SettledAt (config : HostConfig) (h : Calls K M) : Point K M → Prop
  | .run => sinceInit h = []
  | .running state => Settled config (sinceInit h) state
  | _ => True

/-- The contract of a host on its own, as far as its messages are concerned. -/
abbrev booking (config : HostConfig) : Contract Unit (Op K M) Op.Ans (Calls K M) :=
  History.contract isPanics Fresh (Addressed config)

end Contract

/-! ### Inside of a callback -/

section Midway

variable [DecidableEq K] {config : HostConfig} {h : Calls K M} {state : State K M} {key : K}
  {hand hand' held held' : K → List M} {latest : Option (State K M)}
  {fresh : Option (K × ActorId)} {a : ActorId} {m : M}

/-- What holds inside of a callback: `hand` is what is still to be routed, `held` what is held
back, `latest` the state in which the incoming is handled, `fresh` the entity spawned for it. -/
structure Midway (config : HostConfig) (hand held : K → List M) (state : State K M)
    (latest : Option (State K M)) (fresh : Option (K × ActorId)) (h : Calls K M) : Prop
    extends Newest config (sinceInit h) state where
  booked : ∀ key, Booked key (sinceInit h) (hand key) (held key)
  handling : lastHeld h = latest
  spawned : justSpawned (sinceInit h) = fresh

/-- No message is at hand. -/
def emptyHand : K → List M := fun _ => []

/-- One message is at hand. -/
def inHand (key : K) (m : M) : K → List M := Function.update emptyHand key [m]

lemma Midway.settled (hm : Midway config emptyHand state.buffered state latest fresh h) :
    Settled config (sinceInit h) state :=
  ⟨hm.toNewest, hm.booked⟩

lemma Settled.midway (hs : Settled config (sinceInit h) state) :
    Midway config emptyHand state.buffered state (lastHeld h) (justSpawned (sinceInit h)) h :=
  ⟨hs.toNewest, hs.booked, rfl, rfl⟩

/-- Calls which neither spawn an entity nor begin or end anything. -/
def steady : Op K M → Bool
  | .spawn _ => false
  | .nextIncoming _ => false
  | .panics => false
  | .awaitRestart => false
  | _ => true

/-- Of these, the ones which are about no message. -/
def quiet : Op K M → Bool
  | .tell _ _ _ => false
  | .tryTellForced _ _ _ => false
  | .buffer _ _ => false
  | .refuse _ _ => false
  | op => steady op

omit [DecidableEq K] in
lemma sinceInit_concat (op : Op K M) (hop : op ≠ .awaitRestart) (h : Calls K M) (x : op.Ans) :
    sinceInit (h ++ [⟨op, x⟩]) = sinceInit h ++ [⟨op, x⟩] := by
  rw [sinceInit, List.foldl_append]
  cases op <;> first | rfl | exact absurd rfl hop

omit [DecidableEq K] in
lemma record_steady {op : Op K M} (hop : steady op = true) (h : Calls K M) (x : op.Ans) :
    h.record isPanics op x = h ++ [⟨op, x⟩] := by
  cases op <;> first | rfl | cases hop

omit [DecidableEq K] in
lemma sinceInit_record {op : Op K M} (hop : steady op = true) (h : Calls K M) (x : op.Ans) :
    sinceInit (h.record isPanics op x) = sinceInit h ++ [⟨op, x⟩] := by
  rw [record_steady hop]
  refine sinceInit_concat op ?_ h x
  rintro rfl
  cases hop

/-- A steady call spawns no entity. -/
lemma incarnationsOf_record {op : Op K M} (hop : steady op = true) (key : K) (h : Calls K M)
    (x : op.Ans) : incarnationsOf key (sinceInit (h.record isPanics op x))
      = incarnationsOf key (sinceInit h) := by
  have hnil : incarnationsOf key [(⟨op, x⟩ : (op : Op K M) × op.Ans)] = [] := by
    cases op <;> first | rfl | cases hop
  rw [sinceInit_record hop, incarnationsOf_concat, hnil, List.append_nil]

/-- A steady call leaves the entities as they are. -/
lemma Midway.call {op : Op K M} (hm : Midway config hand held state latest fresh h)
    (hop : steady op = true) {x : op.Ans}
    (hb : ∀ key, Booked key (sinceInit h ++ [⟨op, x⟩]) (hand' key) (held' key)) :
    Midway config hand' held' state latest fresh (h.record isPanics op x) := by
  have hlatest : lastHeld (h.record isPanics op x) = lastHeld h := by
    rw [record_steady hop, lastHeld, List.foldl_append]
    cases op <;> first | rfl | cases hop
  have hspawned : justSpawned (sinceInit h ++ [⟨op, x⟩]) = justSpawned (sinceInit h) := by
    rw [justSpawned, List.foldl_append]
    cases op <;> first | rfl | cases hop
  refine ⟨⟨fun key e he => ?_, hm.bounded⟩, ?_, hlatest.trans hm.handling, ?_⟩
  · rw [incarnationsOf_record hop]
    exact hm.entry key e he
  · rw [sinceInit_record hop]
    exact hb
  · rw [sinceInit_record hop, hspawned]
    exact hm.spawned

/-- A quiet call changes nothing. -/
lemma safe_quiet {α : Type} {post : Calls K M → α → Prop} {op : Op K M} {k : op.Ans → Task K M α}
    (hop : quiet op = true) (hm : Midway config hand held state latest fresh h)
    (hk : ∀ h x, Midway config hand held state latest fresh h →
      Safe (booking config) () post (k x) h) :
    Safe (booking config) () post (.call op k) h := by
  have hdue : Addressed config h op := by
    cases op <;> first | exact trivial | cases hop
  have hsteady : steady op = true := by
    cases op <;> first | exact hop | cases hop
  refine History.safe_call.mpr ⟨hdue, fun x _ => hk _ x (hm.call hsteady fun key => ?_)⟩
  refine (hm.booked key).other ?_ ?_ ?_
  · cases op <;> first | rfl | cases hop
  · cases op <;> first | rfl | cases hop
  · cases op <;> first | rfl | cases hop

/-- A steady call about one key, of which the others know nothing. -/
lemma Midway.callAt {op : Op K M} (hm : Midway config hand held state latest fresh h)
    (hop : steady op = true) {x : op.Ans} (key : K)
    (hb : Booked key (sinceInit h) (hand key) (held key) →
      Booked key (sinceInit h ++ [⟨op, x⟩]) (hand' key) (held' key))
    (hhand : ∀ key', key' ≠ key → hand' key' = hand key')
    (hheld : ∀ key', key' ≠ key → held' key' = held key')
    (hother : ∀ key', key' ≠ key → routedTo key' [(⟨op, x⟩ : (op : Op K M) × op.Ans)] = [] ∧
      enqueuedFor key' [(⟨op, x⟩ : (op : Op K M) × op.Ans)] = [] ∧
      refusedFor key' [(⟨op, x⟩ : (op : Op K M) × op.Ans)] = []) :
    Midway config hand' held' state latest fresh (h.record isPanics op x) := by
  refine hm.call hop fun key' => ?_
  by_cases hkey : key' = key
  · subst hkey
    exact hb (hm.booked key')
  · obtain ⟨hr, he, hf⟩ := hother key' hkey
    rw [hhand key' hkey, hheld key' hkey]
    exact (hm.booked key').other hr he hf

lemma emptyHand_of_ne {key' : K} (hkey : key' ≠ key) :
    (emptyHand : K → List M) key' = inHand key m key' :=
  (Function.update_of_ne hkey ..).symm

/-- The message at hand is told to an entity. -/
lemma Midway.tell (hm : Midway config (inHand key m) held state latest fresh h)
    (hheld : held key = []) (ha : (incarnationsOf key (sinceInit h)).getLast? = some a)
    (x : Except SendError Unit) :
    Midway config emptyHand held state latest fresh (h.record isPanics (.tell key a m) x) := by
  refine hm.callAt rfl key (fun hb => ?_) (fun _ => emptyHand_of_ne) (fun _ _ => rfl)
    fun key' hkey => ⟨rfl, ?_, ?_⟩
  · rw [inHand, Function.update_self, hheld] at hb
    rw [hheld]
    exact hb.tell (List.mem_of_getLast? ha) x
  · cases x <;> simp [enqueuedFor, Ne.symm hkey]
  · cases x <;> simp [refusedFor, Ne.symm hkey]

/-- The message at hand is buffered. -/
lemma Midway.buffer (hm : Midway config (inHand key m) held state latest fresh h) (x : Unit) :
    Midway config emptyHand (Function.update held key (held key ++ [m])) state latest fresh
      (h.record isPanics (.buffer key m) x) := by
  refine hm.callAt rfl key (fun hb => ?_) (fun _ => emptyHand_of_ne)
    (fun _ hkey => Function.update_of_ne hkey ..) fun _ _ => ⟨rfl, rfl, rfl⟩
  rw [inHand, Function.update_self] at hb
  rw [Function.update_self]
  exact hb.buffer x

/-- The message at hand is refused. -/
lemma Midway.refuse (hm : Midway config (inHand key m) held state latest fresh h) (x : Unit) :
    Midway config emptyHand held state latest fresh (h.record isPanics (.refuse key m) x) := by
  refine hm.callAt rfl key (fun hb => ?_) (fun _ => emptyHand_of_ne) (fun _ _ => rfl)
    fun key' hkey => ⟨rfl, rfl, ?_⟩
  · rw [inHand, Function.update_self] at hb
    exact hb.refuse x
  · simp [refusedFor, Ne.symm hkey]

/-- The oldest message held back is told to the next entity. -/
lemma Midway.tryTellForced {ms : List M} (hheld : held key = m :: ms)
    (hm : Midway config emptyHand held state latest fresh h)
    (ha : (incarnationsOf key (sinceInit h)).getLast? = some a) (x : Except SendError Unit) :
    Midway config emptyHand (Function.update held key ms) state latest fresh
      (h.record isPanics (.tryTellForced key a m) x) := by
  refine hm.callAt rfl key (fun hb => ?_) (fun _ _ => rfl)
    (fun _ hkey => Function.update_of_ne hkey ..) fun key' hkey => ⟨rfl, ?_, ?_⟩
  · rw [hheld] at hb
    rw [Function.update_self]
    exact hb.tryTellForced (List.mem_of_getLast? ha) x
  · cases x <;> simp [enqueuedFor, Ne.symm hkey]
  · cases x <;> simp [refusedFor, Ne.symm hkey]

end Midway

/-! ### The callbacks -/

section Callbacks

variable [DecidableEq K] {config : HostConfig} {h : Calls K M} {state : State K M} {key : K}
  {hand held : K → List M} {latest : Option (State K M)} {fresh : Option (K × ActorId)}
  {a : ActorId} {m : M}

lemma buffered_eq_update {ms : List M} (hms : state.buffered key = ms) :
    state.buffered = Function.update state.buffered key ms := by
  rw [← hms, Function.update_eq_self]

/-- The entry of a key is replaced by another one of the same entity. -/
lemma Newest.replace {calls : Calls K M} (hn : Newest config calls state) {e : Entry M}
    (he : (incarnationsOf key calls).getLast? = some e.actor)
    (hbuffer : ∀ a ms, e = .stopping a ms → ms.length ≤ config.buffer) :
    Newest config calls (state.insert key e) := by
  refine ⟨fun key' f hf => ?_, fun key' a ms hf => ?_⟩
  · by_cases hkey : key' = key
    · subst hkey
      rw [State.insert_entries, Function.update_self, Option.some.injEq] at hf
      rw [← hf]
      exact he
    · rw [State.insert_entries, Function.update_of_ne hkey] at hf
      exact hn.entry key' f hf
  · by_cases hkey : key' = key
    · subst hkey
      rw [State.insert_entries, Function.update_self, Option.some.injEq] at hf
      exact hbuffer a ms hf
    · rw [State.insert_entries, Function.update_of_ne hkey] at hf
      exact hn.bounded key' a ms hf

/-- An entity is spawned for a key without an entry. -/
lemma spawnEntity_booked (hm : Midway config hand held state latest fresh h)
    (hnone : state.entries key = none) :
    Safe (booking config) () (fun h a => Midway config hand held state latest (some (key, a)) h ∧
      (incarnationsOf key (sinceInit h)).getLast? = some a) (spawnEntity key) h := by
  refine History.safe_call.mpr ⟨trivial, fun a _ => ?_⟩
  have hsince : sinceInit (h ++ [⟨.spawn key, a⟩]) = sinceInit h ++ [⟨.spawn key, a⟩] :=
    sinceInit_concat _ (by simp) h a
  have hnewest : (incarnationsOf key (sinceInit (h ++ [⟨.spawn key, a⟩]))).getLast? = some a := by
    rw [hsince, incarnationsOf_concat]
    simp [incarnationsOf]
  have hm' : Midway config hand held state latest (some (key, a)) (h ++ [⟨.spawn key, a⟩]) := by
    refine ⟨⟨fun key' e he => ?_, hm.bounded⟩, fun key' => ?_, ?_, ?_⟩
    · have hkey : key ≠ key' := by
        rintro rfl
        rw [hnone] at he
        cases he
      rw [hsince, incarnationsOf_concat]
      simpa [incarnationsOf, hkey] using hm.entry key' e he
    · rw [hsince]
      exact (hm.booked key').other rfl rfl rfl
    · rw [lastHeld, List.foldl_append]
      exact hm.handling
    · rw [hsince, justSpawned, List.foldl_append]
      rfl
  refine History.safe_call.mpr ⟨trivial, fun x _ => History.safe_ret.mpr ?_⟩
  refine ⟨hm'.call rfl fun key' => (hm'.booked key').other rfl rfl rfl, ?_⟩
  rw [incarnationsOf_record rfl]
  exact hnewest

/-- The entry of a key is about its newest entity. -/
lemma Midway.insert (hm : Midway config hand held state latest fresh h) {e : Entry M}
    (he : (incarnationsOf key (sinceInit h)).getLast? = some e.actor)
    (hbuffer : ∀ a ms, e = .stopping a ms → ms.length ≤ config.buffer) :
    Midway config hand held (state.insert key e) latest fresh h :=
  ⟨hm.toNewest.replace he hbuffer, hm.booked, hm.handling, hm.spawned⟩

/-- Only the entries matter. -/
lemma Midway.of_entries {state' : State K M} (hm : Midway config hand held state latest fresh h)
    (hentries : state'.entries = state.entries) :
    Midway config hand held state' latest fresh h := by
  refine ⟨⟨fun key e he => ?_, fun key a ms he => ?_⟩, hm.booked, hm.handling, hm.spawned⟩
  · rw [hentries] at he
    exact hm.entry key e he
  · rw [hentries] at he
    exact hm.bounded key a ms he

/-- The newest entity of a key is live, and has been messaged now. -/
lemma now_booked (hm : Midway config emptyHand held state latest fresh h)
    (ha : (incarnationsOf key (sinceInit h)).getLast? = some a)
    (hheld : held = Function.update state.buffered key []) :
    Safe (booking config) () (Settled config ∘ sinceInit)
      (do
        let now ← ask .now
        return state.insert key (.live a now)) h := by
  have hm' : Midway config emptyHand held (state.insert key (.live a 0)) latest fresh h :=
    hm.insert ha nofun
  refine safe_quiet rfl hm' fun h now hm' => History.safe_ret.mpr ?_
  have hentry := hm'.entry key (.live a 0) (by simp)
  have hlive := hm'.insert (e := .live a now) hentry nofun
  rw [State.insert_insert] at hlive
  refine ⟨hlive.toNewest, fun key' => ?_⟩
  have hb := hlive.booked key'
  rw [hheld] at hb
  rw [State.buffered_insert]
  exact hb

/-- A message is routed. -/
lemma route_booked (hm : Midway config (inHand key m) state.buffered state (some state) fresh h) :
    Safe (booking config) () (Settled config ∘ sinceInit) (route config state key m) h := by
  unfold route
  cases he : state.entries key with
  | none =>
      have hempty : state.buffered key = [] := by simp [State.buffered, he]
      refine (spawnEntity_booked hm he).bind fun h a _ hs => ?_
      obtain ⟨hm, ha⟩ := hs
      refine History.safe_call.mpr ⟨ha, fun x _ => ?_⟩
      have hm' : Midway config emptyHand state.buffered (state.remember a key) _ _ _ :=
        (hm.tell hempty ha x).of_entries rfl
      refine now_booked hm' ?_ (buffered_eq_update hempty)
      rw [incarnationsOf_record rfl]
      exact ha
  | some e =>
      cases e with
      | live a t =>
          have hempty : state.buffered key = [] := State.buffered_of_entry he
          have ha := hm.entry key _ he
          refine History.safe_call.mpr ⟨ha, fun x _ => ?_⟩
          have hm' := hm.tell hempty ha x
          exact now_booked hm' (hm'.entry key _ he) (buffered_eq_update hempty)
      | stopping a ms =>
          dsimp only
          split
          · rename_i hlt
            refine History.safe_call.mpr ⟨trivial, fun x _ => History.safe_ret.mpr ?_⟩
            have ha := (hm.buffer x).entry key _ he
            have hm' := (hm.buffer x).insert (e := .stopping a (ms ++ [m])) ha fun b ms' hms => by
              cases hms
              rw [List.length_append]
              exact hlt
            refine ⟨hm'.toNewest, fun key' => ?_⟩
            have hb := hm'.booked key'
            rw [State.buffered_of_entry he] at hb
            rw [State.buffered_insert]
            exact hb
          · rename_i hge
            refine safe_quiet rfl hm fun h _ hm => ?_
            have hfull : ms.length = config.buffer :=
              Nat.le_antisymm (hm.bounded key a ms he) (Nat.le_of_not_lt hge)
            refine History.safe_call.mpr ⟨⟨state, a, ms, hm.handling, he, hfull⟩, fun x _ => ?_⟩
            exact History.safe_ret.mpr (hm.refuse x).settled

/-- Asking entities to stop leaves the buffers as they are. -/
lemma passivateEach_booked (idleTimeout : ℕ) (keys : List K)
    (hm : Midway config emptyHand state.buffered state latest fresh h) :
    Safe (booking config) () (Settled config ∘ sinceInit)
      (passivateEach idleTimeout keys state) h := by
  induction keys generalizing h state with
  | nil => exact History.safe_ret.mpr hm.settled
  | cons key keys ih =>
      unfold passivateEach
      cases he : state.entries key with
      | none => exact ih hm
      | some e =>
          cases e with
          | stopping b ms => exact ih hm
          | live b t =>
              refine safe_quiet rfl hm fun h now hm => ?_
              dsimp only [Prog.ret_bind]
              split
              · exact ih hm
              · refine safe_quiet rfl hm fun h x hm => ?_
                rcases x with _ | _
                · exact ih hm
                · refine ih ?_
                  have hempty : state.buffered key = [] := State.buffered_of_entry he
                  have hb := hm.entry key _ he
                  have hm' := hm.insert (e := .stopping b []) hb fun a ms hms => by
                    cases hms
                    exact Nat.zero_le _
                  have hsame : (state.insert key (.stopping b [])).buffered = state.buffered := by
                    rw [State.buffered_insert, Function.update_eq_self_iff, hempty]
                    rfl
                  rw [hsame]
                  exact hm'

/-- The ticker has nothing to do with messages. -/
lemma Settled.ticker {calls : Calls K M} (hs : Settled config calls state)
    (ticker : Option ActorId) : Settled config calls { state with ticker := ticker } :=
  ⟨⟨hs.entry, hs.bounded⟩, hs.booked⟩

/-- The next ticker is spawned. -/
lemma tickLater_booked (hs : Settled config (sinceInit h) state) :
    Safe (booking config) () (Settled config ∘ sinceInit) (tickLater config state) h := by
  have hm := hs.midway
  unfold tickLater
  split
  · exact History.safe_ret.mpr (hs.ticker none)
  · refine safe_quiet rfl hm fun h c hm => ?_
    exact safe_quiet rfl hm fun h _ hm => History.safe_ret.mpr (hm.settled.ticker (some c))

lemma passivateIdle_booked (hm : Midway config emptyHand state.buffered state latest fresh h) :
    Safe (booking config) () (Settled config ∘ sinceInit) (passivateIdle config state) h := by
  unfold passivateIdle
  split
  · exact History.safe_ret.mpr hm.settled
  · rename_i idleTimeout _
    exact safe_quiet rfl hm fun h keys hm => passivateEach_booked idleTimeout keys hm

/-- What was buffered is told to the next entity, one after the other. -/
lemma tellBuffered_booked (ms : List M)
    (hm : Midway config emptyHand (Function.update held key ms) state latest (some (key, a)) h)
    (ha : (incarnationsOf key (sinceInit h)).getLast? = some a) :
    Safe (booking config) () (fun h _ =>
      Midway config emptyHand (Function.update held key []) state latest (some (key, a)) h ∧
        (incarnationsOf key (sinceInit h)).getLast? = some a) (tellBuffered key a ms) h := by
  induction ms generalizing h with
  | nil => exact History.safe_ret.mpr ⟨hm, ha⟩
  | cons m ms ih =>
      refine History.safe_call.mpr ⟨⟨ha, hm.spawned⟩, fun x _ => ?_⟩
      have hm' := hm.tryTellForced (Function.update_self ..) ha x
      rw [Function.update_idem] at hm'
      have ha' : (incarnationsOf key
          (sinceInit (h.record isPanics (.tryTellForced key a m) x))).getLast? = some a := by
        rw [incarnationsOf_record rfl]
        exact ha
      rcases x with _ | _
      · refine History.safe_call.mpr ⟨trivial, fun x _ => ih ?_ ?_⟩
        · exact hm'.call rfl fun key' => (hm'.booked key').other rfl rfl rfl
        · rw [incarnationsOf_record rfl]
          exact ha'
      · exact ih hm' ha'

/-- An entity is forgotten together with its entry. -/
lemma Midway.remove (hm : Midway config hand held state latest fresh h) (a : ActorId) (key : K) :
    Midway config hand held ((state.forget a).remove key) latest fresh h := by
  have hentry : ∀ key' e, ((state.forget a).remove key).entries key' = some e →
      state.entries key' = some e := by
    intro key' e he
    have hkey : key' ≠ key := by
      rintro rfl
      simp at he
    simpa [hkey] using he
  exact ⟨⟨fun key' e he => hm.entry key' e (hentry key' e he),
    fun key' a ms he => hm.bounded key' a ms (hentry key' _ he)⟩, hm.booked, hm.handling, hm.spawned⟩

/-- A signal is handled: what was buffered for the entity goes to the next one. -/
lemma terminated_booked (hs : Settled config (sinceInit h) state) :
    Safe (booking config) () (Settled config ∘ sinceInit) (terminated config state a) h := by
  have hm := hs.midway
  unfold terminated
  split
  · exact (passivateIdle_booked hm).bind fun h state _ hs => tickLater_booked hs
  · split
    · exact History.safe_ret.mpr hs
    · rename_i key hkey
      have hm' := hm.remove a key
      have hremoved : state.buffered key = [] →
          Settled config (sinceInit h) ((state.forget a).remove key) := by
        intro hempty
        have hsame : ((state.forget a).remove key).buffered = state.buffered := by
          rw [State.buffered_remove, State.buffered_forget, Function.update_eq_self_iff, hempty]
        refine ⟨hm'.toNewest, ?_⟩
        rw [hsame]
        exact hs.booked
      split
      · rename_i b ms he
        have hms : state.buffered key = ms := State.buffered_of_entry he
        split
        · rename_i hnil
          exact History.safe_ret.mpr (hremoved (hms.trans (List.isEmpty_iff.mp hnil)))
        · refine (spawnEntity_booked hm' (by simp)).bind fun h c _ hc => ?_
          obtain ⟨hm, hnewest⟩ := hc
          rw [buffered_eq_update hms] at hm
          refine (tellBuffered_booked ms hm hnewest).bind fun h _ _ hd => ?_
          obtain ⟨hm, hnewest⟩ := hd
          have hm : Midway config emptyHand _ (((state.forget a).remove key).remember c key) _ _ h :=
            hm.of_entries rfl
          refine now_booked hm hnewest ?_
          change _ = Function.update ((state.forget a).remove key).buffered key []
          rw [State.buffered_remove, State.buffered_forget, Function.update_idem]
      · rename_i b t he
        exact History.safe_ret.mpr (hremoved (State.buffered_of_entry he))
      · rename_i he
        exact History.safe_ret.mpr (hremoved (by simp [State.buffered, he]))

/-- A callback which settles everything returns to the run loop with its state. -/
lemma call_booked {callback : Task K M (State K M)}
    (hcallback : Safe (booking config) () (Settled config ∘ sinceInit) callback h) :
    Safe (booking config) () (SettledAt config) (call callback) h := by
  refine (History.safe_interruptible rfl (fun _ => trivial) hcallback).bind fun h x _ hx => ?_
  cases x with
  | some state =>
      have hs : Settled config (sinceInit h) state := hx state rfl
      exact safe_quiet rfl hs.midway fun h _ hm => History.safe_ret.mpr hm.settled
  | none => exact History.safe_call.mpr ⟨trivial, fun _ _ => History.safe_ret.mpr trivial⟩

/-- Nothing has happened. -/
lemma settled_init (hnil : sinceInit h = []) :
    Settled config (sinceInit h) (State.default : State K M) := by
  rw [hnil]
  exact ⟨⟨nofun, nofun⟩, fun key => ⟨⟨[], rfl, .nil⟩, nofun⟩⟩

/-- An incoming is received. -/
lemma Settled.receive (hs : Settled config (sinceInit h) state)
    (x : Option (Incoming (HostEnvelope K M))) :
    sinceInit (h.record isPanics (.nextIncoming state) x)
        = sinceInit h ++ [⟨.nextIncoming state, x⟩] ∧
      Newest config (sinceInit (h.record isPanics (.nextIncoming state) x)) state ∧
      lastHeld (h.record isPanics (.nextIncoming state) x) = some state := by
  have hsince : sinceInit (h.record isPanics (.nextIncoming state) x)
      = sinceInit h ++ [⟨.nextIncoming state, x⟩] :=
    sinceInit_concat (.nextIncoming state) (by simp) h x
  refine ⟨hsince, ⟨fun key e he => ?_, hs.bounded⟩, ?_⟩
  · rw [hsince, incarnationsOf_concat]
    simpa [incarnationsOf] using hs.entry key e he
  · change lastHeld (h ++ [⟨.nextIncoming state, x⟩]) = some state
    rw [lastHeld, List.foldl_append]
    rfl

/-- **Every block of the run loop settles what it is handed.** -/
lemma code_booked (h : Calls K M) (pt : Point K M) (hpt : SettledAt config h pt) :
    Safe (booking config) () (SettledAt config) (code config pt) h := by
  cases pt with
  | run => exact call_booked (tickLater_booked (settled_init hpt))
  | running state =>
      have hs : Settled config (sinceInit h) state := hpt
      refine History.safe_call.mpr ⟨hs, fun x _ => ?_⟩
      obtain ⟨hsince, hnewest, hheld⟩ := hs.receive x
      rcases x with _ | (envelope | a)
      · exact History.safe_ret.mpr trivial
      · obtain ⟨key, m⟩ := envelope
        refine call_booked (route_booked ⟨hnewest, fun key' => ?_, hheld, rfl⟩)
        rw [hsince]
        by_cases hkey : key' = key
        · subst hkey
          rw [inHand, Function.update_self]
          exact (hs.booked key').arrive state m
        · rw [inHand, Function.update_of_ne hkey]
          exact (hs.booked key').other (by simp [routedTo, Ne.symm hkey]) rfl rfl
      · refine call_booked (terminated_booked ⟨hnewest, fun key' => ?_⟩)
        rw [hsince]
        exact (hs.booked key').other rfl rfl rfl
  | failed =>
      refine History.safe_call.mpr ⟨trivial, fun x _ => ?_⟩
      cases x with
      | true =>
          refine History.safe_ret.mpr ?_
          change sinceInit (h ++ [⟨.awaitRestart, true⟩]) = []
          rw [sinceInit, List.foldl_append]
          rfl
      | false => exact History.safe_ret.mpr trivial
  | terminate => exact History.safe_ret.mpr trivial

end Callbacks

/-! ### Every run -/

section Runs

variable [DecidableEq K]

omit [DecidableEq K] in
/-- Without a restart the calls are all there are. -/
lemma sinceInit_eq_self {h : Calls K M} (hrestart : ∀ x, ⟨.awaitRestart, x⟩ ∉ h) :
    sinceInit h = h := by
  induction h using List.reverseRecOn with
  | nil => rfl
  | append_singleton h call ih =>
      obtain ⟨op, x⟩ := call
      have hop : op ≠ .awaitRestart := by
        rintro rfl
        exact hrestart x (by simp)
      rw [sinceInit_concat op hop, ih fun y hy => hrestart y (List.mem_append_left _ hy)]

/-- **A host accounts for every message.**  A host on its own, handed any envelopes and signals,
its calls answered in any way, and not restarted: between two callbacks each message routed to a
key has one fate.  Those enqueued went to entities of the key in the order of routing, always to
the newest, those refused are the dead letters, and the others are in the buffer.  A message is
refused on arrival only if the buffer holds as many as configured, and only an entity spawned just
now is told past its capacity.  Such a call fails only if the mailbox is closed: that is so for a
host among other actors, and on a mailbox of any capacity, whoever else sends to it, where a call
enqueues its message once or not at all. -/
theorem messages_accounted (config : HostConfig) :
    (∀ st : Tasks Unit (Op K M) Op.Ans (Calls K M) (Point K M), Alone config st →
      (∀ state, st.task () = .ret (.running state) → (∀ x, ⟨.awaitRestart, x⟩ ∉ st.shared) →
        ∀ key, (∃ fates : List (M × Fate ActorId),
            fates.map Prod.fst = routedTo key st.shared ∧
            fates.filterMap Fate.placement = enqueuedFor key st.shared ∧
            (fates.filterMap Fate.refusal).Perm (refusedFor key st.shared) ∧
            fates.filterMap Fate.holding = state.buffered key) ∧
          ∀ p ∈ enqueuedFor key st.shared, p.1 ∈ incarnationsOf key st.shared) ∧
      (∀ key m k, st.task () = .call (.refuse key m) k →
        ∃ state a ms, lastHeld st.shared = some state ∧
          state.entries key = some (.stopping a ms) ∧ ms.length = config.buffer) ∧
      (∀ key a m k, st.task () = .call (.tell key a m) k →
        (incarnationsOf key (sinceInit st.shared)).getLast? = some a) ∧
      ∀ key a m k, st.task () = .call (.tryTellForced key a m) k →
        (incarnationsOf key (sinceInit st.shared)).getLast? = some a ∧
          justSpawned (sinceInit st.shared) = some (key, a)) ∧
    (∀ (kind : ActorId → Kind) (h : ActorId) (good : Prop)
      (st : Tasks Unit (Op K M) Op.Ans (World K M) (Point K M)), Reached config kind h good st →
      ∀ key a m k e w', st.task () = .call (.tryTellForced key a m) k →
        Exec kind h st.shared (.tryTellForced key a m) (.error e) w' →
          (st.shared.incarnations key).getLast? = some a ∧ e = .actorTerminated ∧
            (st.shared.sys.phase a).connected = false) ∧
    ∀ (ι : Type) [DecidableEq ι] (capacity : Quota.Capacity)
      (st : Tasks (Quota.Party ι) (Quota.Op M) Quota.Op.Ans (Quota.World ι M) (Quota.Point M)),
      Quota.Reachable capacity st → ∀ i send result,
        st.task (.sender i) = .ret (.returned send result) →
          (result = .ok () → st.shared.books.pushed i = [send.item]) ∧
            (result ≠ .ok () → st.shared.books.pushed i = []) ∧
            ∀ m e, send = .forced m → result = .error e →
              e = .disconnected ∧ st.shared.channel.connected = false := by
  refine ⟨fun st hst => ?_, fun kind h good st hst key a m k e w' htask hx => ?_,
    fun ι _ capacity st hst i send result ht => ?_⟩
  · have hstart : SettledAt config ([] : Calls K M) .run := rfl
    have hsafe := History.invariant code_booked hstart hst
    refine ⟨fun state hstate hrestart key => ?_, fun key m k hop => ?_, fun key a m k hop => ?_,
      fun key a m k hop => ?_⟩
    · rw [hstate] at hsafe
      have hs : SettledAt config st.shared (.running state) := History.safe_ret.mp hsafe
      obtain ⟨⟨arrived, hrouted, hbalance⟩, htold⟩ := hs.booked key
      rw [sinceInit_eq_self hrestart] at hrouted hbalance htold
      rw [List.append_nil] at hrouted
      rw [hrouted]
      exact ⟨hbalance.fates, htold⟩
    · rw [hop] at hsafe
      exact hsafe.pre trivial
    · rw [hop] at hsafe
      exact hsafe.pre trivial
    · rw [hop] at hsafe
      exact hsafe.pre trivial
  · obtain ⟨hw, hsafe⟩ := reached_good hst
    have hs := hsafe ()
    rw [htask] at hs
    have howes := hs.pre hw
    cases hx with
    | tellForcedTerminated ha => exact ⟨howes.1.current, rfl, ha⟩
  · obtain ⟨hinv, hsafe⟩ := hst.good
    have hs := hsafe (.sender i)
    rw [ht] at hs
    have hr : Quota.Returned i send result st.shared := hs.result hinv
    refine ⟨hr.sent, fun hne => (hr.unchanged hne).2, ?_⟩
    rintro m e rfl rfl
    cases e with
    | full =>
        obtain ⟨m', hm'⟩ := hr.refused rfl
        cases hm'
    | disconnected => exact ⟨rfl, hr.gone rfl⟩

end Runs

/-- Whether a restart is awaited. -/
def isAwaitRestart : Op K M → Bool
  | .awaitRestart => true
  | _ => false

/-- No restart was awaited, as the calls tell. -/
lemma not_restarted {h : Calls K M} (hall : h.all (fun call => !isAwaitRestart call.1) = true)
    (x : Bool) : ⟨.awaitRestart, x⟩ ∉ h := by
  intro hx
  have hcall := List.all_eq_true.mp hall _ hx
  cases hcall

/-- Of three messages the first went to the first entity, the second was buffered and went to the
second, and the third was refused. -/
theorem messages_accounted_buffering : ∃ calls state,
    Alone sweepConfig (.solo (calls : Calls Unit ℕ) (.ret (.running state))) ∧
    routedTo () calls = [1, 2, 3] ∧ enqueuedFor () calls = [(childId, 1), (nextId, 2)] ∧
    refusedFor () calls = [3] ∧
    ∃ fates : List (ℕ × Fate ActorId), fates.map Prod.fst = [1, 2, 3] ∧
      fates.filterMap Fate.placement = [(childId, 1), (nextId, 2)] ∧
      (fates.filterMap Fate.refusal).Perm [3] := by
  have h := Tasks.solo_jump buffering_run
  have h := Tasks.solo_answer h
    (answers_alone (.nextIncoming bufferingHost) (some (.message ⟨(), 3⟩)) trivial)
  have h := Tasks.solo_answer h (answers_alone .panics false trivial)
  have h := Tasks.solo_answer h
    (answers_alone (.deadLetter childId "host buffer full") () trivial)
  have h := Tasks.solo_answer h (answers_alone .panics false trivial)
  have h := Tasks.solo_answer h (answers_alone (.refuse () 3) () trivial)
  have h := Tasks.solo_answer h (answers_alone .panics false trivial)
  have h := Tasks.solo_answer h (answers_alone (.returned true) () trivial)
  have h := Tasks.solo_jump h
  have h := Tasks.solo_answer h
    (answers_alone (.nextIncoming bufferingHost) (some (.terminated childId)) trivial)
  have h := Tasks.solo_answer h (answers_alone .panics false trivial)
  have h := Tasks.solo_answer h (answers_alone (.spawn ()) nextId (by show _ ∉ spawned _; decide))
  have h := Tasks.solo_answer h (answers_alone .panics false trivial)
  have h := Tasks.solo_answer h (answers_alone (.watch nextId) () trivial)
  have h := Tasks.solo_answer h (answers_alone .panics false trivial)
  have h := Tasks.solo_answer h (answers_alone (.tryTellForced () nextId 2) (.ok ()) trivial)
  have h := Tasks.solo_answer h (answers_alone .panics false trivial)
  have h := Tasks.solo_answer h (answers_alone .now (2 : ℕ) trivial)
  have h := Tasks.solo_answer h (answers_alone .panics false trivial)
  have h := Tasks.solo_answer h (answers_alone (.returned true) () trivial)
  obtain ⟨⟨fates, hmap, hplaced, hrefused, -⟩, -⟩ :=
    ((messages_accounted sweepConfig).1 _ h).1 _ rfl (not_restarted rfl) ()
  exact ⟨_, _, h, rfl, rfl, rfl, fates, hmap, hplaced, hrefused⟩

end Tellus.Host
