import Mathlib.Tactic
import Tellus.Actor.Quota

/-!
A mailbox's count is exact, whatever its users' operations interleave to.

Every reservation is somewhere: with a sender which has not enqueued its message yet, with a
message in the channel, with a message the receiver is about to give back, or with one the drain
has taken out.  `Balanced` says that the count is the number of these, and `exec_keeps` that
every operation a party may do keeps it so.  What a party may do, `Owes`, is kept to by the code.

* `Mid`: what a sender knows of its own call while it is under way.
* `Returned`: what is true of a call which has returned.
* `count_exact`: the two together, in every reachable state.
-/

namespace Tellus.Quota

open Concurrent

variable {M ι : Type} [DecidableEq ι] {capacity : Capacity} {w w' : World ι M}

/-! ### The invariant -/

/-- The count is the number of reservations, and what follows from where they come from. -/
structure Balanced (capacity : Capacity) (w : World ι M) : Prop where
  balance : w.channel.count = w.books.holders.length + messages w.channel.queue +
    w.books.dequeued + w.books.drained
  room : w.channel.count < 2 ^ 64
  nodup : w.books.holders.Nodup
  /-- Only forced reservations pass the capacity. -/
  within : w.books.forced = false → w.channel.count ≤ capacity.get
  late : ∀ i, w.books.late i = true → w.channel.connected = false

/-- What a party owes before an operation: a message is enqueued and capacity given back with a
reservation at hand, and nothing else is done with one. -/
def Owes : Party ι → World ι M → Op M → Prop
  | .sender i, w, .send (.message _) => i ∈ w.books.holders
  | .sender i, w, .unreserve => i ∈ w.books.holders
  | .sender _, _, .goesOn => False
  | .sender _, _, .recv => False
  | .sender _, _, .drain => False
  | .sender _, _, .dropReceiver => False
  | .sender i, w, _ => i ∉ w.books.holders
  | .actor, w, .unreserve => w.books.dequeued = 1
  | .actor, _, .nextSend => False
  | .actor, _, .reserve => False
  | .actor, _, .reserveForced => False
  | .actor, _, .send _ => False
  | .actor, _, .isDisconnected => False
  | .actor, w, _ => w.books.dequeued = 0

/-- What the others leave a party: a sender its own books and a receiver once dropped, the
receiver what it has dequeued and whether it is dropped. -/
def Leaves : Party ι → World ι M → World ι M → Prop
  | .sender i, w, w' => (i ∈ w'.books.holders ↔ i ∈ w.books.holders) ∧
      w'.books.net i = w.books.net i ∧ w'.books.pushed i = w.books.pushed i ∧
      w'.books.late i = w.books.late i ∧
      (w.channel.connected = false → w'.channel.connected = false)
  | .actor, w, w' => w'.books.dequeued = w.books.dequeued ∧
      w'.channel.connected = w.channel.connected

/-- The contract between the parties. -/
def accounting (capacity : Capacity) : Contract (Party ι) (Op M) Op.Ans (World ι M) where
  exec := Exec capacity
  pre := Owes
  inv := Balanced capacity
  rely := Leaves
  rely_refl := by
    rintro (i | _) w
    · exact ⟨Iff.rfl, rfl, rfl, rfl, id⟩
    · exact ⟨rfl, rfl⟩
  rely_trans := by
    rintro (i | _) w w' w'' h h'
    · exact ⟨h'.1.trans h.1, h'.2.1.trans h.2.1, h'.2.2.1.trans h.2.2.1,
        h'.2.2.2.1.trans h.2.2.2.1, fun hc => h'.2.2.2.2 (h.2.2.2.2 hc)⟩
    · exact ⟨h'.1.trans h.1, h'.2.trans h.2⟩

omit [DecidableEq ι] in
lemma Balanced.init : Balanced capacity (World.init : World ι M) where
  balance := rfl
  room := by norm_num [World.init]
  nodup := List.nodup_nil
  within := fun _ => Nat.zero_le _
  late := fun _ h => by cases h

@[simp] lemma messages_append (items items' : List (Incoming M)) :
    messages (items ++ items') = messages items + messages items' := List.countP_append

@[simp] lemma messages_message (m : M) (items : List (Incoming M)) :
    messages (.message m :: items) = messages items + 1 := List.countP_cons_of_pos rfl

@[simp] lemma messages_terminated (id : ActorId) (items : List (Incoming M)) :
    messages (.terminated id :: items) = messages items := List.countP_cons_of_neg (by simp)

@[simp] lemma messages_nil : messages ([] : List (Incoming M)) = 0 := rfl

/-- Giving back capacity of which there is some does not wrap. -/
lemma fetchSub_eq {n : ℕ} (hpos : 0 < n) : fetchSub n = n - 1 := by
  cases n with
  | zero => exact absurd hpos (Nat.lt_irrefl 0)
  | succ n => rfl

omit [DecidableEq ι] in
/-- Where there is a reservation, the count is not zero. -/
lemma Balanced.count_pos_of_holder (h : Balanced capacity w) {i : ι}
    (hi : i ∈ w.books.holders) : 0 < w.channel.count := by
  have := List.length_pos_of_mem hi
  have := h.balance
  omega

/-! ### One operation -/

/-- An operation of a sender keeps the books balanced. -/
lemma Balanced.bySender (h : Balanced capacity w) {i : ι} {op : Op M} {x : op.Ans}
    (hpre : Owes (.sender i) w op) (hx : Exec capacity (.sender i) w op x w') :
    Balanced capacity w' := by
  obtain ⟨ha, hb⟩ := hx
  obtain ⟨channel, books⟩ := w'
  dsimp only at ha hb
  subst hb
  have hbal := h.balance
  have hroom := h.room
  cases ha with
  | nextSend s =>
      refine ⟨hbal, hroom, h.nodup, h.within, fun j hj => ?_⟩
      simp only [Books.bySender, Function.update_apply] at hj ⊢
      split at hj
      · simpa using hj
      · exact h.late j hj
  | goesOn => exact hpre.elim
  | reserve hlt =>
      have := capacity.lt
      refine ⟨?_, by dsimp only; omega, List.nodup_cons.mpr ⟨hpre, h.nodup⟩, fun _ => hlt, h.late⟩
      simp only [Books.bySender, Books.holdersAfter, List.length_cons]
      omega
  | full hge => exact ⟨hbal, hroom, h.nodup, h.within, h.late⟩
  | reserveForced hfits =>
      refine ⟨?_, hfits, List.nodup_cons.mpr ⟨hpre, h.nodup⟩, fun hf => ?_, h.late⟩
      · simp only [Books.bySender, Books.holdersAfter, List.length_cons]
        omega
      · cases hf
  | unreserve =>
      have hpos := h.count_pos_of_holder hpre
      have hlen := List.length_erase_of_mem hpre
      have hholders := List.length_pos_of_mem hpre
      have hcount := fetchSub_eq hpos
      refine ⟨?_, ?_, h.nodup.erase i, fun hf => ?_, h.late⟩
      · simp only [Books.bySender, Books.holdersAfter]
        omega
      · dsimp only
        omega
      · have := h.within hf
        dsimp only
        omega
  | send item hc =>
      cases item with
      | message m =>
          have hlen := List.length_erase_of_mem hpre
          have hholders := List.length_pos_of_mem hpre
          refine ⟨?_, hroom, h.nodup.erase i, h.within, h.late⟩
          simp only [Books.bySender, Books.holdersAfter, messages_append, messages_message,
            messages_nil]
          omega
      | terminated id =>
          refine ⟨?_, hroom, h.nodup, h.within, h.late⟩
          simpa [Books.bySender, Books.holdersAfter] using hbal
  | sendFails item hc =>
      cases item <;>
        exact ⟨hbal, hroom, h.nodup, h.within, h.late⟩
  | isDisconnected =>
      exact ⟨hbal, hroom, h.nodup, h.within, h.late⟩
  | recv => exact hpre.elim
  | recvNone => exact hpre.elim
  | drain => exact hpre.elim
  | dropReceiver => exact hpre.elim

/-- An operation of the receiver keeps the books balanced. -/
lemma Balanced.byActor (h : Balanced capacity w) {op : Op M} {x : op.Ans}
    (hpre : Owes .actor w op) (hx : Exec capacity .actor w op x w') : Balanced capacity w' := by
  obtain ⟨ha, hb⟩ := hx
  obtain ⟨channel, books⟩ := w'
  dsimp only at ha hb
  subst hb
  have hbal := h.balance
  have hroom := h.room
  cases ha with
  | unreserve =>
      have hone : w.books.dequeued = 1 := hpre
      have hcount := fetchSub_eq (show 0 < w.channel.count by omega)
      refine ⟨?_, ?_, h.nodup, fun hf => ?_, h.late⟩
      · simp only [Books.byActor]
        omega
      · dsimp only
        omega
      · have := h.within hf
        dsimp only
        omega
  | @recv item rest hq =>
      rw [hq] at hbal
      cases item with
      | message m =>
          refine ⟨?_, hroom, h.nodup, h.within, h.late⟩
          rw [messages_message] at hbal
          simp only [Books.byActor]
          omega
      | terminated id =>
          refine ⟨?_, hroom, h.nodup, h.within, h.late⟩
          rwa [messages_terminated] at hbal
  | drain =>
      refine ⟨?_, hroom, h.nodup, h.within, h.late⟩
      simp only [Books.byActor, messages_nil]
      omega
  | dropReceiver => exact ⟨hbal, hroom, h.nodup, h.within, fun _ _ => rfl⟩
  | nextSend => exact hpre.elim
  | goesOn b => exact ⟨hbal, hroom, h.nodup, h.within, h.late⟩
  | recvNone hq => exact ⟨hbal, hroom, h.nodup, h.within, h.late⟩
  | isDisconnected => exact hpre.elim
  | reserve => exact hpre.elim
  | full => exact hpre.elim
  | reserveForced => exact hpre.elim
  | send => exact hpre.elim
  | sendFails => exact hpre.elim

/-- A sender changes no one else's books, nor whether the receiver is dropped. -/
lemma leaves_bySender {i : ι} {op : Op M} {x : op.Ans} (hpre : Owes (.sender i) w op)
    (hx : Exec capacity (.sender i) w op x w') :
    (∀ j, j ≠ i → Leaves (.sender j) w w') ∧ Leaves .actor w w' := by
  obtain ⟨ha, hb⟩ := hx
  obtain ⟨channel, books⟩ := w'
  dsimp only at ha hb
  subst hb
  have hconnected : channel.connected = w.channel.connected := by
    cases ha with
    | dropReceiver => exact hpre.elim
    | _ => rfl
  constructor
  · intro j hj
    refine ⟨?_, ?_, ?_, ?_, fun hc => hconnected.trans hc⟩
    · cases ha with
      | reserve => simp [Books.bySender, Books.holdersAfter, hj]
      | reserveForced => simp [Books.bySender, Books.holdersAfter, hj]
      | unreserve => exact List.mem_erase_of_ne hj
      | send item =>
          cases item with
          | message m => exact List.mem_erase_of_ne hj
          | terminated id => exact Iff.rfl
      | sendFails item => cases item <;> exact Iff.rfl
      | _ => exact Iff.rfl
    · cases ha <;> exact Function.update_of_ne hj _ _
    · cases ha <;> exact Function.update_of_ne hj _ _
    · cases ha with
      | nextSend s => exact Function.update_of_ne hj _ _
      | _ => rfl
  · refine ⟨?_, hconnected⟩
    cases ha <;> rfl

/-- The receiver changes no sender's books, and stays dropped. -/
lemma leaves_byActor {op : Op M} {x : op.Ans} (hx : Exec capacity .actor w op x w') (j : ι) :
    Leaves (.sender j) w w' := by
  obtain ⟨ha, hb⟩ := hx
  obtain ⟨channel, books⟩ := w'
  dsimp only at ha hb
  subst hb
  cases ha with
  | @recv item => cases item <;> exact ⟨Iff.rfl, rfl, rfl, rfl, id⟩
  | dropReceiver => exact ⟨Iff.rfl, rfl, rfl, rfl, fun _ => rfl⟩
  | _ => exact ⟨Iff.rfl, rfl, rfl, rfl, id⟩

/-- **Every operation a party may do keeps the count exact** and leaves the others theirs. -/
lemma exec_keeps (party : Party ι) (w : World ι M) (op : Op M) (x : op.Ans) (w' : World ι M)
    (h : Balanced capacity w) (hpre : Owes party w op) (hx : Exec capacity party w op x w') :
    Balanced capacity w' ∧ ∀ other, other ≠ party → Leaves other w w' := by
  cases party with
  | sender i =>
      obtain ⟨hsenders, hactor⟩ := leaves_bySender hpre hx
      refine ⟨h.bySender hpre hx, fun other hne => ?_⟩
      cases other with
      | sender j => exact hsenders j fun hj => hne (by rw [hj])
      | actor => exact hactor
  | actor =>
      refine ⟨h.byActor hpre hx, fun other hne => ?_⟩
      cases other with
      | sender j => exact leaves_byActor hx j
      | actor => exact absurd rfl hne

/-! ### Calls -/

/-- A call is under way: whether it holds a reservation, and that it has changed nothing else. -/
structure Mid (i : ι) (held : Bool) (w : World ι M) : Prop where
  holds : i ∈ w.books.holders ↔ held = true
  net : w.books.net i = if held then 1 else 0
  pushed : w.books.pushed i = []

/-- What is true of a call which has returned. -/
structure Returned (i : ι) (s : Send M) (result : Except CountedSendError Unit)
    (w : World ι M) : Prop where
  released : i ∉ w.books.holders
  /-- A successful call has enqueued its item. -/
  sent : result = .ok () → w.books.pushed i = [s.item]
  /-- A failed one has left the count and the channel as they were. -/
  unchanged : result ≠ .ok () → w.books.net i = 0 ∧ w.books.pushed i = []
  /-- Sends fail as disconnected only once the receiver is dropped. -/
  gone : result = .error .disconnected → w.channel.connected = false
  /-- Only counted sends are refused for want of capacity. -/
  refused : result = .error .full → ∃ m, s = .counted m
  /-- A send which began after that fails as disconnected. -/
  late : w.books.late i = true → result = .error .disconnected

section Calls

variable {i : ι} {s : Send M}

omit [DecidableEq ι] in
lemma Mid.not_mem (h : Mid i false w) : i ∉ w.books.holders := by
  intro hi
  simpa using h.holds.mp hi

lemma stable_mid (held : Bool) : Stable (accounting (M := M) capacity) (.sender i) (Mid i held) := by
  rintro w w' h ⟨hholders, hnet, hpushed, -, -⟩ -
  exact ⟨hholders.trans h.holds, hnet.trans h.net, hpushed.trans h.pushed⟩

lemma stable_returned (result : Except CountedSendError Unit) :
    Stable (accounting (M := M) capacity) (.sender i) (Returned i s result) := by
  rintro w w' h ⟨hholders, hnet, hpushed, hlate, hgone⟩ -
  refine ⟨fun hi => h.released (hholders.mp hi), fun hr => hpushed.trans (h.sent hr), fun hr => ?_,
    fun hr => hgone (h.gone hr), h.refused, fun hl => h.late (hlate ▸ hl)⟩
  exact ⟨hnet.trans (h.unchanged hr).1, hpushed.trans (h.unchanged hr).2⟩

/-- The result of a call. -/
lemma safe_returned {result : Except CountedSendError Unit} (h : Returned i s result w) :
    Safe (accounting capacity) (.sender i) (fun w r => Returned i s r w) (.ret result) w :=
  Safe.ret_of (stable_returned result) h fun _ _ ht => ht

/-- An item of a sender which owes nothing to the quota is enqueued, or the receiver is gone. -/
lemma returned_of_send {item : Incoming M} {x : Bool} {held : Bool} (hmid : Mid i held w)
    (hitem : s.item = item) (hinv : Balanced capacity w)
    (hheld : held = match item with | .message _ => true | .terminated _ => false)
    (hx : Exec capacity (.sender i) w (.send item) x w') (hinv' : Balanced capacity w') :
    (x = true → Returned i s (.ok ()) w') ∧
      (x = false → Mid i held w' ∧ w'.channel.connected = false) := by
  obtain ⟨ha, hb⟩ := hx
  obtain ⟨channel, books⟩ := w'
  dsimp only at ha hb
  subst hb
  cases ha with
  | send _ hc =>
      refine ⟨fun _ => ⟨?_, fun _ => ?_, fun h => absurd rfl h, (by rintro ⟨⟩), (by rintro ⟨⟩), ?_⟩,
        fun h => (by cases h)⟩
      · subst hheld
        cases item with
        | message m => exact hinv.nodup.not_mem_erase
        | terminated id => exact hmid.not_mem
      · simp [Books.bySender, hmid.pushed, hitem]
      · intro hl
        have : w.channel.connected = false := hinv.late i hl
        rw [hc] at this
        cases this
  | sendFails _ hc =>
      refine ⟨fun h => (by cases h), fun _ => ⟨⟨?_, ?_, ?_⟩, hc⟩⟩
      · cases item <;> exact hmid.holds
      · simpa [Books.bySender] using hmid.net
      · simpa [Books.bySender] using hmid.pushed

/-- A call which gives its reservation back has changed nothing. -/
lemma returned_of_unreserve (hmid : Mid i true w) (hinv : Balanced capacity w)
    (hc : w.channel.connected = false)
    (hx : Exec capacity (.sender i) w .unreserve () w') :
    Returned i s (.error .disconnected) w' := by
  obtain ⟨ha, hb⟩ := hx
  obtain ⟨channel, books⟩ := w'
  dsimp only at ha hb
  subst hb
  cases ha with
  | unreserve =>
      have hpos := hinv.count_pos_of_holder (hmid.holds.mpr rfl)
      refine ⟨hinv.nodup.not_mem_erase, (by rintro ⟨⟩), fun _ => ⟨?_, ?_⟩, fun _ => hc,
        (by rintro ⟨⟩), fun _ => rfl⟩
      · have hnet := hmid.net
        simp only [Books.bySender, Function.update_self, fetchSub_eq hpos, if_true] at hnet ⊢
        omega
      · simp [Books.bySender, hmid.pushed]

/-- The second half of a counted or forced send: the message is enqueued and the reservation
committed, or it is given back. -/
lemma sendReserved_safe {m : M} (hs : s.item = .message m) (hmid : Mid i true w) :
    Safe (accounting capacity) (.sender i) (fun w r => Returned i s r w)
      (sendReserved (.message m)) w := by
  refine Safe.call_of (stable_mid true) hmid fun t hinv hmid => ⟨hmid.holds.mpr rfl, ?_⟩
  intro x t' hx hinv'
  obtain ⟨hsent, hfailed⟩ := returned_of_send hmid hs hinv rfl hx hinv'
  cases x with
  | true => exact safe_returned (hsent rfl)
  | false =>
      obtain ⟨hmid', hc⟩ := hfailed rfl
      have hstable : Stable (accounting capacity) (.sender i)
          fun w : World ι M => Mid i true w ∧ w.channel.connected = false :=
        (stable_mid true).and fun _ _ h hr _ => hr.2.2.2.2 h
      refine Safe.call_of hstable ⟨hmid', hc⟩ fun t hinv ht => ⟨ht.1.holds.mpr rfl, ?_⟩
      intro x t' hx hinv'
      exact safe_returned (returned_of_unreserve ht.1 hinv ht.2 hx)

/-- A call begins with a clean slate. -/
lemma mid_of_nextSend (hi : i ∉ w.books.holders) {x : Send M}
    (hx : Exec capacity (.sender i) w .nextSend x w') : Mid i false w' := by
  obtain ⟨ha, hb⟩ := hx
  obtain ⟨channel, books⟩ := w'
  dsimp only at ha hb
  subst hb
  exact ⟨by simpa [Books.bySender] using hi, by simp [Books.bySender], by simp [Books.bySender]⟩

/-- Asking for capacity gives a reservation or changes nothing. -/
lemma mid_of_reserve {x : Bool} (hmid : Mid i false w)
    (hx : Exec capacity (.sender i) w .reserve x w') : Mid i x w' := by
  obtain ⟨ha, hb⟩ := hx
  obtain ⟨channel, books⟩ := w'
  dsimp only at ha hb
  subst hb
  cases ha with
  | reserve hlt =>
      exact ⟨by simp [Books.bySender, Books.holdersAfter], by simp [Books.bySender, hmid.net],
        by simp [Books.bySender, hmid.pushed]⟩
  | full hge =>
      exact ⟨hmid.holds, by simp [Books.bySender, hmid.net], by simp [Books.bySender, hmid.pushed]⟩

/-- A forced reservation is always given. -/
lemma mid_of_reserveForced (hmid : Mid i false w) {x : Unit}
    (hx : Exec capacity (.sender i) w .reserveForced x w') : Mid i true w' := by
  obtain ⟨ha, hb⟩ := hx
  obtain ⟨channel, books⟩ := w'
  dsimp only at ha hb
  subst hb
  cases ha with
  | reserveForced hroom =>
      exact ⟨by simp [Books.bySender, Books.holdersAfter], by simp [Books.bySender, hmid.net],
        by simp [Books.bySender, hmid.pushed]⟩

/-- A refused call learns whether the receiver is dropped. -/
lemma returned_of_isDisconnected {m : M} {x : Bool} (hmid : Mid i false w)
    (hinv : Balanced capacity w) (hx : Exec capacity (.sender i) w .isDisconnected x w') :
    Returned i (.counted m) (.error (if x then .disconnected else .full)) w' := by
  obtain ⟨ha, hb⟩ := hx
  obtain ⟨channel, books⟩ := w'
  dsimp only at ha hb
  subst hb
  cases ha with
  | isDisconnected =>
      refine ⟨hmid.not_mem, (by rintro ⟨⟩), fun _ => ⟨?_, ?_⟩,
        fun hr => ?_, fun _ => ⟨m, rfl⟩, fun hl => ?_⟩
      · simp [Books.bySender, hmid.net]
      · simp [Books.bySender, hmid.pushed]
      · simpa using hr
      · have : w.channel.connected = false := hinv.late i hl
        simp [this]

lemma trySendCounted_safe (m : M) (hmid : Mid i false w) :
    Safe (accounting capacity) (.sender i) (fun w r => Returned i (.counted m) r w)
      (trySendCounted (.message m)) w := by
  refine Safe.call_of (stable_mid false) hmid fun t hinv hmid =>
    ⟨hmid.not_mem, fun x t' hx hinv' => ?_⟩
  have hmid' := mid_of_reserve hmid hx
  cases x with
  | true => exact sendReserved_safe (s := .counted m) rfl hmid'
  | false =>
      refine Safe.call_of (stable_mid false) hmid' fun t hinv hmid => ⟨hmid.not_mem, ?_⟩
      intro x t' hx hinv'
      have hreturned := returned_of_isDisconnected (m := m) hmid hinv hx
      cases x <;> exact safe_returned hreturned

lemma trySendForced_safe (m : M) (hmid : Mid i false w) :
    Safe (accounting capacity) (.sender i) (fun w r => Returned i (.forced m) r w)
      (trySendForced (.message m)) w := by
  refine Safe.call_of (stable_mid false) hmid fun t hinv hmid =>
    ⟨hmid.not_mem, fun x t' hx hinv' => ?_⟩
  exact sendReserved_safe (s := .forced m) rfl (mid_of_reserveForced hmid hx)

lemma trySendUncounted_safe (id : ActorId) (hmid : Mid i false w) :
    Safe (accounting capacity) (.sender i) (fun w r => Returned i (.uncounted id) r w)
      (trySendUncounted (.terminated id) : Task M (Except CountedSendError Unit)) w := by
  refine Safe.call_of (stable_mid false) hmid fun t hinv hmid => ⟨hmid.not_mem, ?_⟩
  intro x t' hx hinv'
  obtain ⟨hsent, hfailed⟩ := returned_of_send (s := .uncounted id) hmid rfl hinv rfl hx hinv'
  cases x with
  | true => exact safe_returned (hsent rfl)
  | false =>
      obtain ⟨hmid', hc⟩ := hfailed rfl
      refine safe_returned ⟨hmid'.not_mem, (by rintro ⟨⟩),
        fun _ => ⟨hmid'.net, hmid'.pushed⟩, fun _ => hc, (by rintro ⟨⟩), fun _ => rfl⟩

lemma perform_safe (s : Send M) (hmid : Mid i false w) :
    Safe (accounting capacity) (.sender i) (fun w r => Returned i s r w) s.perform w := by
  cases s with
  | counted m => exact trySendCounted_safe m hmid
  | forced m => exact trySendForced_safe m hmid
  | uncounted id => exact trySendUncounted_safe id hmid

end Calls

/-! ### Every run -/

/-- What holds of a party at each of its places. -/
def Standing : Party ι → World ι M → Point M → Prop
  | .sender i, w, .idle => i ∉ w.books.holders
  | .sender i, w, .returned s result => Returned i s result w
  | .actor, w, .running => w.books.dequeued = 0
  | .actor, w, .terminated => w.books.dequeued = 0 ∧ w.channel.connected = false
  | _, _, _ => False

lemma sendNext_safe {i : ι} (hi : i ∉ w.books.holders) :
    Safe (accounting capacity) (.sender i) (Standing (.sender i)) (sendNext (M := M)) w := by
  have hstable : Stable (accounting (M := M) capacity) (.sender i)
      fun w => i ∉ w.books.holders := fun _ _ h hr _ hi => h (hr.1.mp hi)
  refine Safe.call_of hstable hi fun t hinv hi => ⟨hi, fun s t' hx hinv' => ?_⟩
  refine (perform_safe s (mid_of_nextSend hi hx)).bind fun t result hinv hr => ?_
  exact Safe.ret_of (stable_returned result) hr fun _ _ ht => ht

lemma stable_dequeued (n : ℕ) :
    Stable (accounting (M := M) capacity) (.actor : Party ι) fun w => w.books.dequeued = n :=
  fun _ _ h hr _ => hr.1.trans h

lemma stable_dropped : Stable (accounting (M := M) capacity) (.actor : Party ι)
    fun w => w.books.dequeued = 0 ∧ w.channel.connected = false :=
  fun _ _ h hr _ => ⟨hr.1.trans h.1, hr.2.trans h.2⟩

/-- Taking an incoming out gives back what a message had reserved. -/
lemma recv_safe (hd : w.books.dequeued = 0) :
    Safe (accounting capacity) .actor (fun w _ => w.books.dequeued = 0) (recv (M := M)) w := by
  refine Safe.call_of (stable_dequeued 0) hd fun t hinv hd => ⟨hd, fun x t' hx hinv' => ?_⟩
  obtain ⟨ha, hb⟩ := hx
  rcases x with _ | (m | id)
  · exact Safe.ret_of (stable_dequeued 0) (by rw [hb]; exact hd) fun _ _ ht => ht
  · have hone : t'.books.dequeued = 1 := by
      rw [hb]
      exact congrArg (· + 1) hd
    refine Safe.call_of (stable_dequeued 1) hone fun t hinv hone => ⟨hone, fun x t' hx hinv' => ?_⟩
    have hzero : t'.books.dequeued = 0 := by
      rw [hx.2]
      exact congrArg (· - 1) hone
    exact Safe.ret_of (stable_dequeued 0) hzero fun _ _ ht => ht
  · exact Safe.ret_of (stable_dequeued 0) (by rw [hb]; exact hd) fun _ _ ht => ht

/-- Terminating drops the receiver. -/
lemma terminate_safe (hd : w.books.dequeued = 0) :
    Safe (accounting capacity) .actor
      (fun w _ => w.books.dequeued = 0 ∧ w.channel.connected = false) (terminate (M := M)) w := by
  refine Safe.call_of (stable_dequeued 0) hd fun t hinv hd => ⟨hd, fun x t' hx hinv' => ?_⟩
  have hd' : t'.books.dequeued = 0 := by
    rw [hx.2]
    exact hd
  refine Safe.call_of (stable_dequeued 0) hd' fun t hinv hd => ⟨hd, fun x t' hx hinv' => ?_⟩
  obtain ⟨ha, hb⟩ := hx
  obtain ⟨channel, books⟩ := t'
  dsimp only at ha hb
  subst hb
  cases ha with
  | dropReceiver => exact Safe.ret_of stable_dropped ⟨hd, rfl⟩ fun _ _ ht => ht

/-- Every party keeps to what it owes. -/
lemma code_safe (party : Party ι) (w : World ι M) (pt : Point M) (_ : Balanced capacity w)
    (hpt : Standing party w pt) :
    Safe (accounting capacity) party (Standing party) (code pt) w := by
  cases party with
  | sender i =>
      cases pt with
      | idle => exact sendNext_safe hpt
      | returned s result => exact sendNext_safe hpt.released
      | running => exact hpt.elim
      | terminated => exact hpt.elim
  | actor =>
      cases pt with
      | idle => exact hpt.elim
      | returned s result => exact hpt.elim
      | running =>
          refine Safe.call_of (stable_dequeued 0) hpt fun t hinv hd => ⟨hd, fun x t' hx hinv' => ?_⟩
          have hd' : t'.books.dequeued = 0 := by
            rw [hx.2]
            exact hd
          cases x with
          | true =>
              refine (recv_safe hd').bind fun t _ hinv hd => ?_
              exact Safe.ret_of (stable_dequeued 0) hd fun _ _ ht => ht
          | false =>
              refine (terminate_safe hd').bind fun t _ hinv hd => ?_
              exact Safe.ret_of stable_dropped hd fun _ _ ht => ht
      | terminated => exact Safe.ret_of stable_dropped hpt fun _ _ ht => ht

/-- Every party is safe in every reachable state. -/
lemma Reachable.good {st : Tasks (Party ι) (Op M) Op.Ans (World ι M) (Point M)}
    (h : Reachable capacity st) : Tasks.Good (accounting capacity) Standing st := by
  refine Tasks.invariant code_safe exec_keeps (fun _ _ _ he => he.elim) ?_ h
  refine ⟨Balanced.init, fun party => ?_⟩
  cases party with
  | sender i =>
      have hstable : Stable (accounting (M := M) capacity) (.sender i)
          fun w => i ∉ w.books.holders := fun _ _ h hr _ hi => h (hr.1.mp hi)
      exact Safe.ret_of hstable List.not_mem_nil fun _ _ ht => ht
  | actor => exact Safe.ret_of (stable_dequeued 0) rfl fun _ _ ht => ht

/-- What is said of the count in a state of the parties. -/
structure ExactCount (capacity : Capacity)
    (st : Tasks (Party ι) (Op M) Op.Ans (World ι M) (Point M)) : Prop where
  /-- The count is the number of reservations held by senders which have not enqueued their item,
  of messages in the channel, of messages dequeued and not yet given back, and of messages the
  drain has taken out. -/
  count : st.shared.channel.count = st.shared.books.holders.length +
    messages st.shared.channel.queue + st.shared.books.dequeued + st.shared.books.drained
  /-- Those senders are, one by one, the ones about to enqueue a message or, having failed to, to
  give its reservation back. -/
  holders : st.shared.books.holders.Nodup ∧ ∀ i, i ∈ st.shared.books.holders ↔
    (∃ m k, st.task (.sender i) = .call (.send (.message m)) k) ∨
      ∃ k, st.task (.sender i) = .call .unreserve k
  /-- There is one message dequeued and not yet given back while the receiver is about to, and
  none otherwise. -/
  dequeued : (st.shared.books.dequeued = 1 ↔ ∃ k, st.task .actor = .call .unreserve k) ∧
    st.shared.books.dequeued ≤ 1
  /-- Giving back never underflows. -/
  no_underflow : ∀ party k, st.task party = .call .unreserve k → 0 < st.shared.channel.count
  /-- Calls which have returned. -/
  returned : ∀ i s result, st.task (.sender i) = .ret (.returned s result) →
    Returned i s result st.shared
  /-- Without forced sends the capacity bounds what is queued. -/
  bounded : st.shared.books.forced = false →
    messages st.shared.channel.queue ≤ capacity.get
  /-- A counted send is let through exactly while the count is below the capacity. -/
  reserve : ∀ i k x w, st.task (.sender i) = .call .reserve k →
    Exec capacity (.sender i) st.shared .reserve x w →
      (x = true ↔ st.shared.channel.count < capacity.get)
  /-- A terminated signal is never refused while the receiver is there. -/
  signal : ∀ i id k x w, st.task (.sender i) = .call (.send (.terminated id)) k →
    st.shared.channel.connected = true →
      Exec capacity (.sender i) st.shared (.send (.terminated id)) x w → x = true

lemma exec_reserve {i : ι} {x : Bool} (hx : Exec capacity (.sender i) w .reserve x w') :
    x = true ↔ w.channel.count < capacity.get := by
  obtain ⟨channel, books⟩ := w'
  obtain ⟨ha, -⟩ := hx
  cases ha with
  | reserve hlt => exact ⟨fun _ => hlt, fun _ => rfl⟩
  | full hge => exact ⟨fun h => (by cases h), fun h => absurd h hge⟩

lemma exec_send {i : ι} {item : Incoming M} {x : Bool} (hc : w.channel.connected = true)
    (hx : Exec capacity (.sender i) w (.send item) x w') : x = true := by
  obtain ⟨channel, books⟩ := w'
  obtain ⟨ha, -⟩ := hx
  cases ha with
  | send _ _ => rfl
  | sendFails _ hn =>
      rw [hc] at hn
      cases hn

/-- A sender holds a reservation exactly where it goes on with one. -/
lemma Reachable.holds {st : Tasks (Party ι) (Op M) Op.Ans (World ι M) (Point M)}
    (h : Reachable capacity st) (i : ι) : i ∈ st.shared.books.holders ↔
      (∃ m k, st.task (.sender i) = .call (.send (.message m)) k) ∨
        ∃ k, st.task (.sender i) = .call .unreserve k := by
  obtain ⟨hinv, hsafe⟩ := h.good
  have hs := hsafe (.sender i)
  cases ht : st.task (.sender i) with
  | ret pt =>
      rw [ht] at hs
      have hpt := hs.result hinv
      have hnot : i ∉ st.shared.books.holders := by
        cases pt with
        | idle => exact hpt
        | returned s result => exact hpt.released
        | running => exact hpt.elim
        | terminated => exact hpt.elim
      simp [hnot]
  | call op k =>
      rw [ht] at hs
      have hpre : Owes (.sender i) st.shared op := hs.pre hinv
      cases op with
      | send item =>
          cases item with
          | message m => exact ⟨fun _ => .inl ⟨m, k, rfl⟩, fun _ => hpre⟩
          | terminated id => simpa [Owes] using hpre
      | unreserve => exact ⟨fun _ => .inr ⟨k, rfl⟩, fun _ => hpre⟩
      | goesOn => exact hpre.elim
      | recv => exact hpre.elim
      | drain => exact hpre.elim
      | dropReceiver => exact hpre.elim
      | nextSend => simpa [Owes] using hpre
      | reserve => simpa [Owes] using hpre
      | reserveForced => simpa [Owes] using hpre
      | isDisconnected => simpa [Owes] using hpre

/-- The receiver has a message to give back exactly where it is about to. -/
lemma Reachable.dequeued {st : Tasks (Party ι) (Op M) Op.Ans (World ι M) (Point M)}
    (h : Reachable capacity st) :
    (st.shared.books.dequeued = 1 ↔ ∃ k, st.task .actor = .call .unreserve k) ∧
      st.shared.books.dequeued ≤ 1 := by
  obtain ⟨hinv, hsafe⟩ := h.good
  have hs := hsafe .actor
  cases ht : st.task .actor with
  | ret pt =>
      rw [ht] at hs
      have hpt := hs.result hinv
      have hzero : st.shared.books.dequeued = 0 := by
        cases pt with
        | idle => exact hpt.elim
        | returned s result => exact hpt.elim
        | running => exact hpt
        | terminated => exact hpt.1
      simp [hzero]
  | call op k =>
      rw [ht] at hs
      have hpre : Owes .actor st.shared op := hs.pre hinv
      cases op with
      | unreserve =>
          have hone : st.shared.books.dequeued = 1 := hpre
          exact ⟨⟨fun _ => ⟨k, rfl⟩, fun _ => hone⟩, hone.le⟩
      | nextSend => exact hpre.elim
      | reserve => exact hpre.elim
      | reserveForced => exact hpre.elim
      | send item => exact hpre.elim
      | isDisconnected => exact hpre.elim
      | goesOn => simp [show st.shared.books.dequeued = 0 from hpre]
      | recv => simp [show st.shared.books.dequeued = 0 from hpre]
      | drain => simp [show st.shared.books.dequeued = 0 from hpre]
      | dropReceiver => simp [show st.shared.books.dequeued = 0 from hpre]

/-- **The mailbox count is exact under any interleaving.** -/
theorem count_exact {st : Tasks (Party ι) (Op M) Op.Ans (World ι M) (Point M)}
    (h : Reachable capacity st) : ExactCount capacity st := by
  obtain ⟨hinv, hsafe⟩ := h.good
  have hbal := hinv.balance
  refine ⟨hbal, ⟨hinv.nodup, h.holds⟩, h.dequeued, fun party k ht => ?_, fun i s result ht => ?_,
    fun hf => ?_, fun i k x w _ hx => exec_reserve hx, fun i id k x w _ hc hx => exec_send hc hx⟩
  · cases party with
    | sender i => exact hinv.count_pos_of_holder ((h.holds i).mpr (.inr ⟨k, ht⟩))
    | actor =>
        have hone := h.dequeued.1.mpr ⟨k, ht⟩
        omega
  · have hs := hsafe (.sender i)
    rw [ht] at hs
    exact hs.result hinv
  · have := hinv.within hf
    omega

/-- An operation of a sender, from what it does to the channel. -/
lemma exec_sender {i : ι} {op : Op M} {x : op.Ans} {channel : Channel M}
    (ha : Atomic capacity w.channel op x channel) :
    Exec capacity (.sender i) w op x
      ⟨channel, w.books.bySender i w.channel channel op x⟩ :=
  ⟨ha, rfl⟩

/-- A message is sent into a mailbox for one, and a second one is about to be refused. -/
theorem count_exact_full : ∃ st : Tasks (Party Bool) (Op ℕ) Op.Ans (World Bool ℕ) (Point ℕ),
    Reachable ⟨1, one_pos, Nat.one_lt_two_pow (by decide)⟩ st ∧
      st.task (.sender true) = .ret (.returned (.counted 7) (.ok ())) ∧
      (∃ k, st.task (.sender false) = .call .reserve k) ∧
      ExactCount ⟨1, one_pos, Nat.one_lt_two_pow (by decide)⟩ st := by
  let capacity : Capacity := ⟨1, one_pos, Nat.one_lt_two_pow (by decide)⟩
  have h : Reachable capacity (start : Tasks (Party Bool) (Op ℕ) Op.Ans (World Bool ℕ) (Point ℕ)) :=
    .refl
  have h := h.tail (.jump (.sender true) rfl)
  have h := h.tail (.jump (.sender false) rfl)
  have h := h.tail (.answer (.sender true) rfl (exec_sender (.nextSend (.counted 7))))
  have h := h.tail (.answer (.sender false) rfl (exec_sender (.nextSend (.counted 8))))
  have h := h.tail (.answer (.sender true) rfl (exec_sender (.reserve one_pos)))
  have h := h.tail (.answer (.sender true) rfl (exec_sender (.send (.message 7) rfl)))
  exact ⟨_, h, rfl, ⟨_, rfl⟩, count_exact h⟩

end Tellus.Quota
