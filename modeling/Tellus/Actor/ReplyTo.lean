import Mathlib.Tactic
import Tellus.Actor.Ask

/-!
Every `ReplyTo` is in one place.

Of every ask there is one `ReplyTo` until it is used up, by a reply or by being dropped, and what
its oneshot channel says is what has happened to it.  Every operation of an asker or of the actor
keeps it so, and so does whatever user code does with the `ReplyTo`s it has.

* `Owned`: every `ReplyTo` is in one place, and what the oneshot channels say has happened.
* `Owes`, `Leaves`: what a party may do, and what the others leave it.
* `Owned.exec`, `Owned.env`: every step keeps every `ReplyTo` in one place.
* `Owned.leaves`, `Owned.leaves_env`: no step takes from a party what is its own.
-/

namespace Tellus.Ask

open Concurrent

variable {ι R : Type} [DecidableEq ι] {capacity : Quota.Capacity} {w w' : World ι R} {i j : ι}

/-! ### The invariant -/

/-- Every `ReplyTo` is in one place, and every reply has been sent by using one up. -/
structure Owned (w : World ι R) : Prop where
  once : ∀ j, w.tokens.count j = if (w.slot j).isOpen then 1 else 0
  replied : ∀ j, (w.replies.map Prod.fst).count j = if (w.slot j).replied then 1 else 0
  reply : ∀ j r, w.slot j = .sent r ∨ w.slot j = .taken r → (j, r) ∈ w.replies
  dead : ∀ j, w.deadLetters.count j = if (w.slot j).isRefused then 1 else 0
  late : ∀ j, w.slot j = .refused → w.waiting j = false

/-- What a party owes before an operation: an asker asks once, and sends and drops the message it
has made; the actor does not send. -/
def Owes : Party ι → World ι R → Op ι → Prop
  | .asker i, w, .makeMessage => w.slot i = .unmade
  | .asker i, w, .mailbox (.send (.message m)) => (i, m) ∈ w.sending
  | .asker _, _, .mailbox (.send (.terminated _)) => False
  | .asker _, _, .mailbox .recv => False
  | .asker _, _, .mailbox .drain => False
  | .asker _, _, .mailbox .dropReceiver => False
  | .asker i, w, .dropMessage m => (i, m) ∈ w.sending
  | .actor, _, .mailbox (.send _) => False
  | _, _, _ => True

/-- What the others may do to a oneshot channel. -/
def Becomes (waiting : Bool) (slot slot' : Slot R) : Prop :=
  slot' = slot ∨ slot = .open ∧
    ((∃ r, slot' = .sent r) ∨ slot' = .dropped ∨ slot' = .refused ∧ waiting = false)

lemma Becomes.trans {waiting : Bool} {a b c : Slot R} (h : Becomes waiting a b)
    (h' : Becomes waiting b c) : Becomes waiting a c := by
  rcases h with rfl | ⟨rfl, hb⟩
  · exact h'
  · rcases h' with rfl | ⟨rfl, -⟩
    · exact .inr ⟨rfl, hb⟩
    · rcases hb with ⟨r, hr⟩ | hr | ⟨hr, -⟩ <;> cases hr

/-- What the others leave a party: an asker its message, its receiver and what it has sent and
seen, the actor what it has drained, and a mailbox once closed. -/
def Leaves : Party ι → World ι R → World ι R → Prop
  | .asker i, w, w' => (∀ m, (i, m) ∈ w'.sending ↔ (i, m) ∈ w.sending) ∧
      w'.waiting i = w.waiting i ∧ w'.enqueued i = w.enqueued i ∧ w'.polled i = w.polled i ∧
      Becomes (w.waiting i) (w.slot i) (w'.slot i)
  | .actor, w, w' => w'.drained = w.drained ∧ w'.mailbox.connected = w.mailbox.connected

/-- The contract between the parties. -/
def asking (capacity : Quota.Capacity) :
    Contract (Party ι) (Op ι) (Op.Ans R) (World ι R) where
  exec := fun party w op x w' => Exec capacity w party op x w'
  pre := Owes
  inv := Owned
  rely := Leaves
  rely_refl := by
    rintro (i | _) w
    · exact ⟨fun _ => Iff.rfl, rfl, rfl, rfl, .inl rfl⟩
    · exact ⟨rfl, rfl⟩
  rely_trans := by
    rintro (i | _) w w' w'' h h'
    · obtain ⟨hsend, hwait, henq, hpoll, hslot⟩ := h
      obtain ⟨hsend', hwait', henq', hpoll', hslot'⟩ := h'
      exact ⟨fun m => (hsend' m).trans (hsend m), hwait'.trans hwait, henq'.trans henq,
        hpoll'.trans hpoll, hslot.trans (hwait ▸ hslot')⟩
    · exact ⟨h'.1.trans h.1, h'.2.trans h.2⟩

lemma setSlot_slot (w : World ι R) (slot : Slot R) :
    (w.setSlot i slot).slot = Function.update w.slot i slot := rfl

lemma count_tokens (w : World ι R) (j : ι) : w.tokens.count j = w.held.count j +
    (w.sending.flatMap Prod.snd).count j + (w.mailbox.queue.flatMap replyTos).count j +
    (w.drained.flatMap replyTos).count j := by
  rw [World.tokens, List.count_append, List.count_append, List.count_append]

omit [DecidableEq ι] in
lemma mem_tokens_of_held (h : j ∈ w.held) : j ∈ w.tokens := by
  simp only [World.tokens, List.mem_append]
  exact .inl (.inl (.inl h))

lemma Owned.init : Owned (World.init : World ι R) where
  once := fun _ => rfl
  replied := fun _ => rfl
  reply := fun _ _ h => by rcases h with h | h <;> cases h
  dead := fun _ => rfl
  late := fun _ h => by cases h

lemma Slot.eq_open_of_isOpen {slot : Slot R} (h : slot.isOpen = true) : slot = .open := by
  cases slot <;> first | rfl | cases h

/-- Where there is a `ReplyTo`, its slot is open. -/
lemma Owned.open_of_mem (h : Owned w) (hj : j ∈ w.tokens) : w.slot j = .open := by
  refine Slot.eq_open_of_isOpen ?_
  by_contra hnot
  have hpos := List.count_pos_iff.mpr hj
  rw [h.once, if_neg hnot] at hpos
  omega

/-! ### Moving and using up -/

/-- The `ReplyTo`s are only moved around. -/
lemma Owned.moved (h : Owned w) (hcount : ∀ j, w'.tokens.count j = w.tokens.count j)
    (hslot : w'.slot = w.slot) (hreplies : w'.replies = w.replies)
    (hdead : w'.deadLetters = w.deadLetters)
    (hwaiting : ∀ j, w.waiting j = false → w'.waiting j = false) : Owned w' where
  once := fun j => by rw [hcount, hslot, h.once]
  replied := fun j => by rw [hreplies, hslot, h.replied]
  reply := fun j r hr => by
    rw [hslot] at hr
    rw [hreplies]
    exact h.reply j r hr
  dead := fun j => by rw [hdead, hslot, h.dead]
  late := fun j hj => by
    rw [hslot] at hj
    exact hwaiting j (h.late j hj)

/-- Some `ReplyTo`s are dropped. -/
lemma Owned.dropped (h : Owned w) (gone : List ι)
    (hcount : ∀ j, w'.tokens.count j + gone.count j = w.tokens.count j)
    (hslot : ∀ j, w'.slot j = if j ∈ gone then .dropped else w.slot j)
    (hreplies : w'.replies = w.replies) (hdead : w'.deadLetters = w.deadLetters)
    (hwaiting : w'.waiting = w.waiting) : Owned w' := by
  have hopen : ∀ j ∈ gone, w.slot j = .open := by
    intro j hj
    refine h.open_of_mem (List.count_pos_iff.mp ?_)
    have := List.count_pos_iff.mpr hj
    have := hcount j
    omega
  refine ⟨fun j => ?_, fun j => ?_, fun j r hr => ?_, fun j => ?_, fun j hj => ?_⟩
  · have honce := h.once j
    have hsum := hcount j
    rw [hslot]
    by_cases hj : j ∈ gone
    · have hpos := List.count_pos_iff.mpr hj
      rw [hopen j hj] at honce
      rw [if_pos hj]
      simp only [Slot.isOpen, if_true, Bool.false_eq_true, if_false] at honce ⊢
      omega
    · have hzero := List.count_eq_zero.mpr hj
      rw [if_neg hj, ← honce]
      omega
  · rw [hreplies, hslot, h.replied]
    by_cases hj : j ∈ gone
    · rw [if_pos hj, hopen j hj]
      rfl
    · rw [if_neg hj]
  · rw [hslot] at hr
    by_cases hj : j ∈ gone
    · rw [if_pos hj] at hr
      rcases hr with hr | hr <;> cases hr
    · rw [if_neg hj] at hr
      rw [hreplies]
      exact h.reply j r hr
  · rw [hdead, hslot, h.dead]
    by_cases hj : j ∈ gone
    · rw [if_pos hj, hopen j hj]
      rfl
    · rw [if_neg hj]
  · rw [hslot] at hj
    rw [hwaiting]
    by_cases hgone : j ∈ gone
    · rw [if_pos hgone] at hj
      cases hj
    · rw [if_neg hgone] at hj
      exact h.late j hj

lemma count_other (hj : j ≠ i) : [i].count j = 0 :=
  List.count_eq_zero.mpr (by simpa using hj)

/-- A `ReplyTo` is made. -/
lemma Owned.made (h : Owned w) (hunmade : w.slot i = .unmade)
    (hcount : ∀ j, w'.tokens.count j = w.tokens.count j + [i].count j)
    (hslot : ∀ j, w'.slot j = if j = i then .open else w.slot j)
    (hreplies : w'.replies = w.replies) (hdead : w'.deadLetters = w.deadLetters)
    (hwaiting : ∀ j, j ≠ i → w'.waiting j = w.waiting j) : Owned w' := by
  refine ⟨fun j => ?_, fun j => ?_, fun j r hr => ?_, fun j => ?_, fun j hj => ?_⟩
  · rw [hcount, hslot, h.once]
    by_cases hj : j = i
    · subst hj
      rw [if_pos rfl, hunmade, List.count_singleton_self]
      rfl
    · rw [if_neg hj, count_other hj, Nat.add_zero]
  · rw [hreplies, hslot, h.replied]
    by_cases hj : j = i
    · rw [if_pos hj, hj, hunmade]
      rfl
    · rw [if_neg hj]
  · rw [hslot] at hr
    by_cases hj : j = i
    · rw [if_pos hj] at hr
      rcases hr with hr | hr <;> cases hr
    · rw [if_neg hj] at hr
      rw [hreplies]
      exact h.reply j r hr
  · rw [hdead, hslot, h.dead]
    by_cases hj : j = i
    · rw [if_pos hj, hj, hunmade]
      rfl
    · rw [if_neg hj]
  · rw [hslot] at hj
    by_cases hji : j = i
    · rw [if_pos hji] at hj
      cases hj
    · rw [if_neg hji] at hj
      rw [hwaiting j hji]
      exact h.late j hj

/-- The `ReplyTo`s of a message somebody is sending. -/
lemma count_erase_sending {sending : List (ι × Message ι)} {m : Message ι}
    (h : (i, m) ∈ sending) (j : ι) :
    (sending.flatMap Prod.snd).count j =
      m.count j + ((sending.erase (i, m)).flatMap Prod.snd).count j := by
  rw [((List.perm_cons_erase h).flatMap_right Prod.snd).count_eq, List.flatMap_cons,
    List.count_append]

lemma count_erase_held {held : List ι} (h : i ∈ held) (j : ι) :
    held.count j = [i].count j + (held.erase i).count j := by
  rw [(List.perm_cons_erase h).count_eq, ← List.singleton_append, List.count_append]

/-- A reply is sent, which uses up its `ReplyTo`. -/
lemma Owned.sent (h : Owned w) (hi : i ∈ w.held) (r : R) : Owned (w.reply i r) := by
  have hopen : w.slot i = .open :=
    h.open_of_mem (mem_tokens_of_held hi)
  have hcount : ∀ j, (w.reply i r).tokens.count j + [i].count j = w.tokens.count j := by
    intro j
    have hheld := count_erase_held hi j
    rw [count_tokens, count_tokens, World.reply]
    split <;> dsimp only <;> omega
  have hslot : ∀ j, (w.reply i r).slot j =
      if j = i then (if w.waiting i then .sent r else .refused) else w.slot j := by
    intro j
    rw [World.reply]
    by_cases hj : j = i <;> split <;> simp [hj]
  have hreplies : (w.reply i r).replies = (i, r) :: w.replies := by
    rw [World.reply]
    split <;> rfl
  have hdead : (w.reply i r).deadLetters =
      if w.waiting i then w.deadLetters else i :: w.deadLetters := by
    rw [World.reply]
    split <;> rfl
  have hwaiting : (w.reply i r).waiting = w.waiting := by
    rw [World.reply]
    split <;> rfl
  refine ⟨fun j => ?_, fun j => ?_, fun j r' hr => ?_, fun j => ?_, fun j hj => ?_⟩
  · have honce := h.once j
    have hsum := hcount j
    rw [hslot]
    by_cases hj : j = i
    · subst hj
      rw [hopen] at honce
      simp only [Slot.isOpen, if_true, List.count_singleton_self] at honce hsum
      rw [if_pos rfl]
      split <;> simp only [Slot.isOpen, Bool.false_eq_true, if_false] <;> omega
    · rw [count_other hj] at hsum
      rw [if_neg hj, ← honce]
      omega
  · have hrep := h.replied j
    rw [hslot, hreplies, List.map_cons]
    by_cases hj : j = i
    · subst hj
      rw [hopen] at hrep
      rw [List.count_cons_self, hrep, if_pos rfl]
      cases w.waiting j <;> rfl
    · rw [if_neg hj, List.count_cons_of_ne fun hij => hj hij.symm, hrep]
  · rw [hslot] at hr
    rw [hreplies]
    by_cases hj : j = i
    · subst hj
      rw [if_pos rfl] at hr
      split at hr
      · obtain rfl : r = r' := by simpa using hr
        exact List.mem_cons_self
      · simp at hr
    · rw [if_neg hj] at hr
      exact List.mem_cons_of_mem _ (h.reply j r' hr)
  · have hd := h.dead j
    rw [hslot, hdead]
    by_cases hj : j = i
    · subst hj
      rw [hopen] at hd
      rw [if_pos rfl]
      split
      · exact hd
      · rw [List.count_cons_self, hd]
        rfl
    · rw [if_neg hj, ← hd]
      split
      · rfl
      · exact List.count_cons_of_ne fun hij => hj hij.symm
  · rw [hslot] at hj
    rw [hwaiting]
    by_cases hji : j = i
    · subst hji
      rw [if_pos rfl] at hj
      split at hj
      · cases hj
      · rename_i hnot
        simpa using hnot
    · rw [if_neg hji] at hj
      exact h.late j hj

/-! ### One operation -/

/-- An operation on the mailbox moves `ReplyTo`s around. -/
lemma Owned.mailbox (h : Owned w) {party : Party ι} {op : Quota.Op (Message ι)} {x : op.Ans}
    {mailbox : Quota.Channel (Message ι)} (hpre : Owes party w (.mailbox op))
    (hx : Quota.Atomic capacity w.mailbox op x mailbox) :
    Owned (w.after party mailbox op x) := by
  cases hx with
  | send item hconnected =>
      cases party with
      | actor => exact hpre.elim
      | asker i =>
          cases item with
          | terminated id => exact hpre.elim
          | message m =>
              refine h.moved (fun j => ?_) rfl rfl rfl fun _ hj => hj
              have := count_erase_sending hpre j
              simp only [count_tokens, World.after, List.flatMap_append, List.flatMap_singleton,
                List.count_append, replyTos]
              omega
  | sendFails item hconnected =>
      cases item <;> exact h.moved (fun _ => rfl) rfl rfl rfl fun _ hj => hj
  | @recv item rest hq =>
      refine h.moved (fun j => ?_) rfl rfl rfl fun _ hj => hj
      simp only [count_tokens, World.after, hq, List.flatMap_cons, List.count_append]
      omega
  | drain =>
      refine h.moved (fun j => ?_) rfl rfl rfl fun _ hj => hj
      simp only [count_tokens, World.after, List.flatMap_append, List.flatMap_nil,
        List.count_append, List.count_nil]
      omega
  | _ => exact h.moved (fun _ => rfl) rfl rfl rfl fun _ hj => hj

/-- **Every operation a party may do** keeps every `ReplyTo` in one place. -/
lemma Owned.exec (h : Owned w) {party : Party ι} {op : Op ι} {x : op.Ans R}
    (hpre : Owes party w op) (hx : Exec capacity w party op x w') : Owned w' := by
  cases hx with
  | @makeMessage i m held hperm =>
      refine h.made hpre (fun j => ?_) (fun j => Function.update_apply ..) rfl rfl fun j hj =>
        Function.update_of_ne hj ..
      have := hperm.count_eq j
      rw [List.count_append, ← List.singleton_append, List.count_append] at this
      simp only [count_tokens, List.flatMap_cons, List.count_append]
      omega
  | mailbox hx => exact h.mailbox hpre hx
  | @dropMessage i m kept gone hperm =>
      refine h.dropped gone (fun j => ?_) (fun _ => rfl) rfl rfl rfl
      have hsend := count_erase_sending hpre j
      have hm := hperm.count_eq j
      rw [List.count_append] at hm
      simp only [count_tokens, World.release, List.count_append]
      omega
  | pending hslot => exact h.moved (fun _ => rfl) rfl rfl rfl fun _ hj => hj
  | @replied i r hslot =>
      have hsame : ∀ {β : Type} (f : Slot R → β), f (.taken r) = f (.sent r) →
          ∀ j, f ((w.setSlot i (.taken r)).slot j) = f (w.slot j) := by
        intro β f hf j
        by_cases hji : j = i
        · rw [hji, setSlot_slot, Function.update_self, hf, hslot]
        · rw [setSlot_slot, Function.update_of_ne hji]
      refine ⟨fun j => ?_, fun j => ?_, fun j r' hr => ?_, fun j => ?_, fun j hj => ?_⟩
      · rw [hsame Slot.isOpen rfl]
        exact h.once j
      · rw [hsame Slot.replied rfl]
        exact h.replied j
      · by_cases hji : j = i
        · subst hji
          rw [setSlot_slot, Function.update_self] at hr
          obtain rfl : r = r' := by simpa using hr
          exact h.reply j r (.inl hslot)
        · rw [setSlot_slot, Function.update_of_ne hji] at hr
          exact h.reply j r' hr
      · rw [hsame Slot.isRefused rfl]
        exact h.dead j
      · by_cases hji : j = i
        · subst hji
          rw [setSlot_slot, Function.update_self] at hj
          cases hj
        · rw [setSlot_slot, Function.update_of_ne hji] at hj
          exact h.late j hj
  | closed hslot => exact h
  | pollTimer elapsed => exact h
  | cancelled b => exact h
  | @dropReply i =>
      refine h.moved (fun _ => rfl) rfl rfl rfl fun j hj => ?_
      by_cases hji : j = i
      · subst hji
        exact Function.update_self ..
      · exact (Function.update_of_ne hji ..).trans hj
  | @dropDrained item rest hdrained kept gone hperm =>
      refine h.dropped gone (fun j => ?_) (fun _ => rfl) rfl rfl rfl
      have hm := hperm.count_eq j
      rw [List.count_append] at hm
      simp only [count_tokens, World.release, hdrained, List.flatMap_cons, List.count_append]
      omega
  | allDropped hdrained => exact h

/-- User code and the other senders keep every `ReplyTo` in one place. -/
lemma Owned.env (h : Owned w) (hx : Env w w') : Owned w' := by
  cases hx with
  | reply r hi => exact h.sent hi r
  | @drop i hi =>
      refine h.dropped [i] (fun j => ?_) (fun j => ?_) rfl rfl rfl
      · have := count_erase_held hi j
        simp only [count_tokens, World.setSlot]
        omega
      · simp [World.setSlot, Function.update_apply]
  | @tell m held hconnected hperm =>
      refine h.moved (fun j => ?_) rfl rfl rfl fun _ hj => hj
      have := hperm.count_eq j
      rw [List.count_append] at this
      simp only [count_tokens, List.flatMap_append, List.flatMap_singleton, List.count_append,
        replyTos]
      omega
  | signal id hconnected =>
      refine h.moved (fun j => ?_) rfl rfl rfl fun _ hj => hj
      simp [count_tokens, replyTos]
  | count n => exact h.moved (fun _ => rfl) rfl rfl rfl fun _ hj => hj

/-! ### What the others see of it -/

omit [DecidableEq ι] in
/-- Nothing an asker relies on has changed. -/
lemma leaves_asker (hsending : w'.sending = w.sending) (hwaiting : w'.waiting = w.waiting)
    (henqueued : w'.enqueued = w.enqueued) (hpolled : w'.polled = w.polled)
    (hslot : Becomes (w.waiting j) (w.slot j) (w'.slot j)) : Leaves (.asker j) w w' :=
  ⟨fun m => by rw [hsending], by rw [hwaiting], by rw [henqueued], by rw [hpolled], hslot⟩

/-- Where `ReplyTo`s are dropped, their slots were open. -/
lemma Owned.becomes_release (h : Owned w) {gone : List ι} (hgone : ∀ j ∈ gone, j ∈ w.tokens)
    (kept : List ι) : Becomes (w.waiting j) (w.slot j) ((w.release kept gone).slot j) := by
  by_cases hj : j ∈ gone
  · exact .inr ⟨h.open_of_mem (hgone j hj), .inr (.inl (if_pos hj))⟩
  · exact .inl (if_neg hj)

omit [DecidableEq ι] in
lemma mem_tokens_of_sending {m : Message ι} (h : (i, m) ∈ w.sending) (hj : j ∈ m) :
    j ∈ w.tokens := by
  simp only [World.tokens, List.mem_append, List.mem_flatMap]
  exact .inl (.inl (.inr ⟨(i, m), h, hj⟩))

omit [DecidableEq ι] in
lemma mem_tokens_of_drained {item : Incoming (Message ι)} (h : item ∈ w.drained)
    (hj : j ∈ replyTos item) : j ∈ w.tokens := by
  simp only [World.tokens, List.mem_append, List.mem_flatMap]
  exact .inr ⟨item, h, hj⟩

/-- The messages of another asker stay where they are. -/
lemma mem_erase_sending {sending : List (ι × Message ι)} {m m' : Message ι} (hj : j ≠ i) :
    (j, m') ∈ sending.erase (i, m) ↔ (j, m') ∈ sending :=
  List.mem_erase_of_ne fun heq => hj (congrArg Prod.fst heq)

/-- An operation on the mailbox leaves the others theirs. -/
lemma leaves_mailbox {party other : Party ι} {op : Quota.Op (Message ι)} {x : op.Ans}
    {mailbox : Quota.Channel (Message ι)} (hpre : Owes party w (.mailbox op))
    (hx : Quota.Atomic capacity w.mailbox op x mailbox) (hne : other ≠ party) :
    Leaves other w (w.after party mailbox op x) := by
  cases other with
  | actor =>
      cases party with
      | actor => exact absurd rfl hne
      | asker i =>
          cases hx with
          | send item => cases item <;> exact ⟨rfl, rfl⟩
          | sendFails item => cases item <;> exact ⟨rfl, rfl⟩
          | recv => exact hpre.elim
          | drain => exact hpre.elim
          | dropReceiver => exact hpre.elim
          | _ => exact ⟨rfl, rfl⟩
  | asker j =>
      cases hx with
      | send item =>
          cases party with
          | actor => exact hpre.elim
          | asker i =>
              have hj : j ≠ i := fun hji => hne (by rw [hji])
              cases item with
              | terminated id => exact hpre.elim
              | message m =>
                  exact ⟨fun m' => mem_erase_sending hj, rfl, Function.update_of_ne hj .., rfl,
                    .inl rfl⟩
      | sendFails item => cases item <;> exact leaves_asker rfl rfl rfl rfl (.inl rfl)
      | _ => exact leaves_asker rfl rfl rfl rfl (.inl rfl)

/-- **Every operation a party may do leaves the others theirs.** -/
lemma Owned.leaves (h : Owned w) {party other : Party ι} {op : Op ι} {x : op.Ans R}
    (hpre : Owes party w op) (hx : Exec capacity w party op x w') (hne : other ≠ party) :
    Leaves other w w' := by
  have hother : ∀ {i j}, other = .asker j → party = .asker i → j ≠ i := by
    rintro i j rfl rfl rfl
    exact hne rfl
  cases hx with
  | mailbox hx => exact leaves_mailbox hpre hx hne
  | @makeMessage i m held hperm =>
      cases other with
      | actor => exact ⟨rfl, rfl⟩
      | asker j =>
          have hj := hother rfl rfl
          refine ⟨fun m' => ?_, Function.update_of_ne hj .., rfl, rfl,
            .inl (Function.update_of_ne hj ..)⟩
          simp [hj]
  | @dropMessage i m kept gone hperm =>
      cases other with
      | actor => exact ⟨rfl, rfl⟩
      | asker j =>
          refine ⟨fun m' => mem_erase_sending (hother rfl rfl), rfl, rfl, rfl,
            h.becomes_release (fun k hk => mem_tokens_of_sending hpre (hperm.mem_iff.mpr ?_)) kept⟩
          exact List.mem_append_right _ hk
  | @pending i hslot =>
      cases other with
      | actor => exact ⟨rfl, rfl⟩
      | asker j =>
          exact ⟨fun _ => Iff.rfl, rfl, rfl, Function.update_of_ne (hother rfl rfl) .., .inl rfl⟩
  | @replied i r hslot =>
      cases other with
      | actor => exact ⟨rfl, rfl⟩
      | asker j =>
          exact leaves_asker rfl rfl rfl rfl (.inl (Function.update_of_ne (hother rfl rfl) ..))
  | @dropReply i =>
      cases other with
      | actor => exact ⟨rfl, rfl⟩
      | asker j =>
          exact ⟨fun _ => Iff.rfl, Function.update_of_ne (hother rfl rfl) .., rfl, rfl, .inl rfl⟩
  | @dropDrained item rest hdrained kept gone hperm =>
      cases other with
      | actor => exact absurd rfl hne
      | asker j =>
          refine leaves_asker rfl rfl rfl rfl (h.becomes_release (fun k hk =>
            mem_tokens_of_drained (by rw [hdrained]; exact List.mem_cons_self)
              (hperm.mem_iff.mpr ?_)) kept)
          exact List.mem_append_right _ hk
  | closed | pollTimer | cancelled | allDropped =>
      cases other with
      | actor => exact ⟨rfl, rfl⟩
      | asker j => exact leaves_asker rfl rfl rfl rfl (.inl rfl)

/-- User code and the other senders leave every party theirs. -/
lemma Owned.leaves_env (h : Owned w) (hx : Env w w') (party : Party ι) : Leaves party w w' := by
  cases hx with
  | @reply i r hi =>
      have hopen := h.open_of_mem (mem_tokens_of_held hi)
      cases party with
      | actor =>
          rw [World.reply]
          split <;> exact ⟨rfl, rfl⟩
      | asker j =>
          rw [World.reply]
          by_cases hj : j = i
          · subst hj
            split
            · refine leaves_asker rfl rfl rfl rfl (.inr ⟨hopen, .inl ⟨r, ?_⟩⟩)
              exact Function.update_self ..
            · rename_i hnot
              refine leaves_asker rfl rfl rfl rfl (.inr ⟨hopen, .inr (.inr ⟨?_, ?_⟩)⟩)
              · exact Function.update_self ..
              · simpa using hnot
          · split <;>
              exact leaves_asker rfl rfl rfl rfl (.inl (Function.update_of_ne hj ..))
  | @drop i hi =>
      cases party with
      | actor => exact ⟨rfl, rfl⟩
      | asker j =>
          refine leaves_asker rfl rfl rfl rfl ?_
          by_cases hj : j = i
          · subst hj
            exact .inr ⟨h.open_of_mem (mem_tokens_of_held hi),
              .inr (.inl (Function.update_self ..))⟩
          · exact .inl (Function.update_of_ne hj ..)
  | tell | signal | count =>
      cases party with
      | actor => exact ⟨rfl, rfl⟩
      | asker j => exact leaves_asker rfl rfl rfl rfl (.inl rfl)

end Tellus.Ask
