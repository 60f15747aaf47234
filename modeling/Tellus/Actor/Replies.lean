import Mathlib.Tactic
import Tellus.Actor.ReplyTo

/-!
What the result of an ask says, and what a pending ask waits for.

What an asker returns is read off its oneshot channel, which nobody but the owner of its `ReplyTo`
can change.

* `Asked`, `Returned`: what is true of an ask which is under way, and of one which has returned.
* `ask_results`: the results of asks, in every reachable state.
* `pending_asks`: where the `ReplyTo` of a pending ask is, and which requests are stranded.
-/

namespace Tellus.Ask

open Concurrent

variable {ι R : Type} [DecidableEq ι] {capacity : Quota.Capacity} {w w' : World ι R} {i j : ι}
  {within : ι → Machine.Duration}

/-! ### An ask -/

/-- The request of an ask which ended so has entered the mailbox. -/
def wasSent : Except AskError R → Bool
  | .error .mailboxFull => false
  | .error .actorTerminated => false
  | _ => true

/-- An ask is under way. -/
structure Asked (i : ι) (enqueued : Bool) (w : World ι R) : Prop where
  made : w.slot i ≠ .unmade
  untaken : ∀ r, w.slot i ≠ .taken r
  waiting : w.waiting i = true
  enqueued : w.enqueued i = enqueued

/-- What is true of an ask by its result. -/
structure Returned (within : Machine.Duration) (i : ι) (result : Except AskError R)
    (w : World ι R) : Prop where
  made : w.slot i ≠ .unmade
  ok : ∀ r, result = .ok r → w.slot i = .taken r
  failed : ∀ r, (∀ r', result ≠ .ok r') → w.slot i ≠ .taken r
  enqueued : w.enqueued i = wasSent result
  noReply : result = .error .noReply → w.slot i = .dropped
  timeout : ∀ d, result = .error (.timeout d) → d = within ∧ ∀ r, (i, r) ∉ w.polled i

section Asks

variable {within : Machine.Duration} {m : Message ι} {result : Except AskError R}

lemma Becomes.made {waiting : Bool} {slot slot' : Slot R} (h : Becomes waiting slot slot')
    (hslot : slot ≠ .unmade) : slot' ≠ .unmade := by
  rcases h with rfl | ⟨-, ⟨r, rfl⟩ | rfl | ⟨rfl, -⟩⟩
  · exact hslot
  all_goals simp

lemma Becomes.untaken {waiting : Bool} {slot slot' : Slot R} (h : Becomes waiting slot slot')
    {r : R} (hslot : slot ≠ .taken r) : slot' ≠ .taken r := by
  rcases h with rfl | ⟨-, ⟨r', rfl⟩ | rfl | ⟨rfl, -⟩⟩
  · exact hslot
  all_goals simp

/-- A channel whose sender is used up does not change. -/
lemma Becomes.eq {waiting : Bool} {slot slot' : Slot R} (h : Becomes waiting slot slot')
    (hslot : slot ≠ .open) : slot' = slot :=
  h.resolve_right fun hopen => hslot hopen.1

lemma stable_asked (enqueued : Bool) :
    Stable (asking (R := R) capacity) (.asker i) (Asked i enqueued) := by
  rintro w w' h ⟨-, hwaiting, henq, -, hslot⟩ -
  exact ⟨hslot.made h.made, fun r => hslot.untaken (h.untaken r), hwaiting.trans h.waiting,
    henq.trans h.enqueued⟩

lemma stable_sending : Stable (asking (R := R) capacity) (.asker i)
    fun w => (i, m) ∈ w.sending :=
  fun _ _ h hr _ => (hr.1 m).mpr h

lemma stable_returned : Stable (asking (R := R) capacity) (.asker i)
    (Returned within i result) := by
  rintro w w' h ⟨-, -, henq, hpolled, hslot⟩ -
  refine ⟨hslot.made h.made, fun r hr => ?_, fun r hr => hslot.untaken (h.failed r hr),
    henq.trans h.enqueued, fun hr => ?_, fun d hr => ?_⟩
  · rw [hslot.eq (by rw [h.ok r hr]; simp), h.ok r hr]
  · rw [hslot.eq (by rw [h.noReply hr]; simp), h.noReply hr]
  · rw [hpolled]
    exact h.timeout d hr

omit [DecidableEq ι] in
lemma Asked.keep {enqueued : Bool} (h : Asked i enqueued w) (hslot : w'.slot = w.slot)
    (hwaiting : w'.waiting = w.waiting) (henqueued : w'.enqueued = w.enqueued) :
    Asked i enqueued w' :=
  ⟨by rw [hslot]; exact h.made, by rw [hslot]; exact h.untaken, by rw [hwaiting]; exact h.waiting,
    by rw [henqueued]; exact h.enqueued⟩

omit [DecidableEq ι] in
/-- A failed send has not sent anything. -/
lemma Asked.returned_of_send (h : Asked i false w) (e : SendError) :
    Returned within i (.error (.ofSend e)) w := by
  refine ⟨h.made, fun r hr => (by cases hr), fun r _ => h.untaken r, ?_, fun hr => ?_,
    fun d hr => ?_⟩
  · rw [h.enqueued]
    cases e <;> rfl
  · cases e <;> cases hr
  · cases e <;> cases hr

/-- What holds of a party at each of its places. -/
def Standing (within : ι → Machine.Duration) : Party ι → World ι R → Point R → Prop
  | .asker i, w, .start => w.slot i = .unmade ∧ w.enqueued i = false
  | .asker i, w, .awaiting => Asked i true w
  | .asker i, w, .returned result => Returned (within i) i result w ∧ w.waiting i = false
  | .asker i, w, .cancelled => w.enqueued i = true ∧ w.waiting i = false
  | .actor, _, .running => True
  | .actor, w, .dropping => w.mailbox.connected = false
  | .actor, w, .terminated => w.mailbox.connected = false ∧ w.drained = []
  | _, _, _ => False

end Asks

/-- Returning drops the receiver. -/
lemma finish_safe {result : Except AskError R} (h : Returned (within i) i result w) :
    Safe (asking capacity) (.asker i) (Standing within (.asker i)) (finish result) w := by
  refine Safe.call_of stable_returned h fun t hinv ht => ⟨trivial, fun x t' hx hinv' => ?_⟩
  cases hx with
  | dropReply =>
      have hstable : Stable (asking (R := R) capacity) (.asker i)
          fun w => Returned (within i) i result w ∧ w.waiting i = false :=
        stable_returned.and fun _ _ h hr _ => hr.2.1.trans h
      refine Safe.ret_of hstable ⟨⟨ht.made, ht.ok, ht.failed, ht.enqueued, ht.noReply, ht.timeout⟩,
        Function.update_self ..⟩ fun _ _ ht => ht

/-- No reply has been sent as long as there is a `ReplyTo`. -/
lemma Owned.not_replied (h : Owned w) (hslot : (w.slot i).replied = false) (r : R) :
    (i, r) ∉ w.replies := by
  intro hmem
  have hpos := List.count_pos_iff.mpr (List.mem_map_of_mem (f := Prod.fst) hmem)
  rw [h.replied, hslot] at hpos
  simp at hpos

/-- **One poll**: the reply if there is one, an error if there cannot be one, and a timeout only
if there was none. -/
lemma pollReply_safe (h : Asked i true w) :
    Safe (asking (R := R) capacity) (.asker i) (Standing within (.asker i))
      (pollReply (within i)) w := by
  refine Safe.call_of (stable_asked true) h fun t hinv ht => ⟨trivial, fun x t' hx hinv' => ?_⟩
  cases hx with
  | @replied i r hslot =>
      refine finish_safe ⟨?_, fun r' hr => ?_, fun r' hr => absurd rfl (hr r), ht.enqueued,
        (by rintro ⟨⟩), (by rintro _ ⟨⟩)⟩
      · rw [setSlot_slot, Function.update_self]
        simp
      · cases hr
        rw [setSlot_slot, Function.update_self]
  | closed hslot =>
      exact finish_safe ⟨ht.made, (by rintro _ ⟨⟩), fun r _ => ht.untaken r, ht.enqueued,
        fun _ => hslot, (by rintro _ ⟨⟩)⟩
  | @pending i hslot =>
      have hstable : Stable (asking (R := R) capacity) (.asker i)
          fun w => Asked i true w ∧ ∀ r, (i, r) ∉ w.polled i :=
        (stable_asked true).and fun _ _ h hr _ => by
          rw [hr.2.2.2.1]
          exact h
      have hunseen : ∀ r, (i, r) ∉ t.replies := hinv.not_replied (by rw [hslot]; rfl)
      refine Safe.call_of hstable ⟨ht.keep rfl rfl rfl, ?_⟩
        fun u hinv hu => ⟨trivial, fun elapsed u' hx hinv' => ?_⟩
      · dsimp only
        rwa [Function.update_self]
      · cases hx with
        | pollTimer elapsed =>
            cases elapsed with
            | true =>
                refine finish_safe ⟨hu.1.made, (by rintro _ ⟨⟩), fun r _ => hu.1.untaken r,
                  hu.1.enqueued, (by rintro ⟨⟩), fun d hd => ?_⟩
                cases hd
                exact ⟨rfl, hu.2⟩
            | false => exact Safe.ret_of (stable_asked true) hu.1 fun _ _ ht => ht

/-- **Sending a request**: it enters the mailbox, or it is dropped. -/
lemma trySendMessage_safe {m : Message ι} (h : Asked i false w) (hm : (i, m) ∈ w.sending) :
    Safe (asking (R := R) capacity) (.asker i)
      (fun w result => Asked i (match result with | .ok _ => true | .error _ => false) w)
      (trySendMessage m) w := by
  have hstable : Stable (asking (R := R) capacity) (.asker i)
      fun w => Asked i false w ∧ (i, m) ∈ w.sending := (stable_asked false).and stable_sending
  -- what is left once the message has been dropped
  have hdropped : ∀ {t t' : World ι R} {x : Unit}, Owned t → Asked i false t →
      (i, m) ∈ t.sending → Exec capacity t (.asker i) (.dropMessage m) x t' →
      Asked i false t' := by
    intro t t' x hinv ht hm hx
    cases hx with
    | dropMessage kept gone hperm =>
        have hgone : ∀ k ∈ gone, k ∈ t.tokens := fun k hk =>
          mem_tokens_of_sending hm (hperm.mem_iff.mpr (List.mem_append_right _ hk))
        have hbecomes := hinv.becomes_release (j := i) hgone kept
        exact ⟨hbecomes.made ht.made, fun r => hbecomes.untaken (ht.untaken r), ht.waiting,
          ht.enqueued⟩
  refine Safe.call_of hstable ⟨h, hm⟩ fun t hinv ht => ⟨trivial, fun reserved t' hx hinv' => ?_⟩
  have ht' : Asked i false t' ∧ (i, m) ∈ t'.sending := by
    cases hx with
    | mailbox hx => cases hx <;> exact ⟨ht.1.keep rfl rfl rfl, ht.2⟩
  cases reserved with
  | false =>
      refine Safe.call_of hstable ht' fun t hinv ht => ⟨trivial, fun gone t' hx hinv' => ?_⟩
      have ht' : Asked i false t' ∧ (i, m) ∈ t'.sending := by
        cases hx with
        | mailbox hx =>
            cases hx
            exact ⟨ht.1.keep rfl rfl rfl, ht.2⟩
      refine Safe.call_of hstable ht' fun t hinv ht => ⟨ht.2, fun x t' hx hinv' => ?_⟩
      have hfailed := hdropped hinv ht.1 ht.2 hx
      cases gone <;> exact Safe.ret_of (stable_asked false) hfailed fun _ _ ht => ht
  | true =>
      refine Safe.call_of hstable ht' fun t hinv ht => ⟨ht.2, fun sent t' hx hinv' => ?_⟩
      cases hx with
      | mailbox hx =>
          cases hx with
          | send _ hconnected =>
              exact Safe.ret_of (stable_asked true)
                ⟨ht.1.made, ht.1.untaken, ht.1.waiting, Function.update_self ..⟩ fun _ _ ht => ht
          | sendFails _ hconnected =>
              refine Safe.call_of hstable
                ⟨ht.1.keep rfl rfl rfl, ht.2⟩
                fun t hinv ht => ⟨ht.2, fun x t' hx hinv' => ?_⟩
              have hfailed := hdropped hinv ht.1 ht.2 hx
              refine Safe.call_of (stable_asked false) hfailed
                fun t hinv ht => ⟨trivial, fun x t' hx hinv' => ?_⟩
              cases hx with
              | mailbox hx =>
                  cases hx
                  exact Safe.ret_of (stable_asked false)
                    (ht.keep rfl rfl rfl) fun _ _ ht => ht

/-! ### Every run -/

lemma stable_unasked : Stable (asking (R := R) capacity) (.asker i)
    fun w => w.slot i = .unmade ∧ w.enqueued i = false := by
  rintro w w' ⟨hslot, henqueued⟩ ⟨-, -, henq, -, hbecomes⟩ -
  exact ⟨(hbecomes.eq (by rw [hslot]; simp)).trans hslot, henq.trans henqueued⟩

lemma stable_cancelled : Stable (asking (R := R) capacity) (.asker i)
    fun w => w.enqueued i = true ∧ w.waiting i = false :=
  fun _ _ h hr _ => ⟨hr.2.2.1.trans h.1, hr.2.1.trans h.2⟩

/-- An ask, up to where it is suspended. -/
lemma ask_safe (hslot : w.slot i = .unmade) (henqueued : w.enqueued i = false) :
    Safe (asking (R := R) capacity) (.asker i) (Standing within (.asker i))
      (ask (within i)) w := by
  refine Safe.call_of stable_unasked ⟨hslot, henqueued⟩
    fun t hinv ht => ⟨ht.1, fun m t' hx hinv' => ?_⟩
  have hasked : Asked i false t' ∧ (i, m) ∈ t'.sending := by
    cases hx with
    | makeMessage hperm =>
        refine ⟨⟨by simp, fun r => by simp, Function.update_self .., ht.2⟩, List.mem_cons_self⟩
  exact (trySendMessage_safe hasked.1 hasked.2).bind fun t result hinv ht => by
    cases result with
    | ok => exact pollReply_safe ht
    | error e => exact finish_safe (ht.returned_of_send e)

/-- The suspended ask is dropped, or polled again. -/
lemma awaitReply_safe (h : Asked i true w) :
    Safe (asking (R := R) capacity) (.asker i) (Standing within (.asker i))
      (awaitReply (within i)) w := by
  refine Safe.call_of (stable_asked true) h fun t hinv ht => ⟨trivial, fun b t' hx hinv' => ?_⟩
  cases hx with
  | cancelled b =>
      cases b with
      | false => exact pollReply_safe ht
      | true =>
          refine Safe.call_of (stable_asked true) ht fun t hinv ht => ⟨trivial, ?_⟩
          intro x t' hx hinv'
          cases hx with
          | dropReply =>
              exact Safe.ret_of stable_cancelled ⟨ht.enqueued, Function.update_self ..⟩
                fun _ _ ht => ht

/-- What the actor knows of its mailbox and of what it has drained. -/
lemma stable_actor (connected : Bool) (P : List (Incoming (Message ι)) → Prop) :
    Stable (asking (R := R) capacity) (.actor : Party ι)
      fun w => w.mailbox.connected = connected ∧ P w.drained :=
  fun _ _ h hr _ => ⟨hr.2.trans h.1, hr.1 ▸ h.2⟩

lemma stable_true {party : Party ι} : Stable (asking (R := R) capacity) party fun _ => True :=
  fun _ _ _ _ _ => trivial

/-- The actor receives, or moves out what is queued and drops the receiver. -/
lemma running_safe : Safe (asking (R := R) capacity) .actor (Standing within .actor)
    (code within .actor .running) w := by
  refine Safe.call_of stable_true trivial fun t hinv _ => ⟨trivial, fun b t' hx hinv' => ?_⟩
  have hret : ∀ {t : World ι R}, Safe (asking capacity) .actor (Standing within .actor)
      (.ret .running) t := Safe.ret_of stable_true trivial fun _ _ _ => trivial
  cases b with
  | true =>
      refine Safe.call_of stable_true trivial fun t hinv _ => ⟨trivial, fun x t' hx hinv' => ?_⟩
      rcases x with _ | (m | id)
      · exact hret
      · exact Safe.call_of stable_true trivial fun t hinv _ => ⟨trivial, fun _ _ _ _ => hret⟩
      · exact hret
  | false =>
      refine Safe.call_of stable_true trivial fun t hinv _ => ⟨trivial, fun x t' hx hinv' => ?_⟩
      refine Safe.call_of stable_true trivial fun t hinv _ => ⟨trivial, fun x t' hx hinv' => ?_⟩
      cases hx with
      | mailbox hx =>
          cases hx
          exact Safe.ret_of (stable_actor false fun _ => True) ⟨rfl, trivial⟩ fun _ _ ht => ht.1

/-- The actor drops what it has drained. -/
lemma dropping_safe (h : w.mailbox.connected = false) :
    Safe (asking (R := R) capacity) .actor (Standing within .actor)
      (code within .actor .dropping) w := by
  refine Safe.call_of (stable_actor false fun _ => True) ⟨h, trivial⟩
    fun t hinv ht => ⟨trivial, fun b t' hx hinv' => ?_⟩
  cases hx with
  | dropDrained hdrained kept gone hperm =>
      exact Safe.ret_of (stable_actor false fun _ => True) ⟨ht.1, trivial⟩ fun _ _ ht => ht.1
  | allDropped hdrained =>
      exact Safe.ret_of (stable_actor false fun drained => drained = []) ⟨ht.1, hdrained⟩
        fun _ _ ht => ht

/-- **Every party keeps to what it owes.** -/
lemma code_safe (party : Party ι) (w : World ι R) (pt : Point R)
    (hpt : Standing within party w pt) :
    Safe (asking capacity) party (Standing within party) (code within party pt) w := by
  cases party with
  | asker i =>
      cases pt with
      | start => exact ask_safe hpt.1 hpt.2
      | awaiting => exact awaitReply_safe hpt
      | returned result =>
          exact Safe.ret_of (stable_returned.and fun _ _ h hr _ => hr.2.1.trans h) hpt
            fun _ _ ht => ht
      | cancelled => exact Safe.ret_of stable_cancelled hpt fun _ _ ht => ht
      | _ => exact hpt.elim
  | actor =>
      cases pt with
      | running => exact running_safe
      | dropping => exact dropping_safe hpt
      | terminated =>
          exact Safe.ret_of (stable_actor false fun drained => drained = []) hpt fun _ _ ht => ht
      | _ => exact hpt.elim

variable {st st' : Tasks (Party ι) (Op ι) (Op.Ans R) (World ι R) (Point R)}

/-- Every reachable state is in order. -/
lemma Reachable.good (h : Reachable capacity within st) :
    Tasks.Good (asking capacity) (Standing within) st := by
  refine Tasks.invariant (C := asking capacity) (fun party w pt _ => code_safe party w pt)
    (fun party w op x w' hinv hpre hx =>
      ⟨hinv.exec hpre hx, fun other hne => hinv.leaves hpre hx hne⟩)
    (fun w w' hinv hx => ⟨hinv.env hx, hinv.leaves_env hx⟩) ?_ h
  refine ⟨Owned.init, fun party => ?_⟩
  cases party with
  | asker i => exact Safe.ret_of stable_unasked ⟨rfl, rfl⟩ fun _ _ ht => ht
  | actor => exact Safe.ret_of stable_true trivial fun _ _ _ => trivial

/-- A party at one of its places. -/
lemma Reachable.standing (h : Reachable capacity within st) {party : Party ι} {pt : Point R}
    (hpt : st.task party = .ret pt) : Standing within party st.shared pt := by
  have hsafe := h.good.2 party
  rw [hpt] at hsafe
  exact hsafe.result h.good.1

/-! ### Results -/

/-- There is at most one reply to an ask. -/
lemma Owned.reply_unique (h : Owned w) {r r' : R} (hr : (i, r) ∈ w.replies)
    (hr' : (i, r') ∈ w.replies) : r = r' := by
  have hnodup : (w.replies.map Prod.fst).Nodup := by
    refine List.nodup_iff_count_le_one.mpr fun j => ?_
    rw [h.replied]
    split <;> omega
  have := List.inj_on_of_nodup_map hnodup hr hr' rfl
  exact congrArg Prod.snd this

/-- What becomes of a reply: it is received, it is accepted by a channel whose receiver has yet to
be polled or is dropped without that, or it is a dead letter. -/
lemma Owned.fate (h : Owned w) {r : R} (hr : (i, r) ∈ w.replies) :
    w.slot i = .taken r ∨ w.slot i = .sent r ∨ i ∈ w.deadLetters := by
  cases hslot : w.slot i with
  | taken r' =>
      rw [h.reply_unique hr (h.reply i r' (.inr hslot))]
      exact .inl rfl
  | sent r' =>
      rw [h.reply_unique hr (h.reply i r' (.inl hslot))]
      exact .inr (.inl rfl)
  | refused =>
      refine .inr (.inr (List.count_pos_iff.mp ?_))
      rw [h.dead, hslot]
      exact Nat.one_pos
  | _ => exact absurd hr (h.not_replied (by rw [hslot]; rfl) r)

/-- **The results of asks**, whatever user code does with the `ReplyTo`s and however sending,
replying, terminating and giving up interleave.  Of every ask at most one reply is sent.  An ask
returns a reply only if it was sent to it; it fails as full or terminated only if its request has
not entered the mailbox, as without a reply only if there is none and will be none, and as timed
out only if there was none when it last looked: one sent since is a dead letter, or it was still
accepted by the channel before that was dropped. -/
theorem ask_results (h : Reachable capacity within st) :
    (∀ j, (st.shared.replies.map Prod.fst).count j ≤ 1) ∧
      (∀ j r, (j, r) ∈ st.shared.replies → st.shared.slot j = .taken r ∨
        st.shared.slot j = .sent r ∨ j ∈ st.shared.deadLetters) ∧
      ∀ i result, st.task (.asker i) = .ret (.returned result) →
        (∀ r, result = .ok r → st.shared.enqueued i = true ∧ (i, r) ∈ st.shared.replies ∧
          i ∉ st.shared.deadLetters) ∧
        (result = .error .mailboxFull ∨ result = .error .actorTerminated →
          st.shared.enqueued i = false) ∧
        (result = .error .noReply → st.shared.enqueued i = true ∧
          ∀ st', Tasks.Reaches (code within) (fun party w op x w' => Exec capacity w party op x w')
            Env st st' → ∀ r, (i, r) ∉ st'.shared.replies) ∧
        (∀ d, result = .error (.timeout d) → d = within i ∧ st.shared.enqueued i = true ∧
          (∀ r, (i, r) ∉ st.shared.polled i) ∧
          ∀ r, (i, r) ∈ st.shared.replies →
            i ∈ st.shared.deadLetters ∨ st.shared.slot i = .sent r) := by
  have hinv := h.good.1
  refine ⟨fun j => ?_, fun j r hr => hinv.fate hr, fun i result hi => ?_⟩
  · rw [hinv.replied]
    split <;> omega
  obtain ⟨hret, hgone⟩ := h.standing hi
  have henq := hret.enqueued
  refine ⟨fun r hr => ?_, fun hr => ?_, fun hr => ?_, fun d hr => ?_⟩
  · have htaken := hret.ok r hr
    subst hr
    refine ⟨henq, hinv.reply i r (.inr htaken), fun hdead => ?_⟩
    have hpos := List.count_pos_iff.mpr hdead
    rw [hinv.dead, htaken] at hpos
    simp [Slot.isRefused] at hpos
  · rcases hr with rfl | rfl <;> exact henq
  · refine ⟨by rw [henq, hr]; rfl, fun st' hst' r => ?_⟩
    -- an ask which has returned stays where it is
    have hstays : st'.task (.asker i) = .ret (.returned result) := Tasks.Reaches.stays rfl hi hst'
    have hst : Reachable capacity within st' := h.trans hst'
    refine hst.good.1.not_replied ?_ r
    rw [(hst.standing hstays).1.noReply hr]
    rfl
  · obtain ⟨rfl, hunseen⟩ := hret.timeout d hr
    refine ⟨rfl, by rw [henq, hr]; rfl, hunseen, fun r hmem => ?_⟩
    rcases hinv.fate hmem with htaken | hsent | hdead
    · exact absurd htaken (hret.failed r (by rw [hr]; simp))
    · exact .inr hsent
    · exact .inl hdead

/-- A request is received and replied to, and the ask returns the reply. -/
theorem ask_replied :
    ∃ st : Tasks (Party Unit) (Op Unit) (Op.Ans ℕ) (World Unit ℕ) (Point ℕ),
      st.task (.asker ()) = .ret (.returned (.ok 7)) ∧ ((), 7) ∈ st.shared.replies := by
  let capacity : Quota.Capacity := ⟨1, one_pos, Nat.one_lt_two_pow (by decide)⟩
  have h : Reachable capacity (fun _ : Unit => ⟨1, 0, by decide⟩) (start (R := ℕ)) := .refl
  have h := h.tail (.jump (.asker ()) rfl)
  have h := h.tail (.answer (.asker ()) rfl (.makeMessage (m := [()]) (.refl _)))
  have h := h.tail (.answer (.asker ()) rfl (.mailbox (.reserve one_pos)))
  have h := h.tail (.answer (.asker ()) rfl (.mailbox (.send _ rfl)))
  have h := h.tail (.jump .actor rfl)
  have h := h.tail (.answer .actor rfl (.mailbox (.goesOn true)))
  have h := h.tail (.answer .actor rfl (.mailbox (.recv rfl)))
  have h := h.tail (.env (.reply (i := ()) 7 List.mem_cons_self))
  have h := h.tail (.answer (.asker ()) rfl (.replied (r := 7) rfl))
  have h := h.tail (.answer (.asker ()) rfl .dropReply)
  exact ⟨_, rfl, (((ask_results h).2.2 () _ rfl).1 7 rfl).2.1⟩

/-! ### Pending asks -/

/-- The request, or whatever carries the `ReplyTo`, is in the mailbox of an actor which has
terminated. -/
structure Stranded (i : ι) (st : Tasks (Party ι) (Op ι) (Op.Ans R) (World ι R) (Point R)) :
    Prop where
  terminated : st.task .actor = .ret .terminated
  connected : st.shared.mailbox.connected = false
  queued : i ∈ st.shared.mailbox.queue.flatMap replyTos
  enqueued : st.shared.enqueued i = true

/-- Nothing enters a closed mailbox, and nothing leaves it but by its receiver. -/
lemma queue_of_closed {op : Op ι} {x : op.Ans R} (hpre : Owes (.asker j) w op)
    (hclosed : w.mailbox.connected = false) (hx : Exec capacity w (.asker j) op x w') :
    w'.mailbox.connected = false ∧ w'.mailbox.queue = w.mailbox.queue ∧
      (w.enqueued i = true → w'.enqueued i = true) := by
  cases hx with
  | mailbox hx =>
      cases hx with
      | send item hconnected =>
          rw [hclosed] at hconnected
          cases hconnected
      | sendFails item => cases item <;> exact ⟨hclosed, rfl, id⟩
      | recv => exact hpre.elim
      | drain => exact hpre.elim
      | dropReceiver => exact hpre.elim
      | _ => exact ⟨hclosed, rfl, id⟩
  | _ => exact ⟨hclosed, rfl, id⟩

/-- What is stranded stays so. -/
lemma Stranded.step (h : Stranded i st) (hst : Reachable capacity within st)
    (hs : Tasks.Step (code within) (fun party w op x w' => Exec capacity w party op x w') Env
      st st') : Stranded i st' := by
  have hterminated := hs.stays rfl h.terminated
  cases hs with
  | @answer party op k hop x w' hx =>
      cases party with
      | actor =>
          rw [h.terminated] at hop
          cases hop
      | asker j =>
          have hsafe := hst.good.2 (.asker j)
          rw [hop] at hsafe
          obtain ⟨hclosed, hqueue, henq⟩ :=
            queue_of_closed (i := i) (hsafe.pre hst.good.1) h.connected hx
          exact ⟨hterminated, hclosed, by rw [hqueue]; exact h.queued, henq h.enqueued⟩
  | jump => exact ⟨hterminated, h.connected, h.queued, h.enqueued⟩
  | env he =>
      have hclosed := h.connected
      cases he with
      | reply r hi =>
          refine ⟨hterminated, ?_, ?_, ?_⟩ <;> dsimp only <;> rw [World.reply] <;> split
          · exact hclosed
          · exact hclosed
          · exact h.queued
          · exact h.queued
          · exact h.enqueued
          · exact h.enqueued
      | drop | count => exact ⟨hterminated, hclosed, h.queued, h.enqueued⟩
      | tell hconnected | signal _ hconnected =>
          rw [hclosed] at hconnected
          cases hconnected

omit [DecidableEq ι] in
/-- Where a `ReplyTo` is. -/
lemma mem_tokens_iff : i ∈ w.tokens ↔ i ∈ w.held ∨ (∃ j m, (j, m) ∈ w.sending ∧ i ∈ m) ∨
    i ∈ w.mailbox.queue.flatMap replyTos ∨ i ∈ w.drained.flatMap replyTos := by
  simp only [World.tokens, List.mem_append, List.mem_flatMap (f := Prod.snd), Prod.exists,
    or_assoc]

/-- **What a pending ask waits for.**  The next poll returns the reply if there is one and an
error if there cannot be one.  Otherwise there is one `ReplyTo`: user code has it, or it is in a
message which is being sent, is in the mailbox or has been drained and is about to be dropped.
Once the actor has terminated nothing is left drained, and what then is in the mailbox, having
been sent between the drain and the drop of the receiver, is stranded there: such an ask ends by
its timeout, or by being given up, and not otherwise. -/
theorem pending_asks (h : Reachable capacity within st) (hi : st.task (.asker i) = .ret .awaiting) :
    st.shared.enqueued i = true ∧
      ((∃ r, (i, r) ∈ st.shared.replies ∧
          ∀ x w', Exec capacity st.shared (.asker i) .pollReply x w' → x = some (.ok r)) ∨
        ((∀ r, (i, r) ∉ st.shared.replies) ∧
          ∀ x w', Exec capacity st.shared (.asker i) .pollReply x w' →
            x = some (.error .closed)) ∨
        st.shared.tokens.count i = 1 ∧ (i ∈ st.shared.held ∨
          (∃ j m, (j, m) ∈ st.shared.sending ∧ i ∈ m) ∨
          i ∈ st.shared.mailbox.queue.flatMap replyTos ∨
          st.task .actor ≠ .ret .terminated ∧ i ∈ st.shared.drained.flatMap replyTos)) ∧
      (st.task .actor = .ret .terminated → i ∈ st.shared.mailbox.queue.flatMap replyTos →
        ∀ st', Tasks.Reaches (code within) (fun party w op x w' => Exec capacity w party op x w')
          Env st st' → st'.shared.slot i = .open ∧
            ∀ result, st'.task (.asker i) = .ret (.returned result) →
              result = .error (.timeout (within i))) := by
  have hinv := h.good.1
  have hasked : Asked i true st.shared := h.standing hi
  refine ⟨hasked.enqueued, ?_, fun hterm hqueued st' hst' => ?_⟩
  · cases hslot : st.shared.slot i with
    | unmade => exact absurd hslot hasked.made
    | taken r => exact absurd hslot (hasked.untaken r)
    | refused =>
        have := hinv.late i hslot
        rw [hasked.waiting] at this
        cases this
    | sent r =>
        refine .inl ⟨r, hinv.reply i r (.inl hslot), fun x w' hx => ?_⟩
        cases hx <;> simp_all
    | dropped =>
        refine .inr (.inl ⟨hinv.not_replied (by rw [hslot]; rfl), fun x w' hx => ?_⟩)
        cases hx <;> simp_all
    | «open» =>
        have hone : st.shared.tokens.count i = 1 := by
          rw [hinv.once, hslot]
          rfl
        have hmem : i ∈ st.shared.tokens := List.count_pos_iff.mp (by omega)
        refine .inr (.inr ⟨hone, ?_⟩)
        rcases mem_tokens_iff.mp hmem with hheld | hsending | hqueued | hdrained
        · exact .inl hheld
        · exact .inr (.inl hsending)
        · exact .inr (.inr (.inl hqueued))
        · refine .inr (.inr (.inr ⟨fun hterm => ?_, hdrained⟩))
          have : st.shared.mailbox.connected = false ∧ st.shared.drained = [] := h.standing hterm
          rw [this.2] at hdrained
          cases hdrained
  · have hclosed : st.shared.mailbox.connected = false ∧ st.shared.drained = [] :=
      h.standing hterm
    obtain ⟨hreach, hstranded⟩ : Reachable capacity within st' ∧ Stranded i st' := by
      induction hst' with
      | refl => exact ⟨h, hterm, hclosed.1, hqueued, hasked.enqueued⟩
      | tail _ hs ih => exact ⟨ih.1.tail hs, ih.2.step ih.1 hs⟩
    have hopen : st'.shared.slot i = .open :=
      hreach.good.1.open_of_mem (mem_tokens_iff.mpr (.inr (.inr (.inl hstranded.queued))))
    refine ⟨hopen, fun result hresult => ?_⟩
    obtain ⟨hret, -⟩ := hreach.standing hresult
    have hsent := hret.enqueued
    rw [hstranded.enqueued] at hsent
    cases result with
    | ok r =>
        have := hret.ok r rfl
        rw [hopen] at this
        cases this
    | error e =>
        cases e with
        | noReply =>
            have := hret.noReply rfl
            rw [hopen] at this
            cases this
        | timeout d => rw [(hret.timeout d rfl).1]
        | mailboxFull => cases hsent
        | actorTerminated => cases hsent

/-- A request slips in between the drain and the drop of the receiver, and its ask can but time
out. -/
theorem ask_stranded :
    ∃ st : Tasks (Party Unit) (Op Unit) (Op.Ans ℕ) (World Unit ℕ) (Point ℕ),
      st.task (.asker ()) = .ret .awaiting ∧ st.task .actor = .ret .terminated ∧
      ∀ st', Tasks.Reaches (code fun _ => ⟨1, 0, by decide⟩)
        (fun party w op x w' => Exec ⟨1, one_pos, Nat.one_lt_two_pow (by decide)⟩ w party op x w')
          Env st st' → ∀ result, st'.task (.asker ()) = .ret (.returned result) →
            result = .error (.timeout ⟨1, 0, by decide⟩) := by
  let capacity : Quota.Capacity := ⟨1, one_pos, Nat.one_lt_two_pow (by decide)⟩
  have h : Reachable capacity (fun _ : Unit => ⟨1, 0, by decide⟩) (start (R := ℕ)) := .refl
  have h := h.tail (.jump .actor rfl)
  have h := h.tail (.answer .actor rfl (.mailbox (.goesOn false)))
  have h := h.tail (.answer .actor rfl (.mailbox .drain))
  have h := h.tail (.jump (.asker ()) rfl)
  have h := h.tail (.answer (.asker ()) rfl (.makeMessage (m := [()]) (.refl _)))
  have h := h.tail (.answer (.asker ()) rfl (.mailbox (.reserve one_pos)))
  have h := h.tail (.answer (.asker ()) rfl (.mailbox (.send _ rfl)))
  have h := h.tail (.answer .actor rfl (.mailbox .dropReceiver))
  have h := h.tail (.jump .actor rfl)
  have h := h.tail (.answer .actor rfl (.allDropped rfl))
  have h := h.tail (.answer (.asker ()) rfl (.pending rfl))
  have h := h.tail (.answer (.asker ()) rfl (.pollTimer false))
  have hpending := pending_asks (i := ()) h rfl
  exact ⟨_, rfl, rfl, fun st' hst' => (hpending.2.2 rfl List.mem_cons_self st' hst').2⟩

end Tellus.Ask
