import Mathlib.Tactic
import Tellus.Persistence.Writers

/-!
The run loop keeps the contract of the writers.

Every block of the loop is shown safe under the contract of `Writers`: it hands the store an
append only with the events of its latest decision at the position the decision was taken at,
and a snapshot only with the position it covers.  The assertion at the loop's points is
`PointOk`: the state is the fold of exactly the stored events before the position.

* `recoverSeed_safe`, `recoverPage_safe`: recovery goes from prefix to prefix of the stream.
* `persist_safe`, `saveSnapshot_safe`, `settle_safe`: settlement ends at the prefix with the
  decision's events.
* `code_safe`: the blocks, assembled from these.
-/

namespace Tellus

open Concurrent

variable {I : Type} {A : EventSourced I} {ι : Type}

/-! ### Prefixes of a stream -/

section Prefixes

variable {foreign : Prop} {s : Shared A ι}

/-- An empty prefix folds to the seed. -/
lemma foldsTo_zero (s : Shared A ι) {id : I} {seed : A.State} (h : A.init id = .ok seed) :
    FoldsTo s id SeqNo.zero seed := by
  refine ⟨Nat.zero_le _, ?_⟩
  simp [EventSourced.stateAfter, h, catchAndLog]

/-- Whatever is stored as a snapshot, replay starts from a prefix of the stream. -/
lemma seedOf_foldsTo (h : Inv foreign s) {id : I} {r : Recovered A}
    (hr : seedOf A id (s.store.load id) = some r) :
    r.id = id ∧ FoldsTo s id r.nextSeqNo r.state := by
  cases hload : s.store.load id with
  | none =>
      simp only [seedOf, hload, decodeSnapshot, Option.bind_none, Option.map_eq_some_iff,
        catchAndLog_eq_some] at hr
      obtain ⟨seed, hseed, rfl⟩ := hr
      exact ⟨rfl, foldsTo_zero s hseed⟩
  | some stored =>
      obtain ⟨decoded, state, hdec, hinit, hf⟩ := h.snapshots id stored hload
      simp only [seedOf, hload, decodeSnapshot, Option.bind_some, hdec, Option.map_eq_some_iff,
        catchAndLog_eq_some, hinit, Outcome.ok.injEq, exists_eq_left'] at hr
      subst hr
      exact ⟨rfl, hf⟩

/-- A page read at a position the stream reaches continues the fold, and a short one ends at
the end of the stream. -/
lemma page_foldsTo (h : Inv foreign s) {r : Recovered A} (hf : FoldsTo s r.id r.nextSeqNo r.state)
    {state : A.State} {next : SeqNo}
    (hr : catchAndLog (replayPage A r.id r.state r.nextSeqNo
      (s.store.read r.id r.nextSeqNo replayPageLimit)) = some (state, next)) :
    FoldsTo s r.id next state ∧
      ((s.store.read r.id r.nextSeqNo replayPageLimit).length < replayPageLimit →
        next.toNat = (s.stream r.id).length) := by
  have hlen : (s.stream r.id).length < 2 ^ 64 :=
    lt_of_le_of_lt (h.fits r.id) (by norm_num [vecMax])
  obtain ⟨hle, hstate⟩ := hf
  set n := r.nextSeqNo.toNat with hn
  set page := s.store.read r.id r.nextSeqNo replayPageLimit with hpage
  have hread : page = ((s.stream r.id).drop n).take replayPageLimit :=
    s.store.read_eq r.id r.nextSeqNo replayPageLimit hlen
  have hplen : page.length = min replayPageLimit ((s.stream r.id).length - n) := by
    rw [hread, List.length_take, List.length_drop]
  have hnum : ∀ (m : ℕ) (e : StoredEvent), page[m]? = some e → e.seqNo.toNat = n + m := by
    intro m e he
    rw [hread, List.getElem?_take] at he
    split at he
    · rw [List.getElem?_drop] at he
      exact h.numbered r.id (n + m) e he
    · cases he
  rw [replayPage_eq hnum (by omega), Option.map_eq_some_iff] at hr
  obtain ⟨state', hreplay, heq⟩ := hr
  obtain ⟨rfl, rfl⟩ := Prod.mk.inj heq
  have hadv : (r.nextSeqNo.advancedBy page.length).toNat = n + page.length :=
    SeqNo.toNat_advancedBy (by omega)
  refine ⟨⟨by omega, ?_⟩, fun hshort => by omega⟩
  -- the longer prefix is the shorter one followed by the page
  have hsplit : (s.stream r.id).take (n + page.length) = (s.stream r.id).take n ++ page := by
    rw [List.take_add, hread]
    congr 1
    rw [List.length_take, List.length_drop, List.take_eq_take_iff, List.length_drop]
    omega
  rw [hadv, hsplit, EventSourced.stateAfter_append, hstate]
  exact hreplay

/-- Once the events of a decision are stored at its position, the state after them is the fold
of the longer prefix. -/
lemma foldsTo_land [DecidableEq I] (h : Inv foreign s) {id : I} {next : SeqNo} {state state' : A.State}
    {encoded : List EncodedEvent} {events : List A.Event} {store : InMemoryStore I} {d : ℕ}
    (hf : FoldsTo s id next state) (hdec : encoded.mapM A.decoded = some events)
    (ha : s.store.append id next encoded = (.ok (), store)) (hfits : Fits store id)
    (happ : applyEvents A id state events = some state') :
    FoldsTo (s.land id d store) id (next.advancedBy events.length) state' ∧
      (next.advancedBy events.length).toNat = ((s.land id d store).stream id).length := by
  obtain ⟨hnext, -, hself, -⟩ := h.append_ok ha
  have hlen : encoded.length = events.length := EventSourced.length_of_decoded hdec
  have hstream : (s.land id d store).stream id = s.stream id ++ InMemoryStore.stored next encoded :=
    hself
  have htotal : ((s.land id d store).stream id).length = next.toNat + events.length := by
    rw [hstream, List.length_append, InMemoryStore.stored_length, hnext, hlen]
  have hbound : next.toNat + events.length < 2 ^ 64 := by
    have : ((s.land id d store).stream id).length ≤ vecMax := hfits
    rw [htotal] at this
    exact lt_of_le_of_lt this (by norm_num [vecMax])
  have hpos : (next.advancedBy events.length).toNat = ((s.land id d store).stream id).length := by
    rw [SeqNo.toNat_advancedBy hbound, htotal]
  refine ⟨⟨hpos.le, ?_⟩, hpos⟩
  obtain ⟨-, hstate⟩ := hf
  rw [hnext, List.take_length] at hstate
  rw [hpos, List.take_length, hstream, EventSourced.stateAfter_append, hstate, Option.bind_some,
    InMemoryStore.stored_map_event, EventSourced.replay_of_decoded hdec]
  exact happ

end Prefixes

/-! ### Assertions -/

section Assertions

variable (A) (ident : ι → I) (exact : Prop)

/-- The effect is the latest decision of incarnation `i`, taken on its current state, and has
not been stored. -/
def Decided (i : ι) (s : Shared A ι) (r : Recovered A) (effect : Effect A) : Prop :=
  AtEnd A ident exact i s r ∧ s.decisions[s.latest i]? = some ⟨ident i, r.state, effect⟩ ∧
    (s.latest i ∈ s.landed (ident i) → r.nextSeqNo.toNat < (s.stream (ident i)).length)

/-- What holds at the points of the run loop. -/
def PointOk (i : ι) (s : Shared A ι) : Point A → Prop
  | .replay r => At A ident i s r
  | .recovered r => AtEnd A ident exact i s r
  | .running r => AtEnd A ident exact i s r
  | .run => True
  | .failed => True
  | .terminate => True

end Assertions

variable [DecidableEq I] [DecidableEq ι]
variable {ident : ι → I} {late foreign exact : Prop} {i : ι} {s : Shared A ι}

lemma stable_true : Stable (writers A ident late foreign exact) i fun _ => True :=
  fun _ _ _ _ _ => trivial

lemma stable_at (r : Recovered A) :
    Stable (writers A ident late foreign exact) i fun s => At A ident i s r :=
  fun _ _ h hr _ => ⟨h.1, hr.1.foldsTo h.2⟩

lemma stable_atEnd (r : Recovered A) :
    Stable (writers A ident late foreign exact) i fun s => AtEnd A ident exact i s r :=
  fun _ _ h hr hi => ⟨stable_at r h.1 hr hi, fun he => by rw [hr.2.2 he]; exact h.2 he⟩

lemma stable_decided (r : Recovered A) (effect : Effect A) :
    Stable (writers A ident late foreign exact) i fun s => Decided A ident exact i s r effect := by
  intro t t' ⟨hat, hdec, hland⟩ hr hi
  refine ⟨stable_atEnd r hat hr hi, ?_, fun hd => ?_⟩
  · rw [hr.2.1]
    exact hr.1.getElem? hdec
  · rw [hr.2.1] at hd
    have hle := (hr.1.stream (ident i)).length_le
    rcases hr.1.landed _ _ hd with hd' | hlt
    · exact lt_of_lt_of_le (hland hd') hle
    · obtain ⟨⟨hid, hpos, -⟩, -⟩ := hat
      rw [hid] at hpos
      exact lt_of_le_of_lt hpos hlt

/-! ### Operations which leave the shared state alone -/

/-- The operations without an effect on the shared state. -/
def Quiet : Op A → Prop
  | .append _ _ _ => False
  | .save _ _ _ => False
  | .handle _ _ => False
  | .nextIncoming _ => False
  | _ => True

lemma Exec.quiet (op : Op A) (hq : Quiet op) {x : op.Ans} {s' : Shared A ι}
    (h : Exec ident late i s op x s') : s' = s := by
  cases h <;> first | rfl | exact hq.elim

/-- Calling an operation, from a stable assertion. -/
lemma safe_call {α : Type} {post : Shared A ι → α → Prop} (op : Op A)
    {P : Shared A ι → Prop} (hP : Stable (writers A ident late foreign exact) i P) (hs : P s)
    {f : op.Ans → Task A α}
    (h : ∀ t, Inv foreign t → P t → Owes A ident exact i t op ∧
      ∀ x t', Exec ident late i t op x t' → Inv foreign t' →
        Safe (writers A ident late foreign exact) i post (f x) t') :
    Safe (writers A ident late foreign exact) i post ((ask A op).bind f) s :=
  Safe.call_of hP hs h

/-- Calling a quiet operation, from a stable assertion. -/
lemma safe_ask {α : Type} {post : Shared A ι → α → Prop} (op : Op A) (hq : Quiet op)
    {P : Shared A ι → Prop} (hP : Stable (writers A ident late foreign exact) i P) (hs : P s)
    {f : op.Ans → Task A α}
    (h : ∀ t x, Inv foreign t → P t → Exec ident late i t op x t →
      Safe (writers A ident late foreign exact) i post (f x) t) :
    Safe (writers A ident late foreign exact) i post ((ask A op).bind f) s := by
  refine safe_call op hP hs fun t hi ht => ⟨?_, fun x t' hx _ => ?_⟩
  · cases op with
    | append => exact hq.elim
    | save => exact hq.elim
    | nextIncoming => exact hq.elim
    | _ => trivial
  · obtain rfl := Exec.quiet op hq hx
    exact h t' x hi ht hx

/-- Returning a failure is always safe. -/
lemma safe_none {α : Type} {post : Shared A ι → α → Prop} :
    Safe (writers A ident late foreign exact) i (fun s r => ∀ a ∈ r, post s a)
      (.ret (none : Option α)) s :=
  fun _ _ _ a ha => by cases ha

/-! ### Recovery -/

/-- `recover` up to its loop ends at a prefix of the stream. -/
lemma recoverSeed_safe :
    Safe (writers A ident late foreign exact) i (fun s r => ∀ a ∈ r, ∀ b ∈ a, At A ident i s b)
      ((recoverSeed A).interruptible .stoppedByParent id) s := by
  refine Safe.interruptible (fun _ _ => trivial) (fun t x t' hx => ?_) ?_
  · obtain rfl := Exec.quiet .stoppedByParent trivial hx
    exact (writers A ident late foreign exact).rely_refl i t'
  refine safe_ask .persistenceId trivial stable_true trivial fun t x hi _ hx => ?_
  cases hx with
  | persistenceIdPanics => exact safe_none
  | persistenceId =>
      refine safe_ask (.load (ident i)) trivial stable_true trivial
        fun t x hi _ hx => ?_
      cases hx with
      | load =>
          cases hseed : seedOf A (ident i) (t.store.load (ident i)) with
          | none =>
              show Safe _ i _ (.ret (seedOf A (ident i) (t.store.load (ident i)))) t
              rw [hseed]
              exact safe_none
          | some r =>
              obtain ⟨hid, hf⟩ := seedOf_foldsTo hi hseed
              show Safe _ i _ (.ret (seedOf A (ident i) (t.store.load (ident i)))) t
              rw [hseed]
              refine Safe.ret_of (stable_at r) ⟨hid, hid ▸ hf⟩ fun t' _ hat b hb => ?_
              cases hb
              exact hat
      | loadFails _ h =>
          cases x with
          | ok a => cases h
          | err e => exact safe_none
          | panic => exact safe_none

/-- One turn of the loop of `recover` goes from prefix to prefix. -/
lemma recoverPage_safe {r : Recovered A} (hat : At A ident i s r) :
    Safe (writers A ident late foreign exact) i
      (fun s x => ∀ a ∈ x, ∀ b ∈ a, At A ident i s b.1 ∧
        (b.2 = true → AtEnd A ident exact i s b.1))
      ((recoverPage A r).interruptible .stoppedByParent id) s := by
  refine Safe.interruptible (fun _ _ => trivial) (fun t x t' hx => ?_) ?_
  · obtain rfl := Exec.quiet .stoppedByParent trivial hx
    exact (writers A ident late foreign exact).rely_refl i t'
  refine safe_ask (.read r.id r.nextSeqNo replayPageLimit) trivial (stable_at r) hat
    fun t x hi hat hx => ?_
  cases hx with
  | read =>
      set page := t.store.read r.id r.nextSeqNo replayPageLimit with hpage
      show Safe _ i _ (.ret ((catchAndLog (replayPage A r.id r.state r.nextSeqNo page)).map _)) t
      cases hrep : catchAndLog (replayPage A r.id r.state r.nextSeqNo page) with
      | none => exact safe_none
      | some p =>
          obtain ⟨state, next⟩ := p
          obtain ⟨hf, hend⟩ := page_foldsTo hi hat.2 hrep
          have hat' : At A ident i t ⟨r.id, state, next⟩ := ⟨hat.1, hf⟩
          by_cases hshort : page.length < replayPageLimit
          · have hatEnd : AtEnd A ident exact i t ⟨r.id, state, next⟩ :=
              ⟨hat', fun _ => by rw [← hat.1]; exact hend hshort⟩
            refine Safe.ret_of (stable_atEnd _) hatEnd fun t' _ h b hb => ?_
            cases hb
            exact ⟨h.1, fun _ => h⟩
          · refine Safe.ret_of (stable_at _) hat' fun t' _ h b hb => ?_
            cases hb
            exact ⟨h, fun hb => absurd (by simpa using hb) hshort⟩
  | readFails _ _ _ h =>
      cases x with
      | ok a => cases h
      | err e => exact safe_none
      | panic => exact safe_none

/-! ### Settlement -/

/-- Encoding asserts nothing new about the shared state and yields events which decode to the
given ones. -/
lemma encodeEvents_safe {P : Shared A ι → Prop}
    (hP : Stable (writers A ident late foreign exact) i P) (events : List A.Event) (hs : P s) :
    Safe (writers A ident late foreign exact) i
      (fun s r => P s ∧ ∀ es ∈ r, es.mapM A.decoded = some events) (encodeEvents A events) s := by
  have hnone : ∀ t events, P t → Safe (writers A ident late foreign exact) i
      (fun s r => P s ∧ ∀ es ∈ r, es.mapM A.decoded = some events)
      (.ret (none : Option (List EncodedEvent))) t := fun t events ht =>
    Safe.ret_of hP ht fun t' _ h => ⟨h, fun es hes => by cases hes⟩
  induction events generalizing s with
  | nil =>
      refine Safe.ret_of hP hs fun t _ h => ⟨h, fun es hes => ?_⟩
      cases hes
      rfl
  | cons event events ih =>
      refine safe_ask (.encodeEvent event) trivial hP hs fun t x hi ht hx => ?_
      cases hx with
      | @encodeEvent _ payload hdec =>
          refine Safe.bind (ih ht) fun t' r hi' h => ?_
          obtain ⟨ht', hes⟩ := h
          cases r with
          | none => exact hnone t' _ ht'
          | some es =>
              refine Safe.ret_of hP ht' fun t'' _ h'' => ⟨h'', fun es' hes' => ?_⟩
              cases hes'
              have hd : A.decoded ⟨A.event.manifest, A.event.version, payload⟩ = some event := by
                simp [EventSourced.decoded, decodeVersioned, hdec, catchAndLog]
              simp [List.mapM_cons, hd, hes es rfl]
      | encodeEventFails _ h =>
          cases x with
          | ok a => cases h
          | err e => exact hnone t _ ht
          | panic => exact hnone t _ ht

/-- Persisting the events of a decision ends at a longer prefix, or fails. -/
lemma persist_safe {r : Recovered A} {effect : Effect A} (hne : effect.events ≠ [])
    (hd : Decided A ident exact i s r effect) :
    Safe (writers A ident late foreign exact) i
      (fun s x => ∀ p ∈ x, AtEnd A ident exact i s ⟨r.id, p.1, p.2⟩)
      (persist A r.id r.state r.nextSeqNo effect.events) s := by
  refine Safe.bind (encodeEvents_safe (stable_decided r effect) effect.events hd)
    fun t x hi h => ?_
  obtain ⟨hd, hes⟩ := h
  cases x with
  | none => exact safe_none
  | some encoded =>
      have hdec := hes encoded rfl
      refine safe_call (.append r.id r.nextSeqNo encoded) (stable_decided r effect) hd
        fun t hi hd => ?_
      obtain ⟨⟨⟨hid, hf⟩, hexact⟩, hlatest, hland⟩ := hd
      have hnonempty : encoded ≠ [] := by
        rintro rfl
        exact hne (List.length_eq_zero_iff.mp (EventSourced.length_of_decoded hdec).symm)
      refine ⟨⟨hid, ⟨hnonempty, ⟨_, hlatest, hid.symm, hf, hdec⟩, ?_⟩, ?_⟩, fun x t' hx hi' => ?_⟩
      · rw [hid]
        exact hland
      · rw [hid]
        exact hexact
      cases x with
      | err e => exact safe_none
      | panic => exact safe_none
      | ok a =>
          cases hx with
          | @appendLands _ _ _ store ha hfits _ =>
              show Safe _ i _ (.ret ((applyEvents A r.id r.state effect.events).map _)) _
              cases happ : applyEvents A r.id r.state effect.events with
              | none => exact safe_none
              | some state' =>
                  obtain ⟨hf', hend⟩ :=
                    foldsTo_land (d := t.latest i) hi hf hdec ha hfits happ
                  have hatEnd : AtEnd A ident exact i (t.land r.id (t.latest i) store)
                      ⟨r.id, state', r.nextSeqNo.advancedBy effect.events.length⟩ :=
                    ⟨⟨hid, hf'⟩, fun _ => by rw [← hid]; exact hend⟩
                  refine Safe.ret_of (stable_atEnd _) hatEnd fun t'' _ h p hp => ?_
                  cases hp
                  exact h
          | appendFails _ _ _ h => cases h
          | appendLate hl _ _ _ h => cases h

/-- Continuations do not touch the shared state. -/
lemma runThens_safe {P : Shared A ι → Prop}
    (hP : Stable (writers A ident late foreign exact) i P) (state : A.State)
    (thens : List A.Then) (hs : P s) :
    Safe (writers A ident late foreign exact) i (fun s _ => P s) (runThens A state thens) s := by
  induction thens generalizing s with
  | nil => exact Safe.ret_of hP hs fun _ _ h => h
  | cons t thens ih =>
      refine safe_ask (.continuation t state) trivial hP hs fun u x hi hu _ => ?_
      cases x with
      | ok a => exact ih hu
      | err e => exact nomatch e
      | panic => exact Safe.ret_of hP hu fun _ _ h => h

/-- Building a snapshot yields one which covers the events before the position. -/
lemma encodeSnapshot_safe {r : Recovered A} (hat : AtEnd A ident exact i s r) :
    Safe (writers A ident late foreign exact) i
      (fun s x => AtEnd A ident exact i s r ∧
        ∀ snapshot, x = .ok (some snapshot) → Covers s r.id r.nextSeqNo snapshot)
      (encodeSnapshot A r.state) s := by
  have hother : ∀ (t : Shared A ι) (x : Outcome (SnapshotError A.Error) (Option EncodedSnapshot)),
      (∀ snapshot, x ≠ .ok (some snapshot)) → AtEnd A ident exact i t r →
      Safe (writers A ident late foreign exact) i
        (fun s x => AtEnd A ident exact i s r ∧
          ∀ snapshot, x = .ok (some snapshot) → Covers s r.id r.nextSeqNo snapshot)
        (.ret x) t := fun t x hx ht =>
    Safe.ret_of (stable_atEnd r) ht fun _ _ h => ⟨h, fun snapshot hs => absurd hs (hx snapshot)⟩
  refine safe_ask (.snapshot r.state) trivial (stable_atEnd r) hat fun t x hi ht hx => ?_
  cases hx with
  | @snapshot _ snapshot hinit =>
      refine safe_ask (.encodeSnapshot snapshot) trivial (stable_atEnd r) ht
        fun t x hi ht hx => ?_
      cases hx with
      | @encodeSnapshot _ payload hdec =>
          refine Safe.ret_of (stable_atEnd r) ht fun t' _ h => ⟨h, fun sn hsn => ?_⟩
          cases hsn
          refine ⟨snapshot, r.state, ?_, ?_, h.1.2⟩
          · simpa [decodeVersioned] using hdec
          · rw [h.1.1]
            exact hinit
      | encodeSnapshotFails _ h =>
          cases x with
          | ok a => cases h
          | err e => exact hother t _ (fun _ h => by cases h) ht
          | panic => exact hother t _ (fun _ h => by cases h) ht
  | noSnapshot _ hno =>
      cases x with
      | ok a =>
          cases a with
          | none => exact hother t _ (fun _ h => by cases h) ht
          | some sn => exact absurd rfl (hno sn)
      | err e => exact hother t _ (fun _ h => by cases h) ht
      | panic => exact hother t _ (fun _ h => by cases h) ht

/-- Offering a snapshot changes neither state nor position. -/
lemma saveSnapshot_safe {r : Recovered A} (hat : AtEnd A ident exact i s r) :
    Safe (writers A ident late foreign exact) i (fun s _ => AtEnd A ident exact i s r)
      (saveSnapshot A r.id r.state r.nextSeqNo) s := by
  refine Safe.bind (encodeSnapshot_safe hat) fun t x hi h => ?_
  obtain ⟨hat, hcovers⟩ := h
  have hdone : Safe (writers A ident late foreign exact) i (fun s _ => AtEnd A ident exact i s r)
      (.ret () : Task A Unit) t :=
    Safe.ret_of (stable_atEnd r) hat fun _ _ h => h
  match x with
  | .err _ => exact hdone
  | .panic => exact hdone
  | .ok none => exact hdone
  | .ok (some snapshot) =>
      have hstable : Stable (writers A ident late foreign exact) i fun s =>
          AtEnd A ident exact i s r ∧ Covers s r.id r.nextSeqNo snapshot :=
        (stable_atEnd r).and fun _ _ h hr _ => hr.1.covers h
      refine safe_call (.save r.id r.nextSeqNo snapshot) hstable
        ⟨hat, hcovers snapshot rfl⟩ fun t hi h => ⟨⟨h.1.1.1, h.2⟩, fun y t' hy hi' => ?_⟩
      have hat' : AtEnd A ident exact i t' r := by
        cases hy <;> exact h.1
      exact Safe.ret_of (stable_atEnd r) hat' fun _ _ h => h

/-- Settling a decision ends at the prefix with its events, or fails. -/
lemma settle_safe {r : Recovered A} {effect : Effect A}
    (hd : Decided A ident exact i s r effect) :
    Safe (writers A ident late foreign exact) i
      (fun s x => ∀ settled ∈ x, AtEnd A ident exact i s ⟨r.id, settled.state, settled.nextSeqNo⟩)
      (settle A r.id r.state r.nextSeqNo effect) s := by
  have hpersist : Safe (writers A ident late foreign exact) i
      (fun s x => ∀ p ∈ x, AtEnd A ident exact i s ⟨r.id, p.1, p.2⟩)
      (if !effect.events.isEmpty then persist A r.id r.state r.nextSeqNo effect.events
        else return some (r.state, r.nextSeqNo)) s := by
    split
    · rename_i h
      exact persist_safe (by simpa using h) hd
    · refine Safe.ret_of (stable_atEnd r) hd.1 fun _ _ h p hp => ?_
      cases hp
      exact h
  refine Safe.bind hpersist fun t x hi hx => ?_
  cases x with
  | none => exact safe_none
  | some p =>
      obtain ⟨state, next⟩ := p
      have hat := hx (state, next) rfl
      refine Safe.bind (runThens_safe (stable_atEnd ⟨r.id, state, next⟩) state effect.thens hat)
        fun t b hi hat => ?_
      cases b with
      | false => exact safe_none
      | true =>
          have hdone : ∀ t, AtEnd A ident exact i t ⟨r.id, state, next⟩ →
              Safe (writers A ident late foreign exact) i
                (fun s x => ∀ settled ∈ x,
                  AtEnd A ident exact i s ⟨r.id, settled.state, settled.nextSeqNo⟩)
                (.ret (some ⟨state, next, effect.stop⟩) : Task A (Option (Settled A))) t := by
            intro t hat
            refine Safe.ret_of (stable_atEnd _) hat fun _ _ h settled hs => ?_
            cases hs
            exact h
          dsimp only
          split
          · exact Safe.bind (saveSnapshot_safe (r := ⟨r.id, state, next⟩) hat)
              fun t _ hi hat => hdone t hat
          · exact hdone t hat

/-! ### The run loop -/

/-- **Every block of the run loop is safe** from every state which meets its point's
assertion. -/
lemma code_safe (pt : Point A) (hpt : PointOk A ident exact i s pt) :
    Safe (writers A ident late foreign exact) i (PointOk A ident exact i) (code A pt) s := by
  have hdone : ∀ (t : Shared A ι) (pt : Point A), (∀ t, PointOk A ident exact i t pt) →
      Safe (writers A ident late foreign exact) i (PointOk A ident exact i) (.ret pt) t :=
    fun t pt h t' _ _ => h t'
  cases pt with
  | run =>
      refine Safe.bind recoverSeed_safe fun t x hi h => ?_
      match x with
      | none => exact hdone t _ fun _ => trivial
      | some none => exact hdone t _ fun _ => trivial
      | some (some r) =>
          exact Safe.ret_of (stable_at r) (h _ rfl r rfl) fun _ _ h => h
  | replay r =>
      refine Safe.bind (recoverPage_safe hpt) fun t x hi h => ?_
      match x with
      | none => exact hdone t _ fun _ => trivial
      | some none => exact hdone t _ fun _ => trivial
      | some (some (r, true)) =>
          exact Safe.ret_of (stable_atEnd r) ((h _ rfl _ rfl).2 rfl) fun _ _ h => h
      | some (some (r, false)) =>
          exact Safe.ret_of (stable_at r) (h _ rfl _ rfl).1 fun _ _ h => h
  | recovered r =>
      refine safe_ask (.recovered r.state) trivial (stable_atEnd r) hpt
        fun t x hi hat hx => ?_
      cases hx with
      | recovered => exact Safe.ret_of (stable_atEnd r) hat fun _ _ h => h
      | recoveredFails _ h =>
          cases x with
          | ok a => cases h
          | err e => exact hdone t _ fun _ => trivial
          | panic => exact hdone t _ fun _ => trivial
  | running r =>
      refine safe_call (.nextIncoming r) (stable_atEnd r) hpt
        fun t hi hat => ⟨hat, fun x t' hx hi' => ?_⟩
      obtain rfl : t' = t := by
        cases hx
        rfl
      cases x with
      | none => exact hdone _ _ fun _ => trivial
      | some incoming =>
          refine safe_call (.handle incoming r.state) (stable_atEnd r) hat
            fun t hi hat => ⟨trivial, fun x t' hx hi' => ?_⟩
          cases hx with
          | handleFails _ _ h =>
              cases x with
              | ok a => cases h
              | err e => exact hdone _ _ fun _ => trivial
              | panic => exact hdone _ _ fun _ => trivial
          | handle _ _ effect =>
              have hd : Decided A ident exact i (t.decide i ⟨ident i, r.state, effect⟩) r
                  effect := by
                refine ⟨hat, ?_, fun hl => ?_⟩
                · simp [Shared.decide]
                · have := hi.known (ident i) _ hl
                  simp [Shared.decide] at this
              refine Safe.bind (settle_safe hd) fun t x hi h => ?_
              cases x with
              | none => exact hdone t _ fun _ => trivial
              | some settled =>
                  have hat := h settled rfl
                  dsimp only
                  split
                  · exact hdone t _ fun _ => trivial
                  · exact Safe.ret_of (stable_atEnd _) hat fun _ _ h => h
  | failed =>
      refine safe_ask .awaitRestart trivial stable_true trivial fun t x hi _ _ => ?_
      cases x with
      | true => exact hdone t _ fun _ => trivial
      | false => exact hdone t _ fun _ => trivial
  | terminate => exact hdone s _ fun _ => trivial

end Tellus
