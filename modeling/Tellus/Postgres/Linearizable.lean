import Mathlib.Tactic
import Tellus.Postgres.Concurrent

/-!
The PostgreSQL store is linearizable.

However the statements of concurrent calls interleave, and whichever connections break, there is an
order of the calls which have taken effect in which the in-memory store, called one after another,
returns what they have returned.  The tables stay related to that store (`Lin`), one statement at a
time; a conflict is explained where the guard fails or the key is found taken, an append where its
rows are committed.

* `Sent`: which statement a call has under way.
* `Lin`: the invariant of the tables, the order and the orphans.
* `executes_keeps`, `orphaned_keeps`: what the database does for a call and for an orphan.
* `store_linearizable`: the calls of every run.
-/

namespace Tellus.Postgres

open Concurrent

variable {ι : Type} {calls : ι → Request} {s s' : Shared ι} {i : ι} {id : PersistenceId}

/-! ### What one statement means to the in-memory store -/

section Statements

variable {m : InMemoryStore PersistenceId} {t : Tables} {next : SeqNo}
  {events : List EncodedEvent} {us : List Unnested}

/-- An append elsewhere than at the end of the stream is a conflict. -/
lemma serve_conflict (h : Agrees m t) (hne : next.toNat ≠ (m.streams id).length) :
    serveInMemory m (.append id next events) = (.append (.error .conflict), m) := by
  rw [serveInMemory, InMemoryStore.append_eq (h.fits id), if_neg hne]
  rfl

/-- An append at the end of the stream extends it. -/
lemma serve_append (h : Agrees m t) (hnext : next.toNat = (m.streams id).length) :
    serveInMemory m (.append id next events) =
      (.append (.ok ()), { m with
        streams := Function.update m.streams id
          (m.streams id ++ InMemoryStore.stored next events) }) := by
  rw [serveInMemory, InMemoryStore.append_eq (h.fits id), if_pos hnext]
  rfl

/-- An append of nothing changes nothing. -/
lemma serve_append_nil (h : Agrees m t) :
    serveInMemory m (.append id next []) =
      (.append (if next.toNat = (m.streams id).length then .ok () else .error .conflict), m) := by
  by_cases hnext : next.toNat = (m.streams id).length
  · rw [serve_append h hnext, if_pos hnext]
    simp [InMemoryStore.stored]
  · rw [serve_conflict h hnext, if_neg hnext]

/-- **Why a commit is at the end**: at any earlier position the key is taken. -/
lemma Agrees.next_eq (h : Agrees m t) (hbound : WithinBigint (next.toNat + events.length))
    (hus : unnested next.toNat 0 events = .ok us) (hne : events ≠ [])
    (hle : next.toNat ≤ (m.streams id).length)
    (hkeys : ((t.events ++ us.map (row id)).map Row.key).Nodup) :
    next.toNat = (m.streams id).length := by
  by_contra hnot
  have hlt : next.toNat < (m.streams id).length := by omega
  -- the stored event at the position
  obtain ⟨e, he⟩ : ∃ e, (m.streams id)[next.toNat]? = some e :=
    ⟨_, List.getElem?_eq_getElem hlt⟩
  have hno := h.numbered id _ _ he
  have hmem : eventRow id e ∈ t.events := by
    have : eventRow id e ∈ rowsOf t.events id := by
      rw [h.rows]
      exact List.mem_map_of_mem (List.mem_of_getElem? he)
    exact (List.mem_filter.mp this).1
  -- the first event of the batch
  obtain ⟨event, rest, rfl⟩ := List.exists_cons_of_ne_nil hne
  have hfirst : eventRow id ⟨next.advancedBy 0, event⟩ ∈ us.map (row id) := by
    rw [unnested_stored hbound hus]
    refine List.mem_map_of_mem (List.mem_of_getElem? (i := 0) ?_)
    rw [InMemoryStore.stored_getElem?]
    rfl
  simp only [WithinBigint, bigintMax] at hbound
  have hsame : (next.advancedBy 0).toNat = next.toNat := SeqNo.toNat_advancedBy (by omega)
  rw [List.map_append] at hkeys
  refine (List.nodup_append.mp hkeys).2.2 _ (List.mem_map_of_mem hmem) _
    (List.mem_map_of_mem hfirst) ?_
  simp only [Row.key, eventRow, row, hno, hsame]

/-- The upserted snapshot is the one saved. -/
lemma Agrees.upsert (h : Agrees m t) (next : SeqNo) (snapshot : EncodedSnapshot) :
    Agrees (m.save id next snapshot)
      (t.upsertSnapshot id (snapshotRow id ⟨next, snapshot⟩)) := by
  have hevents : (t.upsertSnapshot id (snapshotRow id ⟨next, snapshot⟩)).events = t.events := by
    unfold Tables.upsertSnapshot
    split <;> rfl
  refine ⟨h.numbered, h.fits, fun id' => ?_, ?_, fun id' => ?_⟩
  · rw [hevents]
    exact h.rows id'
  · rw [hevents]
    exact h.keys
  · rw [upsertSnapshot_filter h, InMemoryStore.save]
    split
    · rename_i hid
      subst hid
      simp
    · rename_i hid
      dsimp only
      rw [Function.update_of_ne (Ne.symm hid)]
      exact h.snapshots id'

/-- The rows selected are returned as the events read. -/
lemma Agrees.mapM_selectEvents (h : Agrees m t) (start : SeqNo) (limit : ℕ) :
    (t.selectEvents id start.toNat (min limit (2 ^ 63 - 1))).mapM storedEvent =
      .ok (m.read id start limit) := by
  have hfits : (m.streams id).length ≤ vecMax := h.fits id
  have hmax : vecMax = 2 ^ 63 - 1 := rfl
  have htake : ((m.streams id).drop start.toNat).take (min limit (2 ^ 63 - 1)) =
      ((m.streams id).drop start.toNat).take limit := by
    rcases Nat.le_total limit (2 ^ 63 - 1) with hl | hl
    · rw [Nat.min_eq_left hl]
    · rw [List.take_of_length_le (by rw [List.length_drop]; omega),
        List.take_of_length_le (by rw [List.length_drop]; omega)]
  rw [h.selectEvents, mapM_storedEvent, htake, m.read_eq id start limit (by omega)]

/-- The row selected is returned as the snapshot loaded. -/
lemma Agrees.find_snapshot (h : Agrees m t) :
    t.snapshots.find? (SnapshotRow.isOf id) = (m.load id).map (snapshotRow id) := by
  rw [← List.head?_filter, h.snapshots, Option.head?_toList]
  rfl

end Statements

/-! ### The invariant -/

/-- The in-memory store, called in the given order. -/
def memory (calls : ι → Request) (order : List ι) : InMemoryStore PersistenceId :=
  after serveInMemory calls InMemoryStore.empty order

/-- What it returns. -/
def results (calls : ι → Request) (order : List ι) : List (ι × Reply) :=
  outcomes serveInMemory calls InMemoryStore.empty order

/-- No batch reaches past the last position of a `BIGINT`. -/
def Bounded (calls : ι → Request) : Prop :=
  ∀ i id next events, calls i = .append id next events →
    WithinBigint (next.toNat + events.length)

/-- The statement is one of the call; a commit comes after its guard has seen the position. -/
def Sent (c : Request) (t : Tables) : Op → Prop
  | .append (.selectNext id) => ∃ next, c = .append id next []
  | .append (.guard id n) => ∃ next events, c = .append id next events ∧ n = next.toNat ∧
      events ≠ []
  | .append (.commit id us) => ∃ next events, c = .append id next events ∧
      unnested next.toNat 0 events = .ok us ∧ events ≠ [] ∧
      next.toNat ≤ (rowsOf t.events id).length
  | .selectEvents id start limit => ∃ n l, c = .read id n l ∧ start = n.toNat ∧
      limit = min l (2 ^ 63 - 1)
  | .upsertSnapshot id r => ∃ next snapshot, c = .save id next snapshot ∧
      r = snapshotRow id ⟨next, snapshot⟩
  | .selectSnapshot id => c = .load id

/-- What holds of the tables, the order and the orphans. -/
structure Lin (calls : ι → Request) (s : Shared ι) : Prop where
  agrees : Agrees (memory calls s.order) s.tables
  once : (s.order ++ s.orphans.map Orphan.call).Nodup
  sent : ∀ o ∈ s.orphans, o.request = calls o.call ∧ Sent o.request s.tables o.op

/-- Call `i` has not taken effect, and no statement of it is under way on its own. -/
def Fresh (i : ι) (s : Shared ι) : Prop := i ∉ s.order ++ s.orphans.map Orphan.call

/-- The streams have not become shorter. -/
def Grows (t t' : Tables) : Prop :=
  ∀ id, (rowsOf t.events id).length ≤ (rowsOf t'.events id).length

/-- The contract between the calls: the others let the order and the streams grow, and take no
effect for this call. -/
def calling (calls : ι → Request) : Contract ι Op Op.Ans (Shared ι) where
  exec := fun i => Executes i (calls i)
  pre := fun i s op => Fresh i s ∧ Sent (calls i) s.tables op
  inv := Lin calls
  rely := fun i s s' => s.order <+: s'.order ∧ Grows s.tables s'.tables ∧ (Fresh i s → Fresh i s')
  rely_refl := fun _ _ => ⟨List.prefix_rfl, fun _ => le_rfl, fun h => h⟩
  rely_trans := fun _ _ _ _ h h' => ⟨h.1.trans h'.1, fun id => (h.2.1 id).trans (h'.2.1 id),
    fun hi => h'.2.2 (h.2.2 hi)⟩

lemma Lin.init : Lin calls (Shared.init : Shared ι) where
  agrees := Agrees.empty
  once := List.nodup_nil
  sent := fun _ h => by cases h

/-- A commit stays at a position the stream has reached. -/
lemma Sent.mono {c : Request} {op : Op} {t t' : Tables} (h : Sent c t op)
    (hgrows : Grows t t') : Sent c t' op := by
  cases op with
  | append op =>
      cases op with
      | commit id us =>
          obtain ⟨next, events, hcall, hus, hne, hle⟩ := h
          exact ⟨next, events, hcall, hus, hne, hle.trans (hgrows id)⟩
      | selectNext id => exact h
      | guard id n => exact h
  | _ => exact h

/-- A call takes effect as it would on the in-memory store. -/
lemma Lin.takes (h : Lin calls s) {tables : Tables} {orphans : List (Orphan ι)}
    (hagrees : Agrees (serveInMemory (memory calls s.order) (calls i)).2 tables)
    (hgrows : Grows s.tables tables) (honce : (s.order ++ [i] ++ orphans.map Orphan.call).Nodup)
    (horphans : ∀ x ∈ orphans, x ∈ s.orphans) :
    Lin calls ⟨tables, s.order ++ [i], orphans⟩ where
  agrees := by
    rw [memory, after_concat]
    exact hagrees
  once := honce
  sent := fun o ho => by
    obtain ⟨hcall, hsent⟩ := h.sent o (horphans o ho)
    exact ⟨hcall, hsent.mono hgrows⟩

/-- A call which is fresh may take effect. -/
lemma Lin.nodup_takes (h : Lin calls s) (hi : Fresh i s) :
    (s.order ++ [i] ++ s.orphans.map Orphan.call).Nodup := by
  have : (s.order ++ [i] ++ s.orphans.map Orphan.call).Perm
      (i :: (s.order ++ s.orphans.map Orphan.call)) := by
    rw [List.append_assoc]
    exact List.perm_middle
  exact this.nodup_iff.mpr (List.nodup_cons.mpr ⟨hi, h.once⟩)

/-! ### What the database does -/

lemma grows_refl (t : Tables) : Grows t t := fun _ => le_rfl

lemma grows_withRows (us : List Unnested) : Grows s.tables (s.withRows id us) := by
  intro id'
  rw [Shared.withRows, rowsOf_append, List.length_append]
  omega

lemma grows_upsertSnapshot (t : Tables) (r : SnapshotRow) :
    Grows t (t.upsertSnapshot id r) := by
  intro id'
  unfold Tables.upsertSnapshot
  split <;> exact le_rfl

/-- What the others see of a call taking effect. -/
lemma rely_takes {j : ι} {tables : Tables} {orphans : List (Orphan ι)} (hj : j ≠ i)
    (hgrows : Grows s.tables tables) (horphans : ∀ x ∈ orphans, x ∈ s.orphans) :
    (calling calls).rely j s ⟨tables, s.order ++ [i], orphans⟩ := by
  refine ⟨List.prefix_append .., hgrows, fun hfresh hmem => hfresh ?_⟩
  rw [List.mem_append] at hmem ⊢
  rcases hmem with hmem | hmem
  · rcases List.mem_append.mp hmem with hmem | hmem
    · exact .inl hmem
    · exact absurd (List.mem_singleton.mp hmem) hj
  · obtain ⟨x, hx, rfl⟩ := List.mem_map.mp hmem
    exact .inr (List.mem_map_of_mem (horphans x hx))

/-- What the commit of a batch means to the in-memory store. -/
lemma Lin.commit (h : Lin calls s) (hcalls : Bounded calls) {us : List Unnested}
    (hsent : Sent (calls i) s.tables (.append (.commit id us)))
    (hkeys : ((s.tables.events ++ us.map (row id)).map Row.key).Nodup) :
    (serveInMemory (memory calls s.order) (calls i)).1 = .append (.ok ()) ∧
      Agrees (serveInMemory (memory calls s.order) (calls i)).2 (s.withRows id us) := by
  obtain ⟨next, events, hcall, hus, hne, hle⟩ := hsent
  have hbound := hcalls i id next events hcall
  rw [h.agrees.length_rows] at hle
  have hnext := h.agrees.next_eq hbound hus hne hle hkeys
  rw [hcall, serve_append h.agrees hnext]
  refine ⟨rfl, ?_⟩
  rw [Shared.withRows, unnested_stored hbound hus]
  exact h.agrees.extend hnext hbound

/-- What a violated key means to the in-memory store. -/
lemma Lin.violation (h : Lin calls s) (hcalls : Bounded calls) {us : List Unnested}
    (hsent : Sent (calls i) s.tables (.append (.commit id us)))
    (hkeys : ¬((s.tables.events ++ us.map (row id)).map Row.key).Nodup) :
    serveInMemory (memory calls s.order) (calls i) =
      (.append (.error .conflict), memory calls s.order) := by
  obtain ⟨next, events, hcall, hus, hne, hle⟩ := hsent
  have hbound := hcalls i id next events hcall
  rw [hcall]
  refine serve_conflict h.agrees fun hnext => hkeys ?_
  rw [unnested_stored hbound hus]
  refine h.agrees.keys_append hnext ?_
  simp only [WithinBigint, bigintMax] at hbound
  omega

/-- What a failed guard means to the in-memory store. -/
lemma Lin.guard (h : Lin calls s) {n next : ℤ}
    (hsent : Sent (calls i) s.tables (.append (.guard id next)))
    (hn : coalesceMax s.tables.events id = some n) (hne : n ≠ next) :
    serveInMemory (memory calls s.order) (calls i) =
      (.append (.error .conflict), memory calls s.order) := by
  obtain ⟨no, events, hcall, rfl, -⟩ := hsent
  rw [h.agrees.coalesceMax] at hn
  rw [hcall]
  refine serve_conflict h.agrees fun hnext => hne ?_
  rw [hnext]
  exact (Option.some.inj hn).symm

/-- **Every statement of a call** keeps the tables explained, and leaves the other calls theirs. -/
lemma executes_keeps (hcalls : Bounded calls) {op : Op} {x : op.Ans} (h : Lin calls s)
    (hpre : Fresh i s ∧ Sent (calls i) s.tables op) (hx : Executes i (calls i) s op x s') :
    Lin calls s' ∧ ∀ j, j ≠ i → (calling calls).rely j s s' := by
  obtain ⟨hfresh, hsent⟩ := hpre
  have hreads : ∀ {tables : Tables},
      Agrees (serveInMemory (memory calls s.order) (calls i)).2 tables →
      Grows s.tables tables →
      Lin calls (s.takes i tables) ∧ ∀ j, j ≠ i → (calling calls).rely j s (s.takes i tables) :=
    fun hagrees hgrows => ⟨h.takes hagrees hgrows (h.nodup_takes hfresh) fun _ hx => hx,
      fun j hj => rely_takes hj hgrows fun _ hx => hx⟩
  have horphan : Lin calls { s with orphans := ⟨i, calls i, op⟩ :: s.orphans } ∧
      ∀ j, j ≠ i →
        (calling calls).rely j s { s with orphans := ⟨i, calls i, op⟩ :: s.orphans } := by
    refine ⟨⟨h.agrees, ?_, fun x hx => ?_⟩, fun j hj => ⟨List.prefix_rfl, grows_refl _, ?_⟩⟩
    · refine List.perm_middle.nodup_iff.mpr (List.nodup_cons.mpr ⟨hfresh, h.once⟩)
    · rcases List.mem_cons.mp hx with rfl | hx
      · exact ⟨rfl, hsent⟩
      · exact h.sent x hx
    · intro hj' hmem
      refine hj' ?_
      rw [List.mem_append, List.map_cons, List.mem_cons] at hmem
      rw [List.mem_append]
      rcases hmem with hmem | hmem | hmem
      · exact .inl hmem
      · exact absurd hmem hj
      · exact .inr hmem
  have hsame : Lin calls s ∧ ∀ j, j ≠ i → (calling calls).rely j s s :=
    ⟨h, fun j _ => (calling calls).rely_refl j s⟩
  cases hx with
  | selectNext hn =>
      obtain ⟨next, hcall⟩ := hsent
      refine hreads ?_ (grows_refl _)
      rw [hcall, serve_append_nil h.agrees]
      exact h.agrees
  | guard hn => exact hsame
  | guardRejects hn hne =>
      refine hreads ?_ (grows_refl _)
      rw [h.guard hsent hn hne]
      exact h.agrees
  | commit hkeys => exact hreads (h.commit hcalls hsent hkeys).2 (grows_withRows _)
  | violation hkeys =>
      refine hreads ?_ (grows_refl _)
      rw [h.violation hcalls hsent hkeys]
      exact h.agrees
  | guardFails | commitFails | upsertSnapshotFails => exact horphan
  | selectEvents id start limit =>
      obtain ⟨n, l, hcall, -, -⟩ := hsent
      refine hreads ?_ (grows_refl _)
      rw [hcall]
      exact h.agrees
  | upsertSnapshot id r =>
      obtain ⟨next, snapshot, hcall, rfl⟩ := hsent
      refine hreads ?_ (grows_upsertSnapshot _ _)
      rw [hcall]
      exact h.agrees.upsert next snapshot
  | selectSnapshot id =>
      refine hreads ?_ (grows_refl _)
      rw [show calls i = .load id from hsent]
      exact h.agrees
  | selectNextFails | selectEventsFails | selectSnapshotFails => exact hsame

/-- An orphan which is done. -/
lemma Lin.nodup_orphan (h : Lin calls s) {o : Orphan ι} {before later : List (Orphan ι)}
    (ho : s.orphans = before ++ o :: later) :
    (s.order ++ [o.call] ++ (before ++ later).map Orphan.call).Nodup := by
  have honce := h.once
  rw [ho] at honce
  refine List.Perm.nodup_iff ?_ |>.mp honce
  simp only [List.map_append, List.map_cons, List.append_assoc]
  refine List.Perm.append_left _ ?_
  exact List.perm_middle

/-- The orphans but one. -/
lemma mem_orphans {o o' : Orphan ι} {before later : List (Orphan ι)}
    (ho : s.orphans = before ++ o :: later) (h : o' ∈ before ++ later) : o' ∈ s.orphans := by
  rw [ho]
  rcases List.mem_append.mp h with h | h
  · exact List.mem_append_left _ h
  · exact List.mem_append_right _ (List.mem_cons_of_mem _ h)

/-- An orphan takes effect for its call. -/
lemma Lin.takes_orphan (h : Lin calls s) {o : Orphan ι} {tables : Tables}
    {before later : List (Orphan ι)} (ho : s.orphans = before ++ o :: later)
    (hagrees : Agrees (serveInMemory (memory calls s.order) (calls o.call)).2 tables)
    (hgrows : Grows s.tables tables) :
    Lin calls ⟨tables, s.order ++ [o.call], before ++ later⟩ ∧
      ∀ j, (calling calls).rely j s ⟨tables, s.order ++ [o.call], before ++ later⟩ := by
  refine ⟨h.takes hagrees hgrows (h.nodup_orphan ho) fun _ => mem_orphans ho, fun j => ?_⟩
  by_cases hj : j = o.call
  · refine ⟨List.prefix_append .., hgrows, fun hfresh => absurd ?_ hfresh⟩
    rw [List.mem_append, ho, hj]
    exact .inr (by simp)
  · exact rely_takes hj hgrows fun _ => mem_orphans ho

/-- An orphan whose guard has seen its position. -/
lemma Sent.guarded {c : Request} {t : Tables} {m : InMemoryStore PersistenceId} {n : ℤ}
    {us : List Unnested} (h : Agrees m t) (hsent : Sent c t (.append (.guard id n)))
    (hbinds : c.Binds id n us) (hn : coalesceMax t.events id = some n) :
    Sent c t (.append (.commit id us)) := by
  obtain ⟨next, events, hcall, hno, hus⟩ := hbinds
  obtain ⟨next', events', hcall', -, hne⟩ := hsent
  obtain ⟨rfl, rfl⟩ : next = next' ∧ events = events' := by
    simpa using hcall.symm.trans hcall'
  rw [h.coalesceMax] at hn
  refine ⟨next, events, hcall, hno ▸ hus, hne, ?_⟩
  rw [h.length_rows]
  have := Option.some.inj hn
  omega

/-- **Whatever an orphan does** keeps the tables explained, and leaves the calls theirs. -/
lemma orphaned_keeps (hcalls : Bounded calls) (h : Lin calls s) (hx : Orphaned s s') :
    Lin calls s' ∧ ∀ j, (calling calls).rely j s s' := by
  cases hx with
  | @guard i c id n us before later ho hbinds hn =>
      have hcalls : (before ++ ⟨i, c, .append (.commit id us)⟩ :: later).map Orphan.call =
          s.orphans.map Orphan.call := by
        rw [ho]
        simp
      refine ⟨⟨h.agrees, by dsimp only; rw [hcalls]; exact h.once, fun o hmem => ?_⟩, fun j =>
        ⟨List.prefix_rfl, grows_refl _, fun hfresh => by rwa [Fresh, hcalls]⟩⟩
      rcases List.mem_append.mp hmem with hmem | hmem
      · exact h.sent o (mem_orphans ho (List.mem_append_left _ hmem))
      rcases List.mem_cons.mp hmem with rfl | hmem
      · obtain ⟨hcall, hsent⟩ := h.sent ⟨i, c, .append (.guard id n)⟩ (by rw [ho]; simp)
        exact ⟨hcall, hsent.guarded h.agrees hbinds hn⟩
      · exact h.sent o (mem_orphans ho (List.mem_append_right _ hmem))
  | @commit i c id us before later ho hkeys =>
      obtain ⟨hcall, hsent⟩ := h.sent ⟨i, c, .append (.commit id us)⟩ (by rw [ho]; simp)
      dsimp only at hcall hsent
      rw [hcall] at hsent
      exact h.takes_orphan ho (h.commit hcalls hsent hkeys).2 (grows_withRows us)
  | @upsertSnapshot i c id r before later ho =>
      obtain ⟨hcall, next, snapshot, hc, rfl⟩ :=
        h.sent ⟨i, c, .upsertSnapshot id r⟩ (by rw [ho]; simp)
      refine h.takes_orphan ho ?_ (grows_upsertSnapshot _ _)
      dsimp only at hcall hc ⊢
      rw [← hcall, hc]
      exact h.agrees.upsert next snapshot
  | @gone orphan before later ho =>
      have hsub : ((before ++ later).map Orphan.call).Sublist (s.orphans.map Orphan.call) := by
        rw [ho]
        exact ((List.sublist_cons_self ..).append_left before).map _
      refine ⟨⟨h.agrees, h.once.sublist (hsub.append_left _), fun o hmem =>
        h.sent o (mem_orphans ho hmem)⟩,
        fun j => ⟨List.prefix_rfl, grows_refl _, fun hfresh hmem => hfresh ?_⟩⟩
      exact (hsub.append_left s.order).subset hmem

/-! ### The calls -/

/-- What is true of a call which has returned: it was told of a failure, or it is explained. -/
def Explained (calls : ι → Request) (i : ι) (s : Shared ι) (reply : Reply) : Prop :=
  reply.failed = true ∨ (i, reply) ∈ results calls s.order

lemma stable_fresh : Stable (calling calls) i (Fresh i) := fun _ _ h hr _ => hr.2.2 h

lemma stable_explained (reply : Reply) :
    Stable (calling calls) i fun s => Explained calls i s reply := by
  rintro s s' h ⟨horder, -, -⟩ -
  exact h.imp_right fun hmem => (outcomes_mono _ horder).subset hmem

/-- A call returns what the in-memory store returns where it takes effect. -/
lemma safe_takes {reply : Reply} {tables : Tables}
    (hreply : (serveInMemory (memory calls s.order) (calls i)).1 = reply) :
    Explained calls i (s.takes i tables) reply := by
  refine .inr ?_
  rw [results, Shared.takes, outcomes_concat, ← hreply]
  exact List.mem_append_right _ List.mem_cons_self

/-- A call which is told of a failure. -/
lemma safe_failed {α : Type} {f : α → Reply} {a : α} (hf : (f a).failed = true) :
    Safe (calling calls) i (fun s a => Explained calls i s (f a)) (.ret a) s :=
  fun _ _ _ => .inl hf

/-- A call which is explained. -/
lemma safe_explained {α : Type} {f : α → Reply} {a : α} (h : Explained calls i s (f a)) :
    Safe (calling calls) i (fun s a => Explained calls i s (f a)) (.ret a) s :=
  Safe.ret_of (stable_explained (f a)) h fun _ _ ht => ht

lemma read_safe {start : SeqNo} {limit : ℕ} (hcall : calls i = .read id start limit)
    (hi : Fresh i s) :
    Safe (calling calls) i (fun s r => Explained calls i s (.read r)) (read id start limit) s := by
  rw [read]
  cases hstart : intoBigint start with
  | error e => exact safe_failed (f := Reply.read) rfl
  | ok no =>
      obtain rfl := intoBigint_eq hstart
      refine Safe.call_of stable_fresh hi fun t hinv ht =>
        ⟨⟨ht, start, limit, hcall, rfl, rfl⟩, fun x t' hx hinv' => ?_⟩
      cases hx with
      | selectEventsFails _ _ _ e => exact safe_failed (f := Reply.read) rfl
      | selectEvents _ _ _ =>
          refine safe_explained (f := Reply.read) (safe_takes ?_)
          rw [hcall, hinv.agrees.mapM_selectEvents]
          rfl

lemma save_safe {next : SeqNo} {snapshot : EncodedSnapshot}
    (hcall : calls i = .save id next snapshot) (hi : Fresh i s) :
    Safe (calling calls) i (fun s r => Explained calls i s (.save r))
      (save id next snapshot) s := by
  rw [save]
  cases hnext : intoBigint next with
  | error e => exact safe_failed (f := Reply.save) rfl
  | ok no =>
      obtain rfl := intoBigint_eq hnext
      refine Safe.call_of stable_fresh hi fun t hinv ht =>
        ⟨⟨ht, next, snapshot, hcall, rfl⟩, fun x t' hx hinv' => ?_⟩
      cases hx with
      | upsertSnapshotFails _ _ e => exact safe_failed (f := Reply.save) rfl
      | upsertSnapshot _ _ =>
          refine safe_explained (f := Reply.save) (safe_takes ?_)
          rw [hcall]
          rfl

lemma load_safe (hcall : calls i = .load id) (hi : Fresh i s) :
    Safe (calling calls) i (fun s r => Explained calls i s (.load r)) (load id) s := by
  refine Safe.call_of stable_fresh hi fun t hinv ht => ⟨⟨ht, hcall⟩, fun x t' hx hinv' => ?_⟩
  cases hx with
  | selectSnapshotFails _ e => exact safe_failed (f := Reply.load) rfl
  | selectSnapshot _ =>
      have hserve : (serveInMemory (memory calls t.order) (calls i)).1 =
          .load (.ok ((memory calls t.order).load id)) := by
        rw [hcall]
        rfl
      rw [hinv.agrees.find_snapshot]
      cases hload : (memory calls t.order).load id with
      | none =>
          rw [hload] at hserve
          exact safe_explained (f := Reply.load) (safe_takes hserve)
      | some snapshot =>
          rw [hload] at hserve
          simp only [Option.map_some]
          refine safe_explained (f := Reply.load) (safe_takes ?_)
          rw [storedSnapshot_snapshotRow]
          exact hserve

/-- What the result of the conditional `INSERT` says. -/
def Inserted (calls : ι → Request) (i : ι) (n : ℕ) (s : Shared ι) :
    Except SqlxError ℕ → Prop
  | .ok done => Explained calls i s (.append (if done = n then .ok () else .error .conflict))
  | .error e => isUniqueViolation e = true → Explained calls i s (.append (.error .conflict))

/-- **The conditional `INSERT`** is a conflict where its guard fails or its key is taken, and an
append where it commits. -/
lemma insert_linearizes (hcalls : Bounded calls) {next : SeqNo} {events : List EncodedEvent}
    {us : List Unnested} (hcall : calls i = .append id next events) (hne : events ≠ [])
    (hus : unnested next.toNat 0 events = .ok us) (hi : Fresh i s) :
    Safe (calling calls) i (Inserted calls i us.length)
      ((insert id us next.toNat).translate fun op => execute (.append op)) s := by
  have hpos : us.length ≠ 0 := by
    have hlen := congrArg List.length (unnested_eq id hus)
    rw [List.length_map, List.length_mapIdx] at hlen
    rw [hlen]
    exact fun h0 => hne (List.eq_nil_of_length_eq_zero h0)
  have hok : ∀ {t : Shared ι} {done : ℕ},
      Explained calls i t (.append (if done = us.length then .ok () else .error .conflict)) →
      Safe (calling calls) i (Inserted calls i us.length) (.ret (.ok done)) t :=
    fun ht => Safe.ret_of (stable_explained _) ht fun _ _ ht => ht
  have hfails : ∀ {t : Shared ι} {e : SqlxError}, isUniqueViolation e = false →
      Safe (calling calls) i (Inserted calls i us.length) (.ret (.error e)) t := by
    intro t e he t' _ _ hviolation
    rw [he] at hviolation
    cases hviolation
  refine Safe.call_of stable_fresh hi fun t hinv ht =>
    ⟨⟨ht, next, events, hcall, rfl, hne⟩, fun x t' hx hinv' => ?_⟩
  have hguard : Sent (calls i) t.tables (.append (.guard id next.toNat)) :=
    ⟨next, events, hcall, rfl, hne⟩
  cases hx with
  | guardFails _ _ he => exact hfails he
  | guardRejects hn hstale =>
      refine hok (safe_takes ?_)
      rw [hinv.guard hguard hn hstale, if_neg (Ne.symm hpos)]
  | guard hn =>
      -- the position is the end of the stream now, and not beyond it from now on
      have hreached : next.toNat ≤ (rowsOf t.tables.events id).length := by
        rw [hinv.agrees.coalesceMax] at hn
        rw [hinv.agrees.length_rows]
        have := Option.some.inj hn
        omega
      have hstable : Stable (calling calls) i
          fun s => Fresh i s ∧ next.toNat ≤ (rowsOf s.tables.events id).length :=
        stable_fresh.and fun _ _ h hr _ => h.trans (hr.2.1 id)
      refine Safe.call_of hstable ⟨ht, hreached⟩ fun u hinvu hu =>
        ⟨⟨hu.1, next, events, hcall, hus, hne, hu.2⟩, fun x u' hx hinvu' => ?_⟩
      have hsent : Sent (calls i) u.tables (.append (.commit id us)) :=
        ⟨next, events, hcall, hus, hne, hu.2⟩
      cases hx with
      | commit hkeys =>
          refine hok (safe_takes ?_)
          rw [(hinvu.commit hcalls hsent hkeys).1, if_pos rfl]
      | violation hkeys =>
          refine Safe.ret_of (stable_explained (.append (.error .conflict)))
            (safe_takes ?_) fun _ _ ht _ => ht
          rw [hinvu.violation hcalls hsent hkeys]
      | commitFails _ _ he => exact hfails he

lemma append_linearizes (hcalls : Bounded calls) {next : SeqNo} {events : List EncodedEvent}
    (hcall : calls i = .append id next events) (hi : Fresh i s) :
    Safe (calling calls) i (fun s r => Explained calls i s (.append r))
      ((append id next events).translate fun op => execute (.append op)) s := by
  rw [append]
  cases hnext : intoBigint next with
  | error e => exact safe_failed (f := Reply.append) rfl
  | ok no =>
      obtain rfl := intoBigint_eq hnext
      dsimp only
      split
      · rename_i hempty
        obtain rfl : events = [] := List.isEmpty_iff.mp hempty
        refine Safe.call_of stable_fresh hi fun t hinv ht =>
          ⟨⟨ht, next, hcall⟩, fun x t' hx hinv' => ?_⟩
        cases hx with
        | selectNextFails _ e => exact safe_failed (f := Reply.append) rfl
        | @selectNext _ n hn =>
            rw [hinv.agrees.coalesceMax] at hn
            obtain rfl := Option.some.inj hn
            have hserve : serveInMemory (memory calls t.order) (.append id next []) = _ :=
              serve_append_nil hinv.agrees
            rw [← hcall] at hserve
            by_cases hsame : next.toNat = ((memory calls t.order).streams id).length
            · rw [if_pos hsame] at hserve
              simp only [Prog.ret_bind, if_pos (congrArg Nat.cast hsame.symm)]
              exact safe_explained (f := Reply.append) (safe_takes (by rw [hserve]))
            · rw [if_neg hsame] at hserve
              have hne : ((((memory calls t.order).streams id).length : ℕ) : ℤ) ≠ next.toNat := by
                omega
              simp only [Prog.ret_bind, if_neg hne]
              exact safe_explained (f := Reply.append) (safe_takes (by rw [hserve]))
      · rename_i hempty
        have hne : events ≠ [] := fun h => hempty (List.isEmpty_iff.mpr h)
        cases hus : unnested next.toNat 0 events with
        | error e => exact safe_failed (f := Reply.append) rfl
        | ok us =>
            dsimp only
            rw [Prog.bind_eq, Prog.translate_bind]
            refine (insert_linearizes hcalls hcall hne hus hi).bind fun t r hinv hr => ?_
            cases r with
            | ok done =>
                dsimp only
                split
                · rename_i hdone
                  rw [Inserted, if_pos hdone] at hr
                  exact safe_explained (f := Reply.append) hr
                · rename_i hdone
                  rw [Inserted, if_neg hdone] at hr
                  exact safe_explained (f := Reply.append) hr
            | error e =>
                dsimp only
                split
                · rename_i hviolation
                  exact safe_explained (f := Reply.append) (hr hviolation)
                · exact safe_failed (f := Reply.append) rfl

/-- **Every call** is explained by what it does, or told of a failure. -/
lemma perform_safe (hcalls : Bounded calls) (hi : Fresh i s) :
    Safe (calling calls) i (Explained calls i) (calls i).perform s := by
  cases hcall : calls i with
  | append id next events =>
      exact (append_linearizes hcalls hcall hi).bind fun t r _ hr =>
        safe_explained (f := fun reply : Reply => reply) hr
  | read id start limit =>
      exact (read_safe hcall hi).bind fun t r _ hr =>
        safe_explained (f := fun reply : Reply => reply) hr
  | save id next snapshot =>
      exact (save_safe hcall hi).bind fun t r _ hr =>
        safe_explained (f := fun reply : Reply => reply) hr
  | load id =>
      exact (load_safe hcall hi).bind fun t r _ hr =>
        safe_explained (f := fun reply : Reply => reply) hr

/-! ### Every run -/

variable [DecidableEq ι] {st st' : Tasks ι Op Op.Ans (Shared ι) (Option Reply)}

/-- What holds of a call which has not begun or has returned. -/
def Standing (calls : ι → Request) (i : ι) (s : Shared ι) : Option Reply → Prop
  | none => Fresh i s
  | some reply => Explained calls i s reply

/-- In every reachable state the tables are explained and every call is safe. -/
lemma Reaches.good (hcalls : Bounded calls) (h : Reaches calls st) :
    Tasks.Good (calling calls) (Standing calls) st := by
  refine Tasks.invariant (C := calling calls) (fun i s pt _ hpt => ?_)
    (fun i s op x s' hinv hpre hx => executes_keeps hcalls hinv hpre hx)
    (fun s s' hinv hx => orphaned_keeps hcalls hinv hx) ?_ h
  · cases pt with
    | none =>
        exact (perform_safe hcalls hpt).bind fun t reply _ hreply =>
          Safe.ret_of (stable_explained reply) hreply fun _ _ ht => ht
    | some reply => exact Safe.ret_of (stable_explained reply) hpt fun _ _ ht => ht
  · exact ⟨Lin.init, fun i => Safe.ret_of stable_fresh (by simp [Fresh, Shared.init])
      fun _ _ ht => ht⟩

/-- The order only grows. -/
lemma order_grows (hr : Tasks.Reaches (fun i => (calls i).code) (fun i => Executes i (calls i))
      Orphaned st st') :
    st.shared.order <+: st'.shared.order := by
  induction hr with
  | refl => exact List.prefix_rfl
  | tail _ hs ih =>
      refine ih.trans ?_
      cases hs with
      | answer j hj hx =>
          cases hx <;> first | exact List.prefix_rfl | exact List.prefix_append ..
      | jump => exact List.prefix_rfl
      | env he => cases he <;> first | exact List.prefix_rfl | exact List.prefix_append ..

/-- **The PostgreSQL store is linearizable**, also over connections which break.  For any calls of
`append`, `read`, `save` and `load`, any interleaving of their statements, and whatever becomes of
statements whose calls were told of a failure: the calls which have taken effect, each of them
once and none before it began, could have been made to the in-memory store one after another, in
an order which only grows at its end.  The tables hold what that store then holds, a call which was
not told of a failure has returned what that store returns, and a call which has returned so comes
before any call which had not begun by then. -/
theorem store_linearizable (hcalls : Bounded calls) (h : Reaches calls st) :
    st.shared.order.Nodup ∧
      Agrees (memory calls st.shared.order) st.shared.tables ∧
      (∀ i, st.task i = .ret none → i ∉ st.shared.order) ∧
      (∀ i reply, st.task i = .ret (some reply) →
        reply.failed = true ∨ (i, reply) ∈ results calls st.shared.order) ∧
      ∀ st', Tasks.Reaches (fun i => (calls i).code) (fun i => Executes i (calls i)) Orphaned
          st st' →
        st.shared.order <+: st'.shared.order ∧
        ∀ i j reply, st.task i = .ret (some reply) → reply.failed = false →
          st.task j = .ret none → ∃ before later, st'.shared.order = before ++ later ∧
            i ∈ before ∧ j ∉ before := by
  obtain ⟨hinv, hsafe⟩ := h.good hcalls
  have hstanding : ∀ {i pt}, st.task i = .ret pt → Standing calls i st.shared pt := by
    intro i pt hpt
    have hi := hsafe i
    rw [hpt] at hi
    exact hi.result hinv
  have hnot : ∀ i, st.task i = .ret none → i ∉ st.shared.order := by
    intro i hi hmem
    exact (hstanding hi) (List.mem_append_left _ hmem)
  refine ⟨(List.nodup_append.mp hinv.once).1, hinv.agrees, hnot, fun i reply hi => hstanding hi,
    fun st' hst' => ⟨order_grows hst', fun i j reply hi hok hj => ?_⟩⟩
  obtain ⟨later, hlater⟩ := order_grows hst'
  refine ⟨_, later, hlater.symm, ?_, hnot j hj⟩
  have hmem := (hstanding hi).resolve_left (by rw [hok]; simp)
  have hfst := List.mem_map_of_mem (f := Prod.fst) hmem
  rwa [results, outcomes_fst] at hfst

/-- An append whose connection breaks, and a read. -/
def lostAck : Bool → Request
  | true => .append orderId SeqNo.zero [⟨"placed", ⟨1⟩, []⟩]
  | false => .read orderId SeqNo.zero 512

/-- The append is told of a failure, the read finds nothing, and then the append commits: the read
comes first. -/
theorem store_linearizable_lost_ack :
    Bounded lostAck ∧ ∃ st, Reaches lostAck st ∧
      st.task true = .ret (some (.append (.error (.store (.sqlx .connection))))) ∧
      st.shared.order = [false, true] ∧
      Agrees (memory lostAck [false, true]) st.shared.tables := by
  have hcalls : Bounded lostAck := by
    rintro (_ | _) id next events hcall
    · cases hcall
    · cases hcall
      rw [WithinBigint]
      decide
  have hsees : coalesceMax [] orderId = some 0 := rfl
  have hfree : ((([] : List Row) ++ [(⟨0, "placed", 1, []⟩ : Unnested)].map (row orderId)).map
      Row.key).Nodup := by simp
  have h : Reaches lostAck ⟨Shared.init, fun _ => .ret none⟩ := Relation.ReflTransGen.refl
  have h : Reaches lostAck _ := h.tail (.jump true rfl)
  have h : Reaches lostAck _ := h.tail (.answer true rfl (.guard hsees))
  have h : Reaches lostAck _ :=
    h.tail (.answer true rfl (.commitFails orderId _ (e := .connection) rfl))
  have h : Reaches lostAck _ := h.tail (.jump false rfl)
  have h : Reaches lostAck _ := h.tail (.answer false rfl (.selectEvents orderId 0 512))
  have h : Reaches lostAck _ := h.tail (.env (.commit (show _ = [] ++ _ :: [] from rfl) hfree))
  exact ⟨hcalls, _, h, rfl, rfl, (store_linearizable hcalls h).2.1⟩

end Tellus.Postgres
