import Mathlib.Tactic
import Tellus.Lib.Runs
import Tellus.Persistence.Log
import Tellus.Postgres.Fencing
import Tellus.Postgres.Store

/-!
The in-memory store and the PostgreSQL store agree.

One of them finds an event by its index, the other by its number; one compares a position with
the length of a vector, the other with the largest number there is, and counts affected rows.
They come to the same because a stream has no gap: `Agrees` relates a table to the streams it
holds row by row, and each of the four calls keeps it and is answered alike.

* `append_agrees`, `read_agrees`, `save_agrees`, `load_agrees`: one call.
* `stores_agree`: any calls, one after another, from empty stores.
-/

namespace Tellus.Postgres

open Concurrent

/-! ### Calls -/

/-- A call of a store. -/
inductive Request where
  | append (id : PersistenceId) (next : SeqNo) (events : List EncodedEvent)
  | read (id : PersistenceId) (start : SeqNo) (limit : ℕ)
  | save (id : PersistenceId) (next : SeqNo) (snapshot : EncodedSnapshot)
  | load (id : PersistenceId)

/-- What a call returns. -/
inductive Reply where
  | append (result : Except (AppendError Error) Unit)
  | read (result : Except Error (List StoredEvent))
  | save (result : Except Error Unit)
  | load (result : Except Error (Option StoredSnapshot))

/-- The result of an append, the in-memory store having no failures of its own. -/
def infallible : Except (AppendError Empty) Unit → Except (AppendError Error) Unit
  | .ok () => .ok ()
  | .error .conflict => .error .conflict
  | .error (.store e) => nomatch e

/-- A call of the in-memory store. -/
def serveInMemory (m : InMemoryStore PersistenceId) :
    Request → Reply × InMemoryStore PersistenceId
  | .append id next events =>
      (.append (infallible (m.append id next events).1), (m.append id next events).2)
  | .read id start limit => (.read (.ok (m.read id start limit)), m)
  | .save id next snapshot => (.save (.ok ()), m.save id next snapshot)
  | .load id => (.load (.ok (m.load id)), m)

/-- A call of the PostgreSQL store. -/
def servePostgres (t : Tables) : Request → Reply × Tables
  | .append id next events =>
      (.append (PostgresStore.append t id next events).1, (PostgresStore.append t id next events).2)
  | .read id start limit => (.read (PostgresStore.read t id start limit), t)
  | .save id next snapshot =>
      (.save (PostgresStore.save t id next snapshot).1, (PostgresStore.save t id next snapshot).2)
  | .load id => (.load (PostgresStore.load t id), t)

/-- The position is one of a `BIGINT`. -/
def WithinBigint (n : ℕ) : Prop := (n : ℤ) ≤ bigintMax

/-- The positions of a call, and its position plus the length of its batch, are within `BIGINT`,
and its strings are such as `TEXT` accepts. -/
def Request.Within : Request → Prop
  | .append id next events => WithinBigint (next.toNat + events.length) ∧
      (∀ s ∈ idTexts id, acceptsText s) ∧ ∀ e ∈ events, acceptsText e.manifest
  | .read id start _ => WithinBigint start.toNat ∧ ∀ s ∈ idTexts id, acceptsText s
  | .save id next snapshot => WithinBigint next.toNat ∧ (∀ s ∈ idTexts id, acceptsText s) ∧
      acceptsText snapshot.manifest
  | .load id => ∀ s ∈ idTexts id, acceptsText s

/-! ### Rows and what they stand for -/

/-- The row of a stored event. -/
def eventRow (id : PersistenceId) (e : StoredEvent) : Row :=
  row id ⟨e.seqNo.toNat, e.event.manifest, e.event.schemaVersion.val.toNat, e.event.payload⟩

/-- The row of a stored snapshot. -/
def snapshotRow (id : PersistenceId) (s : StoredSnapshot) : SnapshotRow :=
  ⟨id.entityType, id.entityId, s.nextSeqNo.toNat, s.snapshot.manifest,
    s.snapshot.schemaVersion.val.toNat, s.snapshot.payload⟩

/-- A position survives the way to `BIGINT` and back. -/
lemma seqNo_toNat (s : SeqNo) : seqNo (s.toNat : ℤ) = .ok s := by
  rw [seqNo, if_pos (Int.natCast_nonneg _), Int.toNat_natCast]
  exact congrArg _ (SeqNo.ext (SeqNo.toNat_new s.isLt))

/-- A schema version survives the way to `INT` and back. -/
lemma schemaVersion_toNat (v : SchemaVersion) : schemaVersion (v.val.toNat : ℤ) = .ok v := by
  have hlt := v.val.toNat_lt
  rw [schemaVersion, if_pos (by omega), Int.toNat_natCast, UInt16.ofNat_toNat]

lemma storedEvent_eventRow (id : PersistenceId) (e : StoredEvent) :
    storedEvent (eventRow id e) = .ok e := by
  simp only [storedEvent, eventRow, row, seqNo_toNat, schemaVersion_toNat]
  rfl

lemma storedSnapshot_snapshotRow (id : PersistenceId) (s : StoredSnapshot) :
    storedSnapshot (snapshotRow id s) = .ok s := by
  simp only [storedSnapshot, snapshotRow, seqNo_toNat, schemaVersion_toNat]
  rfl

/-- Rows of stored events are returned as those events. -/
lemma mapM_storedEvent (id : PersistenceId) (es : List StoredEvent) :
    (es.map (eventRow id)).mapM storedEvent = .ok es := by
  induction es with
  | nil => rfl
  | cons e es ih =>
      rw [List.map_cons, List.mapM_cons, storedEvent_eventRow, ih]
      rfl

/-! ### The relation -/

/-- The tables hold what the in-memory store holds, row by row. -/
structure Agrees (m : InMemoryStore PersistenceId) (t : Tables) : Prop where
  numbered : ∀ id, Numbered (m.streams id)
  fits : ∀ id, Fits m id
  rows : ∀ id, rowsOf t.events id = (m.streams id).map (eventRow id)
  keys : (t.events.map Row.key).Nodup
  snapshots : ∀ id, t.snapshots.filter (SnapshotRow.isOf id) =
    ((m.snapshots id).map (snapshotRow id)).toList

lemma Agrees.empty : Agrees InMemoryStore.empty Tables.empty where
  numbered := fun _ => numbered_nil
  fits := fun _ => Nat.zero_le _
  rows := fun _ => rfl
  keys := List.nodup_nil
  snapshots := fun _ => rfl

section Agrees

variable {m : InMemoryStore PersistenceId} {t : Tables} {id : PersistenceId}

lemma Agrees.length_rows (h : Agrees m t) (id : PersistenceId) :
    (rowsOf t.events id).length = (m.streams id).length := by
  rw [h.rows, List.length_map]

/-- The rows of a numbered stream have no gap. -/
lemma Agrees.gapless (h : Agrees m t) (id : PersistenceId) : Gapless t.events id := by
  rw [Gapless, h.rows, List.map_map, List.length_map]
  refine List.ext_getElem (by simp) fun n hn hn' => ?_
  have hlt : n < (m.streams id).length := by simpa using hn
  have := h.numbered id n _ (List.getElem?_eq_getElem hlt)
  simp [eventRow, row, this]

/-- The guard compares with the length of the vector. -/
lemma Agrees.coalesceMax (h : Agrees m t) (id : PersistenceId) :
    coalesceMax t.events id = some ((m.streams id).length : ℤ) := by
  have hfits : (m.streams id).length ≤ vecMax := h.fits id
  have hmax : ((m.streams id).length : ℤ) ≤ bigintMax := by
    simp only [bigintMax, vecMax] at *
    omega
  rw [coalesceMax_gapless (h.gapless id), h.length_rows, if_pos hmax]

/-! ### Appends -/

/-- The arrays of a batch within `BIGINT` can be filled. -/
lemma unnested_ok {next : ℕ} {events : List EncodedEvent} {n : ℕ}
    (h : WithinBigint (next + n + events.length)) :
    ∃ us, unnested next n events = .ok us := by
  induction events generalizing n with
  | nil => exact ⟨[], rfl⟩
  | cons event events ih =>
      simp only [WithinBigint, List.length_cons] at h
      push_cast at h
      obtain ⟨us, hus⟩ := @ih (n + 1) (by
        rw [WithinBigint]
        push_cast
        omega)
      have hseq : seqNoAt next n = .ok ((next : ℤ) + n) := by
        rw [seqNoAt, if_pos (by omega), if_pos (by omega)]
      exact ⟨_, by rw [unnested, hseq, hus]⟩

/-- The rows of a batch are those of its events as the in-memory store stores them. -/
lemma unnested_stored {id : PersistenceId} {next : SeqNo} {events : List EncodedEvent}
    {us : List Unnested} (hbound : WithinBigint (next.toNat + events.length))
    (h : unnested next.toNat 0 events = .ok us) :
    us.map (row id) = (InMemoryStore.stored next events).map (eventRow id) := by
  simp only [WithinBigint, bigintMax] at hbound
  rw [unnested_eq id h]
  refine List.ext_getElem? fun n => ?_
  rw [List.getElem?_mapIdx, List.getElem?_map, InMemoryStore.stored_getElem?, Option.map_map]
  cases hn : events[n]? with
  | none => rfl
  | some e =>
      have hlt : n < events.length := (List.getElem?_eq_some_iff.mp hn).1
      simp only [Option.map_some, Function.comp_apply, eventRow, Nat.zero_add]
      rw [SeqNo.toNat_advancedBy (by omega)]
      push_cast
      rfl

/-- At the end of a stream no key of a batch is taken. -/
lemma Agrees.keys_append (h : Agrees m t) {events : List EncodedEvent} {next : SeqNo}
    (hnext : next.toNat = (m.streams id).length)
    (hroom : next.toNat + events.length < 2 ^ 64) :
    ((t.events ++ (InMemoryStore.stored next events).map (eventRow id)).map Row.key).Nodup := by
  have hno : ∀ n (e : StoredEvent), (InMemoryStore.stored next events)[n]? = some e →
      e.seqNo.toNat = next.toNat + n := by
    intro n e he
    rw [InMemoryStore.stored_getElem?, Option.map_eq_some_iff] at he
    obtain ⟨a, ha, rfl⟩ := he
    have hlt : n < events.length := (List.getElem?_eq_some_iff.mp ha).1
    exact SeqNo.toNat_advancedBy (by omega)
  rw [List.map_append, List.nodup_append]
  refine ⟨h.keys, ?_, ?_⟩
  · -- the numbers of the batch differ from one another
    rw [List.map_map, List.nodup_iff_getElem?_ne_getElem?]
    intro n n' hlt hlen hsame
    rw [List.length_map] at hlen
    have hn := List.getElem?_eq_getElem (hlt.trans hlen)
    have hn' := List.getElem?_eq_getElem hlen
    rw [List.getElem?_map, List.getElem?_map, hn, hn'] at hsame
    simp only [Option.map_some, Function.comp_apply, eventRow, row, Row.key, Option.some.injEq,
      Prod.mk.injEq, Int.natCast_inj, true_and, hno _ _ hn, hno _ _ hn'] at hsame
    omega
  · -- and are larger than every one of the stream
    intro key hkey key' hkey' hsame
    obtain ⟨r, hr, rfl⟩ := List.mem_map.mp hkey
    obtain ⟨r', hr', rfl⟩ := List.mem_map.mp hkey'
    obtain ⟨e, he, rfl⟩ := List.mem_map.mp hr'
    obtain ⟨n, hn⟩ := List.mem_iff_getElem?.mp he
    simp only [Row.key, eventRow, row, Prod.mk.injEq] at hsame
    have hmem : r ∈ rowsOf t.events id := by
      simpa [rowsOf] using ⟨hr, hsame.1, hsame.2.1⟩
    rw [h.rows] at hmem
    obtain ⟨e', he', rfl⟩ := List.mem_map.mp hmem
    obtain ⟨n', hn''⟩ := List.mem_iff_getElem?.mp he'
    have hlt : n' < (m.streams id).length := (List.getElem?_eq_some_iff.mp hn'').1
    have hnum := h.numbered id n' e' hn''
    have := hno n e hn
    simp only [eventRow, row] at hsame
    omega

/-- The batch goes to the end of its stream in both stores. -/
lemma Agrees.extend (h : Agrees m t) {events : List EncodedEvent} {next : SeqNo}
    (hnext : next.toNat = (m.streams id).length)
    (hbound : WithinBigint (next.toNat + events.length)) :
    Agrees
      { m with streams :=
          Function.update m.streams id (m.streams id ++ InMemoryStore.stored next events) }
      { t with events := t.events ++ (InMemoryStore.stored next events).map (eventRow id) } := by
  simp only [WithinBigint, bigintMax] at hbound
  have hrows : ∀ id', rowsOf ((InMemoryStore.stored next events).map (eventRow id)) id' =
      if id = id' then (InMemoryStore.stored next events).map (eventRow id) else [] := by
    intro id'
    have hmap : (InMemoryStore.stored next events).map (eventRow id) =
        ((InMemoryStore.stored next events).map fun e => (⟨e.seqNo.toNat, e.event.manifest,
          e.event.schemaVersion.val.toNat, e.event.payload⟩ : Unnested)).map (row id) := by
      rw [List.map_map]
      rfl
    rw [hmap, rowsOf_rows]
  refine ⟨fun id' => ?_, fun id' => ?_, fun id' => ?_, h.keys_append hnext (by omega), h.snapshots⟩
  · by_cases hid : id' = id
    · subst hid
      simp only [Function.update_self]
      exact numbered_append (h.numbered id') hnext (by omega)
    · simp only [Function.update_of_ne hid]
      exact h.numbered id'
  · by_cases hid : id' = id
    · subst hid
      simp only [Fits, Function.update_self, List.length_append, InMemoryStore.stored_length,
        vecMax]
      omega
    · simp only [Fits, Function.update_of_ne hid]
      exact h.fits id'
  · dsimp only
    rw [rowsOf_append, hrows, h.rows]
    by_cases hid : id' = id
    · subst hid
      simp
    · simp [Function.update_of_ne hid, Ne.symm hid]

/-- An append which adds nothing is decided by the position alone. -/
lemma append_nil_agrees (h : Agrees m t) {next : SeqNo} (hbound : WithinBigint next.toNat)
    (htexts : (idTexts id).all acceptsText) :
    PostgresStore.append t id next [] =
      (if next.toNat = (m.streams id).length then .ok () else .error .conflict, t) := by
  have hnext : intoBigint next = .ok (next.toNat : ℤ) := if_pos hbound
  have hanswer : t.answer (idTexts id) (.selectNext id) =
      (.ok ((m.streams id).length : ℤ), t) := by
    rw [Tables.answer, if_pos htexts, h.coalesceMax]
  simp only [PostgresStore.append, Postgres.append, hnext, List.isEmpty_nil, if_true,
    List.map_nil, List.append_nil, query, Prog.bind_eq, Prog.op_bind, Prog.runOn_call, hanswer]
  by_cases hn : next.toNat = (m.streams id).length
  · rw [if_pos hn, if_pos (by rw [hn])]
    rfl
  · rw [if_neg hn, if_neg (by omega)]
    rfl

/-- An append of events is decided by the position alone, and adds their rows. -/
lemma append_cons_agrees (h : Agrees m t) {next : SeqNo} {events : List EncodedEvent}
    (hne : events ≠ []) (hbound : WithinBigint (next.toNat + events.length))
    (htexts : (idTexts id ++ events.map EncodedEvent.manifest).all acceptsText) :
    PostgresStore.append t id next events =
      if next.toNat = (m.streams id).length then
        (.ok (), { t with
          events := t.events ++ (InMemoryStore.stored next events).map (eventRow id) })
      else (.error .conflict, t) := by
  have hle : WithinBigint next.toNat := by
    simp only [WithinBigint] at hbound ⊢
    omega
  have hnext : intoBigint next = .ok (next.toNat : ℤ) := if_pos hle
  obtain ⟨us, hus⟩ := unnested_ok (n := 0) (by simpa using hbound)
  have hrows : us.map (row id) = (InMemoryStore.stored next events).map (eventRow id) :=
    unnested_stored hbound hus
  have hlen : us.length = events.length := by
    simpa using congrArg List.length hrows
  have hguard : t.answer (idTexts id ++ events.map EncodedEvent.manifest)
      (.guard id next.toNat) = (.ok (((m.streams id).length : ℤ) == (next.toNat : ℤ)), t) := by
    rw [Tables.answer, if_pos htexts, h.coalesceMax]
  have hfalse : events.isEmpty = false := by simpa using hne
  simp only [PostgresStore.append, Postgres.append, hnext, hfalse, Bool.false_eq_true, if_false,
    hus, insert, query, Prog.bind_eq, Prog.op_bind, Prog.call_bind, Prog.runOn_call, hguard]
  by_cases hn : next.toNat = (m.streams id).length
  · have hkeys : ((t.events ++ us.map (row id)).map Row.key).Nodup := by
      rw [hrows]
      refine h.keys_append hn ?_
      simp only [WithinBigint, bigintMax] at hbound
      omega
    have hcommit : t.answer (idTexts id ++ events.map EncodedEvent.manifest) (.commit id us) =
        (.ok us.length, { t with events := t.events ++ us.map (row id) }) := by
      rw [Tables.answer, if_pos htexts, if_pos hkeys]
    have hsees : (((m.streams id).length : ℤ) == (next.toNat : ℤ)) = true := by simp [hn]
    rw [hsees, if_pos hn]
    simp only [Prog.op, Prog.call_bind, Prog.runOn_call, hcommit, Prog.ret_bind, if_true,
      Prog.pure_eq, Prog.runOn_ret, hrows]
  · have hsees : (((m.streams id).length : ℤ) == (next.toNat : ℤ)) = false := by
      rw [beq_eq_false_iff_ne]
      omega
    have hzero : (0 : ℕ) ≠ us.length := by
      rw [hlen]
      exact fun h0 => hne (List.eq_nil_of_length_eq_zero h0.symm)
    rw [hsees, if_neg hn]
    simp only [Prog.pure_eq, Prog.ret_bind, if_neg hzero, Prog.runOn_ret]

/-- Both stores answer an append alike. -/
lemma append_agrees (h : Agrees m t) {next : SeqNo} {events : List EncodedEvent}
    (hwithin : (Request.append id next events).Within) :
    infallible (m.append id next events).1 = (PostgresStore.append t id next events).1 ∧
      Agrees (m.append id next events).2 (PostgresStore.append t id next events).2 := by
  obtain ⟨hbound, hid, hmanifests⟩ := hwithin
  rw [InMemoryStore.append_eq (h.fits id)]
  by_cases hne : events = []
  · subst hne
    have hsame : Function.update m.streams id (m.streams id ++ InMemoryStore.stored next []) =
        m.streams := by
      simp [InMemoryStore.stored]
    rw [append_nil_agrees h hbound (List.all_eq_true.mpr hid)]
    split
    · exact ⟨rfl, by rw [hsame]; exact h⟩
    · exact ⟨rfl, h⟩
  · have htexts : (idTexts id ++ events.map EncodedEvent.manifest).all acceptsText := by
      refine List.all_eq_true.mpr fun s hs => ?_
      rcases List.mem_append.mp hs with hs | hs
      · exact hid s hs
      · obtain ⟨e, he, rfl⟩ := List.mem_map.mp hs
        exact hmanifests e he
    rw [append_cons_agrees h hne hbound htexts]
    split
    · rename_i hn
      exact ⟨rfl, h.extend hn hbound⟩
    · exact ⟨rfl, h⟩

/-! ### Reads -/

/-- The rows selected are those of the events from `start` on. -/
lemma Agrees.selectEvents (h : Agrees m t) (start : SeqNo) (limit : ℕ) :
    t.selectEvents id start.toNat limit =
      (((m.streams id).drop start.toNat).take limit).map (eventRow id) := by
  have hfilter : (t.events.filter fun r =>
      (r.entityType = id.entityType ∧ r.entityId = id.entityId) ∧
        (start.toNat : ℤ) ≤ r.seqNo) = ((m.streams id).drop start.toNat).map (eventRow id) := by
    have hno : ∀ e : StoredEvent, (decide ((start.toNat : ℤ) ≤ (eventRow id e).seqNo)) =
        decide (start.toNat ≤ e.seqNo.toNat) := by
      intro e
      simp [eventRow, row]
    have hsplit : (t.events.filter fun r =>
        (r.entityType = id.entityType ∧ r.entityId = id.entityId) ∧
          (start.toNat : ℤ) ≤ r.seqNo) =
        (rowsOf t.events id).filter fun r => (start.toNat : ℤ) ≤ r.seqNo := by
      rw [rowsOf, List.filter_filter]
      refine List.filter_congr fun r _ => ?_
      simp only [Bool.decide_and, Bool.and_comm]
    rw [hsplit, h.rows, List.filter_map]
    simp only [Function.comp_def, hno]
    rw [filter_seqNo_eq_drop (k := 0) start (by simpa [Numbered] using h.numbered id),
      Nat.sub_zero]
  have hsorted : (((m.streams id).drop start.toNat).map (eventRow id)).Pairwise
      fun r r' => decide (r.seqNo ≤ r'.seqNo) = true := by
    rw [List.pairwise_map, List.pairwise_iff_getElem]
    intro n n' hn hn' hlt
    rw [List.getElem_drop, List.getElem_drop]
    have hno := h.numbered id _ _ (List.getElem?_eq_getElem
      (by rw [List.length_drop] at hn; omega : start.toNat + n < (m.streams id).length))
    have hno' := h.numbered id _ _ (List.getElem?_eq_getElem
      (by rw [List.length_drop] at hn'; omega : start.toNat + n' < (m.streams id).length))
    simp only [eventRow, row, hno, hno', decide_eq_true_eq]
    omega
  rw [Tables.selectEvents, hfilter, List.mergeSort_of_pairwise hsorted, List.map_take]

/-- Both stores answer a read alike. -/
lemma read_agrees (h : Agrees m t) {start : SeqNo} {limit : ℕ}
    (hwithin : (Request.read id start limit).Within) :
    PostgresStore.read t id start limit = .ok (m.read id start limit) := by
  obtain ⟨hbound, hid⟩ := hwithin
  have hstart : intoBigint start = .ok (start.toNat : ℤ) := if_pos hbound
  have hfits : (m.streams id).length ≤ vecMax := h.fits id
  have hmax : vecMax = 2 ^ 63 - 1 := rfl
  have htake : ((m.streams id).drop start.toNat).take (min limit (2 ^ 63 - 1)) =
      ((m.streams id).drop start.toNat).take limit := by
    rcases Nat.le_total limit (2 ^ 63 - 1) with hl | hl
    · rw [Nat.min_eq_left hl]
    · rw [List.take_of_length_le (by rw [List.length_drop]; omega),
        List.take_of_length_le (by rw [List.length_drop]; omega)]
  simp only [PostgresStore.read, hstart, List.all_eq_true.mpr hid, if_true]
  show (t.selectEvents id start.toNat (min limit (2 ^ 63 - 1))).mapM storedEvent = _
  rw [h.selectEvents, mapM_storedEvent, htake, m.read_eq id start limit (by omega)]

/-! ### Snapshots -/

/-- Both stores answer a load alike. -/
lemma load_agrees (h : Agrees m t) (hwithin : (Request.load id).Within) :
    PostgresStore.load t id = .ok (m.load id) := by
  have hfind : t.snapshots.find? (SnapshotRow.isOf id) = (m.snapshots id).map (snapshotRow id) := by
    rw [← List.head?_filter, h.snapshots, Option.head?_toList]
  rw [PostgresStore.load, if_pos (List.all_eq_true.mpr hwithin), hfind, InMemoryStore.load]
  cases m.snapshots id with
  | none => rfl
  | some s =>
      simp only [Option.map_some, storedSnapshot_snapshotRow]
      rfl

lemma isOf_snapshotRow (id id' : PersistenceId) (s : StoredSnapshot) :
    (snapshotRow id s).isOf id' = decide (id = id') := by
  have := row_mem_iff id id' ⟨0, "", 0, []⟩
  exact decide_eq_decide.mpr this

/-- A row of one ID is not a row of another. -/
lemma isOf_of_ne {id' : PersistenceId} (hne : id ≠ id') {r : SnapshotRow}
    (h : r.isOf id = true) : r.isOf id' = false := by
  simp only [SnapshotRow.isOf, decide_eq_true_eq, decide_eq_false_iff_not] at h ⊢
  rintro ⟨htype, hid⟩
  refine hne ?_
  cases id
  cases id'
  simp_all

/-- The upserted row is the only one of its ID, and the rows of the others stay. -/
lemma upsertSnapshot_filter (h : Agrees m t) (s : StoredSnapshot) (id' : PersistenceId) :
    (t.upsertSnapshot id (snapshotRow id s)).snapshots.filter (SnapshotRow.isOf id') =
      if id = id' then [snapshotRow id s] else t.snapshots.filter (SnapshotRow.isOf id') := by
  have hown := h.snapshots id
  by_cases hany : t.snapshots.any (SnapshotRow.isOf id)
  · rw [Tables.upsertSnapshot, if_pos hany]
    dsimp only
    rw [List.filter_map]
    split
    · rename_i hid
      subst hid
      -- the one row there was is replaced
      have hsame : (SnapshotRow.isOf id ∘ fun r' => if r'.isOf id then snapshotRow id s else r') =
          SnapshotRow.isOf id := by
        funext r'
        by_cases hr : r'.isOf id <;> simp [hr, isOf_snapshotRow]
      rw [hsame, hown]
      cases hs : m.snapshots id with
      | none =>
          rw [hs] at hown
          obtain ⟨r, hr, hof⟩ := List.any_eq_true.mp hany
          exact absurd hof (List.filter_eq_nil_iff.mp hown r hr)
      | some old => simp [isOf_snapshotRow]
    · rename_i hid
      have hsame : (SnapshotRow.isOf id' ∘ fun r' => if r'.isOf id then snapshotRow id s else r') =
          SnapshotRow.isOf id' := by
        funext r'
        by_cases hr : r'.isOf id
        · simp [hr, isOf_snapshotRow, hid, isOf_of_ne hid hr]
        · simp [hr]
      rw [hsame]
      refine (List.map_congr_left fun r' hr' => ?_).trans (List.map_id _)
      have hof := (List.mem_filter.mp hr').2
      rw [if_neg (by simp [isOf_of_ne (Ne.symm hid) hof])]
      rfl
  · rw [Tables.upsertSnapshot, if_neg hany]
    dsimp only
    rw [List.filter_append]
    split
    · rename_i hid
      subst hid
      have hnone : t.snapshots.filter (SnapshotRow.isOf id) = [] := by
        refine List.filter_eq_nil_iff.mpr fun r hr hof => hany ?_
        exact List.any_eq_true.mpr ⟨r, hr, hof⟩
      simp [hnone, isOf_snapshotRow]
    · rename_i hid
      simp [isOf_snapshotRow, hid]

/-- Both stores answer a save alike. -/
lemma save_agrees (h : Agrees m t) {next : SeqNo} {snapshot : EncodedSnapshot}
    (hwithin : (Request.save id next snapshot).Within) :
    (PostgresStore.save t id next snapshot).1 = .ok () ∧
      Agrees (m.save id next snapshot) (PostgresStore.save t id next snapshot).2 := by
  obtain ⟨hbound, hid, hmanifest⟩ := hwithin
  have hnext : intoBigint next = .ok (next.toNat : ℤ) := if_pos hbound
  have htexts : (idTexts id ++ [snapshot.manifest]).all acceptsText := by
    refine List.all_eq_true.mpr fun s hs => ?_
    rcases List.mem_append.mp hs with hs | hs
    · exact hid s hs
    · rw [List.mem_singleton] at hs
      rw [hs]
      exact hmanifest
  have hsave : PostgresStore.save t id next snapshot =
      (.ok (), t.upsertSnapshot id (snapshotRow id ⟨next, snapshot⟩)) := by
    rw [PostgresStore.save, hnext]
    exact if_pos htexts
  have hevents : (t.upsertSnapshot id (snapshotRow id ⟨next, snapshot⟩)).events = t.events := by
    unfold Tables.upsertSnapshot
    split <;> rfl
  rw [hsave]
  refine ⟨rfl, h.numbered, h.fits, fun id' => ?_, ?_, fun id' => ?_⟩
  · rw [hevents]
    exact h.rows id'
  · rw [hevents]
    exact h.keys
  · rw [upsertSnapshot_filter h, InMemoryStore.save]
    split
    · rename_i hid'
      subst hid'
      simp
    · rename_i hid'
      dsimp only
      rw [Function.update_of_ne (Ne.symm hid')]
      exact h.snapshots id'

end Agrees

/-! ### Any calls -/

/-- One call. -/
lemma serve_agrees (m : InMemoryStore PersistenceId) (t : Tables) (request : Request)
    (h : Agrees m t) (hwithin : request.Within) :
    (serveInMemory m request).1 = (servePostgres t request).1 ∧
      Agrees (serveInMemory m request).2 (servePostgres t request).2 := by
  cases request with
  | append id next events =>
      obtain ⟨hreply, hagrees⟩ := append_agrees h hwithin
      exact ⟨congrArg _ hreply, hagrees⟩
  | read id start limit => exact ⟨congrArg _ (read_agrees h hwithin).symm, h⟩
  | save id next snapshot =>
      obtain ⟨hreply, hagrees⟩ := save_agrees h hwithin
      exact ⟨congrArg _ hreply.symm, hagrees⟩
  | load id => exact ⟨congrArg _ (load_agrees h hwithin).symm, h⟩

/-- **The two shipped stores agree**: called one after another from empty stores, they return the
same at every call. -/
theorem stores_agree {requests : List Request} (h : ∀ request ∈ requests, request.Within) :
    replies serveInMemory InMemoryStore.empty requests =
      replies servePostgres Tables.empty requests :=
  replies_eq serve_agrees Agrees.empty h

/-- An event appended, a stale append without events, the event read, and a snapshot saved and
loaded. -/
def orderRequests : List Request :=
  [.append orderId SeqNo.zero [⟨"placed", ⟨1⟩, []⟩], .append orderId SeqNo.zero [],
    .read orderId SeqNo.zero 512, .save orderId (SeqNo.new 1) ⟨"order", ⟨1⟩, []⟩, .load orderId]

theorem stores_agree_order : (∀ request ∈ orderRequests, request.Within) ∧
    replies serveInMemory InMemoryStore.empty orderRequests =
      replies servePostgres Tables.empty orderRequests := by
  have hid : ∀ s ∈ idTexts orderId, acceptsText s := by decide
  have hwithin : ∀ request ∈ orderRequests, request.Within := by
    simp only [orderRequests, List.forall_mem_cons, List.not_mem_nil, false_imp_iff,
      implies_true, and_true, Request.Within, WithinBigint, bigintMax]
    exact ⟨⟨by decide, hid, by decide⟩, ⟨by decide, hid⟩, ⟨by decide, hid⟩,
      ⟨by decide, hid, by decide⟩, hid⟩
  exact ⟨hwithin, stores_agree hwithin⟩

end Tellus.Postgres
