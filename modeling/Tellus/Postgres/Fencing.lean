import Mathlib.Tactic
import Tellus.Lib.Runs
import Tellus.Postgres.Append

/-!
Concurrent appends to the PostgreSQL store are fenced.

The guard and the commit of an append see different tables, so the guard alone decides nothing:
what it has seen may be stale by the time of the commit.  A stream only grows, though, so a
position which was its end once is not beyond its end later; and at a position before its end
the primary key is taken, because the stream has no gap.  A commit which goes through is
therefore at the end.

* `Fenced`: the invariant of the table, `commit_keeps` the step which matters.
* `append_safe`: the code under the contract `appends`.
* `appends_fenced`: whatever the interleaving, each stream is the concatenation of the batches
  of the calls which returned `Ok`, each appended at its end.
-/

namespace Tellus.Postgres

open Concurrent

/-! ### Rows of a stream -/

lemma row_mem_iff (id id' : PersistenceId) (u : Unnested) :
    ((row id u).entityType = id'.entityType ∧ (row id u).entityId = id'.entityId) ↔ id = id' := by
  constructor
  · rintro ⟨htype, hid⟩
    cases id
    cases id'
    simp only [row] at htype hid
    subst htype hid
    rfl
  · rintro rfl
    exact ⟨rfl, rfl⟩

/-- The rows of one stream among those of a batch. -/
lemma rowsOf_rows (id id' : PersistenceId) (us : List Unnested) :
    rowsOf (us.map (row id)) id' = if id = id' then us.map (row id) else [] := by
  split
  · rename_i h
    refine List.filter_eq_self.mpr fun r hr => ?_
    obtain ⟨u, -, rfl⟩ := List.mem_map.mp hr
    simpa using (row_mem_iff id id' u).mpr h
  · rename_i h
    refine List.filter_eq_nil_iff.mpr fun r hr => ?_
    obtain ⟨u, -, rfl⟩ := List.mem_map.mp hr
    simpa using mt (row_mem_iff id id' u).mp h

lemma rowsOf_append (rows rows' : List Row) (id : PersistenceId) :
    rowsOf (rows ++ rows') id = rowsOf rows id ++ rowsOf rows' id :=
  List.filter_append ..

/-- The committed sequence numbers of a stream are exactly those from 0 on. -/
def Gapless (rows : List Row) (id : PersistenceId) : Prop :=
  (rowsOf rows id).map Row.seqNo = (List.range (rowsOf rows id).length).map Nat.cast

/-- The largest sequence number of a stream which is not empty. -/
lemma max?_range_succ (k : ℕ) :
    ((List.range (k + 1)).map (Nat.cast : ℕ → ℤ)).max? = some (k : ℤ) := by
  rw [List.max?_eq_some_iff]
  refine ⟨List.mem_map.mpr ⟨k, by simp, rfl⟩, fun b hb => ?_⟩
  obtain ⟨m, hm, rfl⟩ := List.mem_map.mp hb
  rw [List.mem_range] at hm
  omega

/-- What the guard compares with, for a stream without a gap. -/
lemma coalesceMax_gapless {rows : List Row} {id : PersistenceId} (h : Gapless rows id) :
    coalesceMax rows id =
      if ((rowsOf rows id).length : ℤ) ≤ bigintMax then some ((rowsOf rows id).length : ℤ)
      else none := by
  rw [coalesceMax, h]
  generalize (rowsOf rows id).length = k
  cases k with
  | zero => simp [bigintMax]
  | succ k =>
      rw [max?_range_succ]
      push_cast
      rfl

/-- The guard compares with the length of the stream. -/
lemma coalesceMax_eq {rows : List Row} {id : PersistenceId} (h : Gapless rows id) {n : ℤ}
    (hn : coalesceMax rows id = some n) : n = (rowsOf rows id).length := by
  rw [coalesceMax_gapless h] at hn
  split at hn
  · exact (Option.some.inj hn).symm
  · cases hn

/-! ### Batches -/

/-- The loop which fills the arrays numbers the events from `next` on. -/
lemma unnested_eq {next : ℤ} (id : PersistenceId) {events : List EncodedEvent} {n : ℕ}
    {us : List Unnested} (h : unnested next n events = .ok us) :
    us.map (row id) = events.mapIdx fun k e =>
      row id ⟨next + (n + k : ℕ), e.manifest, e.schemaVersion.val.toNat, e.payload⟩ := by
  induction events generalizing n us with
  | nil =>
      simp only [unnested, Except.ok.injEq] at h
      subst h
      rfl
  | cons event events ih =>
      rw [unnested] at h
      split at h
      · cases h
      · rename_i seqNo hseq
        split at h
        · cases h
        · rename_i rest hrest
          cases h
          have hseqNo : seqNo = next + n := by
            rw [seqNoAt] at hseq
            split at hseq
            · split at hseq
              · exact (Except.ok.inj hseq).symm
              · cases hseq
            · cases hseq
          rw [List.map_cons, List.mapIdx_cons, ih hrest, hseqNo]
          simp only [Nat.add_zero, List.cons.injEq, true_and]
          congr 1
          funext k e
          congr 2
          omega

lemma intoBigint_eq {seqNo : SeqNo} {n : ℤ} (h : intoBigint seqNo = .ok n) :
    n = seqNo.toNat := by
  rw [intoBigint] at h
  split at h
  · exact (Except.ok.inj h).symm
  · cases h

/-- The arrays of a call are its whole batch. -/
lemma Call.batch_eq {c : Call} {us : List Unnested}
    (h : unnested c.next.toNat 0 c.events = .ok us) : us.map (row c.id) = c.batch := by
  rw [unnested_eq c.id h, batch]
  simp

lemma Call.batch_length (c : Call) : c.batch.length = c.events.length := List.length_mapIdx

/-- The sequence numbers of a batch go on from the call's position. -/
lemma Call.batch_seqNo (c : Call) :
    c.batch.map Row.seqNo =
      (List.range c.events.length).map fun k => ((c.next.toNat + k : ℕ) : ℤ) := by
  refine List.ext_getElem (by simp [batch]) fun k hk hk' => ?_
  simp [batch, row]

lemma Call.rowsOf_batch {c : Call} {us : List Unnested}
    (h : us.map (row c.id) = c.batch) (id : PersistenceId) :
    rowsOf c.batch id = if c.id = id then c.batch else [] := by
  rw [← h]
  exact rowsOf_rows c.id id us

/-! ### The invariant -/

variable {ι : Type} (calls : ι → Call)

/-- The batches committed to a stream, one after the other. -/
def committed (commits : List (Commit ι)) (id : PersistenceId) : List Row :=
  (commits.filter fun c => (calls c.call).id = id).flatMap fun c => (calls c.call).batch

/-- What holds of the table and its commits. -/
structure Fenced (s : Db ι) : Prop where
  gapless : ∀ id, Gapless s.rows id
  once : (s.commits.map Commit.call).Nodup
  whole : ∀ id, rowsOf s.rows id = committed calls s.commits id
  atEnd : ∀ before c after, s.commits = before ++ c :: after →
    (calls c.call).next.toNat = c.length ∧
      c.length = (committed calls before (calls c.call).id).length

/-- Call `i` has committed. -/
def Committed (i : ι) (s : Db ι) : Prop := i ∈ s.commits.map Commit.call

variable {calls} {s : Db ι} {i : ι}

lemma Fenced.init : Fenced calls (⟨[], []⟩ : Db ι) where
  gapless := fun _ => rfl
  once := List.nodup_nil
  whole := fun _ => rfl
  atEnd := fun before c after h => by simp at h

lemma committed_concat (commits : List (Commit ι)) (c : Commit ι) (id : PersistenceId) :
    committed calls (commits ++ [c]) id =
      committed calls commits id ++ if (calls c.call).id = id then (calls c.call).batch else [] := by
  rw [committed, committed, List.filter_append, List.flatMap_append, List.filter_cons]
  by_cases h : (calls c.call).id = id <;> simp [h]

/-- **Why a commit is at the end**: at any earlier position the key is taken. -/
lemma Fenced.next_eq (h : Fenced calls s) {us : List Unnested}
    (hbatch : us.map (row (calls i).id) = (calls i).batch) (hne : (calls i).events ≠ [])
    (hle : (calls i).next.toNat ≤ (rowsOf s.rows (calls i).id).length)
    (hkeys : ((s.rows ++ us.map (row (calls i).id)).map Row.key).Nodup) :
    (calls i).next.toNat = (rowsOf s.rows (calls i).id).length := by
  by_contra hlt
  have hlt : (calls i).next.toNat < (rowsOf s.rows (calls i).id).length := by omega
  -- the stored row at the position
  have hseq : ((rowsOf s.rows (calls i).id).get ⟨_, hlt⟩).seqNo = (calls i).next.toNat := by
    have := congrArg (fun l => l[(calls i).next.toNat]?) (h.gapless (calls i).id)
    simpa [hlt] using this
  set r := (rowsOf s.rows (calls i).id).get ⟨_, hlt⟩ with hr
  have hmem : r ∈ rowsOf s.rows (calls i).id := List.get_mem ..
  obtain ⟨hrows, hid⟩ := List.mem_filter.mp hmem
  rw [decide_eq_true_eq] at hid
  -- the first row of the batch
  obtain ⟨event, events, hev⟩ := List.exists_cons_of_ne_nil hne
  have hfirst : row (calls i).id ⟨((calls i).next.toNat : ℤ) + (0 : ℕ), event.manifest,
      event.schemaVersion.val.toNat, event.payload⟩ ∈ (calls i).batch := by
    rw [Call.batch, hev, List.mapIdx_cons]
    exact List.mem_cons_self
  rw [List.map_append] at hkeys
  refine (List.nodup_append.mp hkeys).2.2 r.key (List.mem_map_of_mem hrows) _
    (List.mem_map_of_mem (hbatch ▸ hfirst)) ?_
  simp [Row.key, row, hid.1, hid.2, hseq]

/-- A commit keeps the invariant. -/
lemma Fenced.commit (h : Fenced calls s) (hi : ¬Committed i s) {us : List Unnested}
    (hbatch : us.map (row (calls i).id) = (calls i).batch)
    (hnext : (calls i).next.toNat = (rowsOf s.rows (calls i).id).length) :
    Fenced calls ⟨s.rows ++ us.map (row (calls i).id),
      s.commits ++ [⟨i, (rowsOf s.rows (calls i).id).length⟩]⟩ where
  gapless := fun id => by
    rw [Gapless, rowsOf_append, hbatch, Call.rowsOf_batch hbatch]
    split
    · rename_i hid
      subst hid
      rw [List.map_append, h.gapless, Call.batch_seqNo, List.length_append, Call.batch_length,
        List.range_add, List.map_append, List.map_map, hnext]
      rfl
    · rw [List.append_nil]
      exact h.gapless id
  once := by
    rw [List.map_append, List.nodup_append]
    refine ⟨h.once, by simp, fun a ha b hb hab => hi ?_⟩
    simp only [List.map_cons, List.map_nil, List.mem_singleton] at hb
    rw [Committed, ← hb, ← hab]
    exact ha
  whole := fun id => by
    rw [rowsOf_append, hbatch, Call.rowsOf_batch hbatch, committed_concat, h.whole]
  atEnd := fun before c after hsplit => by
    rcases cut_concat hsplit with ⟨rfl, rfl, -⟩ | ⟨after', -, hinit⟩
    · exact ⟨hnext, congrArg List.length (h.whole _)⟩
    · exact h.atEnd before c after' hinit

/-! ### The contract -/

variable (calls)

/-- What a call owes before an operation: it has not committed, and what it commits is its
whole batch, at a position the stream has reached. -/
def Owes (i : ι) (s : Db ι) : Stmt → Prop
  | .commit id us => ¬Committed i s ∧ id = (calls i).id ∧
      us.map (row (calls i).id) = (calls i).batch ∧ (calls i).events ≠ [] ∧
      (calls i).next.toNat ≤ (rowsOf s.rows (calls i).id).length
  | _ => ¬Committed i s

/-- The contract between the calls: the others let the streams grow and commit nothing for this
call. -/
def appends : Contract ι Stmt Stmt.Ans (Db ι) where
  exec := Exec
  pre := Owes calls
  inv := Fenced calls
  rely := fun i s s' => (∀ id, rowsOf s.rows id <+: rowsOf s'.rows id) ∧
    (Committed i s' ↔ Committed i s)
  rely_refl := fun _ _ => ⟨fun _ => List.prefix_rfl, Iff.rfl⟩
  rely_trans := fun _ _ _ _ h h' => ⟨fun id => (h.1 id).trans (h'.1 id), h'.2.trans h.2⟩

/-- What holds of a call which has not begun or has returned. -/
def ReturnedOk (i : ι) (s : Db ι) : Returned → Prop
  | none => ¬Committed i s
  | some r => Committed i s ↔ r = .ok () ∧ (calls i).events ≠ []

variable {calls}

/-- One operation of one call. -/
lemma exec_keeps {s' : Db ι} {op : Stmt} {x : op.Ans} (h : Fenced calls s)
    (hpre : Owes calls i s op) (hx : Exec i s op x s') :
    Fenced calls s' ∧ (∀ id, rowsOf s.rows id <+: rowsOf s'.rows id) ∧
      ∀ j, j ≠ i → (Committed j s' ↔ Committed j s) := by
  cases hx with
  | commit id hkeys =>
      obtain ⟨hi, rfl, hbatch, hne, hle⟩ := hpre
      refine ⟨h.commit hi hbatch (h.next_eq hbatch hne hle hkeys), fun id => ?_, fun j hj => ?_⟩
      · rw [rowsOf_append]
        exact List.prefix_append _ _
      · simp [Committed, hj]
  | _ => exact ⟨h, fun _ => List.prefix_rfl, fun _ _ => Iff.rfl⟩

lemma stable_uncommitted : Stable (appends calls) i fun s => ¬Committed i s :=
  fun _ _ h hr _ hc => h (hr.2.mp hc)

lemma stable_reached (id : PersistenceId) (n : ℕ) :
    Stable (appends calls) i fun s => n ≤ (rowsOf s.rows id).length :=
  fun _ _ h hr _ => h.trans (hr.1 id).length_le

/-- A call which returns an error has not committed. -/
lemma safe_error {e : AppendError Error} (h : ¬Committed i s) :
    Safe (appends calls) i (fun s r => ReturnedOk calls i s (some r)) (.ret (.error e)) s :=
  Safe.ret_of stable_uncommitted h fun t _ ht => by
    constructor
    · exact fun hc => absurd hc ht
    · rintro ⟨hr, -⟩
      cases hr

/-- The conditional `INSERT` of a call: either all rows are affected and it has committed, or
it has not, and then fewer rows are affected. -/
lemma insert_safe {us : List Unnested} (hi : ¬Committed i s)
    (hbatch : us.map (row (calls i).id) = (calls i).batch) (hne : (calls i).events ≠ []) :
    Safe (appends calls) i (fun s r => Committed i s ↔ r = .ok us.length)
      (insert (calls i).id us (calls i).next.toNat) s := by
  have hpos : us.length ≠ 0 := by
    have hlen := congrArg List.length hbatch
    rw [List.length_map, Call.batch_length] at hlen
    rw [hlen]
    exact fun h0 => hne (List.eq_nil_of_length_eq_zero h0)
  have hfail : ∀ (t : Db ι) (r : Except SqlxError ℕ), r ≠ .ok us.length → ¬Committed i t →
      Safe (appends calls) i (fun s r => Committed i s ↔ r = .ok us.length) (.ret r) t :=
    fun t r hr ht => Safe.ret_of stable_uncommitted ht fun t' _ ht' =>
      ⟨fun hc => absurd hc ht', fun h => absurd h hr⟩
  refine Safe.call_of stable_uncommitted hi fun t hinv ht => ⟨ht, fun x t' hx hinv' => ?_⟩
  cases hx with
  | guardFails _ _ e => exact hfail t (.error e) (fun h => by cases h) ht
  | @guard _ n _ hn =>
      have hlen := coalesceMax_eq (hinv.gapless (calls i).id) hn
      generalize hsees : (n == ((calls i).next.toNat : ℤ)) = sees
      cases sees with
      | false => exact hfail t (.ok 0) (fun h => hpos (Except.ok.inj h).symm) ht
      | true =>
          -- the position is the end of the stream now, and not beyond it from now on
          have hreached : (calls i).next.toNat ≤ (rowsOf t.rows (calls i).id).length := by
            have := eq_of_beq hsees
            omega
          refine Safe.call_of (stable_uncommitted.and (stable_reached _ _)) ⟨ht, hreached⟩
            fun u hinvu hu => ⟨⟨hu.1, rfl, hbatch, hne, hu.2⟩, fun x u' hx hinvu' => ?_⟩
          cases hx with
          | commit _ hkeys =>
              intro v hv _
              refine ⟨fun _ => rfl, fun _ => hv.2.mpr ?_⟩
              simp [Committed]
          | violation _ _ => exact hfail u _ (fun h => by cases h) hu.1
          | commitFails _ _ e => exact hfail u (.error e) (fun h => by cases h) hu.1

/-- **A call of `append` is safe**: it returns `Ok` with events if and only if it has
committed. -/
lemma append_safe (hi : ¬Committed i s) :
    Safe (appends calls) i (fun s r => ReturnedOk calls i s (some r))
      (append (calls i).id (calls i).next (calls i).events) s := by
  rw [append]
  cases hnext : intoBigint (calls i).next with
  | error e => exact safe_error hi
  | ok next =>
      obtain rfl := intoBigint_eq hnext
      dsimp only
      split
      · rename_i hempty
        have hnil : (calls i).events = [] := List.isEmpty_iff.mp hempty
        have hdone : ∀ (t : Db ι) (r : Except (AppendError Error) Unit), ¬Committed i t →
            Safe (appends calls) i (fun s r => ReturnedOk calls i s (some r)) (.ret r) t :=
          fun t r ht => Safe.ret_of stable_uncommitted ht fun t' _ ht' =>
            ⟨fun hc => absurd hc ht', fun h => absurd hnil h.2⟩
        refine Safe.call_of stable_uncommitted hi fun t hinv ht => ⟨ht, fun x t' hx _ => ?_⟩
        cases hx with
        | selectFails _ e => exact hdone t _ ht
        | @selectNext _ n hn =>
            simp only [Prog.ret_bind]
            split
            · exact hdone t _ ht
            · exact hdone t _ ht
      · rename_i hempty
        have hne : (calls i).events ≠ [] := fun h => hempty (List.isEmpty_iff.mpr h)
        cases hus : unnested (calls i).next.toNat 0 (calls i).events with
        | error e => exact safe_error hi
        | ok us =>
            refine Safe.bind (insert_safe hi (Call.batch_eq hus) hne) fun t r hinv hr => ?_
            cases r with
            | error e =>
                have ht : ¬Committed i t := fun hc => by cases hr.mp hc
                dsimp only
                split
                · exact safe_error ht
                · exact safe_error ht
            | ok done =>
                dsimp only
                split
                · rename_i hdone
                  have hc : Committed i t := hr.mpr (by rw [hdone])
                  intro t' ht' _
                  exact ⟨fun _ => ⟨rfl, hne⟩, fun _ => ht'.2.mpr hc⟩
                · rename_i hdone
                  exact safe_error fun hc => hdone (Except.ok.inj (hr.mp hc))

/-! ### Runs -/

section Runs

variable [DecidableEq ι] (calls)

/-- The states any number of calls of `append` can get into, from an empty table on. -/
def Reachable (st : Tasks ι Stmt Stmt.Ans (Db ι) Returned) : Prop :=
  Tasks.Reaches (fun i => (calls i).code) Exec (fun _ _ => False) ⟨⟨[], []⟩, fun _ => .ret none⟩ st

variable {calls} {st : Tasks ι Stmt Stmt.Ans (Db ι) Returned}

/-- In every reachable state the table is fenced and every call is safe. -/
lemma Reachable.good (h : Reachable calls st) :
    Tasks.Good (appends calls) (ReturnedOk calls) st := by
  refine Tasks.invariant (C := appends calls) (fun i s pt _ hpt => ?_)
    (fun i s op x s' hi hpre hx => ?_) (fun _ _ _ he => he.elim) ?_ h
  · cases pt with
    | none => exact Safe.bind (append_safe hpt) fun t r _ hr t' ht' _ => ht'.2.trans hr
    | some r => exact fun t ht _ => ht.2.trans hpt
  · obtain ⟨hinv, hgrows, hother⟩ := exec_keeps hi hpre hx
    exact ⟨hinv, fun j hj => ⟨hgrows, hother j hj⟩⟩
  · refine ⟨Fenced.init, fun i t ht _ hc => ?_⟩
    have := ht.2.mp hc
    simp [Committed] at this

/-- The calls which have committed are those which have returned `Ok` with events. -/
lemma Reachable.committed_iff (h : Reachable calls st) (i : ι) :
    Committed i st.shared ↔ st.task i = .ret (some (.ok ())) ∧ (calls i).events ≠ [] := by
  obtain ⟨hinv, hsafe⟩ := h.good
  have hi := hsafe i
  cases htask : st.task i with
  | ret r =>
      rw [htask] at hi
      have hr : ReturnedOk calls i st.shared r := hi.result hinv
      cases r with
      | none => exact ⟨fun hc => absurd hc hr, fun h => by cases h.1⟩
      | some r =>
          refine hr.trans ?_
          simp
  | call op k =>
      rw [htask] at hi
      have hpre : ¬Committed i st.shared := by
        have := hi.pre hinv
        cases op with
        | selectNext id => exact this
        | guard id next => exact this
        | commit id us => exact this.1
      exact ⟨fun hc => absurd hc hpre, fun h => by cases h.1⟩

end Runs

/-- An ID of an order. -/
def orderId : PersistenceId := ⟨"order", "42", by decide, by decide⟩

/-- Two calls racing for the first position of a stream. -/
def race : Bool → Call := fun _ => ⟨orderId, SeqNo.zero, [⟨"placed", ⟨1⟩, []⟩]⟩

/-- A run of the race in which both guards see the empty stream before either call commits. -/
lemma race_run : ∃ st, Reachable race st ∧ st.task true = .ret (some (.ok ())) ∧
    st.task false = .ret (some (.error .conflict)) := by
  have hsees : (coalesceMax [] orderId) = some 0 := rfl
  have hfree : ((([] : List Row) ++ [(⟨0, "placed", 1, []⟩ : Unnested)].map (row orderId)).map
      Row.key).Nodup := by simp
  have htaken : ¬((([] ++ [(⟨0, "placed", 1, []⟩ : Unnested)].map (row orderId)) ++
      [(⟨0, "placed", 1, []⟩ : Unnested)].map (row orderId)).map Row.key).Nodup := by simp
  refine ⟨_, .head (.jump true rfl) (.head (.jump false rfl)
    (.head (.answer true rfl (.guard 0 hsees)) (.head (.answer false rfl (.guard 0 hsees))
    (.head (.answer true rfl (.commit orderId hfree))
    (.head (.answer false rfl (.violation orderId htaken)) .refl))))), rfl, rfl⟩

/-- **Concurrent appends are fenced.**  For any calls, at any positions and with any batches,
and any interleaving of their guards and commits: the committed sequence numbers of each stream
are those from 0 on; its rows are the batches of the calls which have committed, in the order of
their commits, each of them at the end of the stream; the calls which have committed are exactly
those which have returned `Ok` with events; and a call which has returned `Conflict` has added
no row. -/
theorem appends_fenced [DecidableEq ι] {st : Tasks ι Stmt Stmt.Ans (Db ι) Returned}
    (h : Reachable calls st) :
    (∀ id, Gapless st.shared.rows id) ∧
      (∀ id, rowsOf st.shared.rows id = committed calls st.shared.commits id) ∧
      (st.shared.commits.map Commit.call).Nodup ∧
      (∀ before c after, st.shared.commits = before ++ c :: after →
        (calls c.call).next.toNat = c.length ∧
          c.length = (committed calls before (calls c.call).id).length) ∧
      (∀ i, Committed i st.shared ↔
        st.task i = .ret (some (.ok ())) ∧ (calls i).events ≠ []) ∧
      ∀ i, st.task i = .ret (some (.error .conflict)) → ¬Committed i st.shared := by
  obtain ⟨hinv, -⟩ := h.good
  refine ⟨hinv.gapless, hinv.whole, hinv.once, hinv.atEnd, h.committed_iff, fun i hi hc => ?_⟩
  have := ((h.committed_iff i).mp hc).1
  rw [hi] at this
  cases this

/-- The winner's row is there, and the loser has added none. -/
theorem race_fenced : ∃ st, Reachable race st ∧
    rowsOf st.shared.rows orderId = committed race st.shared.commits orderId ∧
    Committed true st.shared ∧ st.task false = .ret (some (.error .conflict)) ∧
    ¬Committed false st.shared := by
  obtain ⟨st, hst, hwinner, hloser⟩ := race_run
  obtain ⟨-, hwhole, -, -, hok, hconflict⟩ := appends_fenced hst
  exact ⟨st, hst, hwhole orderId, (hok true).mpr ⟨hwinner, by simp [race]⟩, hloser,
    hconflict false hloser⟩

end Tellus.Postgres
