import Mathlib.Tactic
import Tellus.Lib.Runs
import Tellus.Persistence.Store

/-!
The in-memory streams over whole runs: gapless logs which only ever grow.

Clones of an `InMemoryStore` share its maps, and every call holds a map's lock from its first
access to its last.  So the calls through any number of clones are one sequence of atomic
calls, which is what `StoreStep` makes a step of.

* `filter_seqNo_eq_drop`: filtering a numbered stream by sequence number is slicing it by index,
  which is how `read` gets by without looking at the numbers.
* `StoreStep.grows`: a call leaves every stream as it is or extends it.
* `AppendOnlyLog`, `run_appendOnlyLog`: what holds of the streams in every reachable state.
-/

namespace Tellus

open Concurrent

variable {I : Type}

/-! ### Calls -/

/-- A call of the event store, with its result. -/
inductive StoreCall (I : Type) where
  | append (id : I) (next : SeqNo) (events : List EncodedEvent)
      (result : Except (AppendError Empty) Unit)
  | read (id : I) (start : SeqNo) (limit : ℕ) (result : List StoredEvent)

/-- A call of the event store, through any of its clones. -/
inductive StoreStep [DecidableEq I] (s : InMemoryStore I) :
    StoreCall I → InMemoryStore I → Prop
  | append {id : I} {next : SeqNo} {events : List EncodedEvent} {result s'}
      (h : s.append id next events = (result, s')) (hfits : Fits s' id) :
      StoreStep s (.append id next events result) s'
  | read (id : I) (start : SeqNo) (limit : ℕ) :
      StoreStep s (.read id start limit (s.read id start limit)) s

/-! ### Reading by index -/

/-- In a slice numbered from `k` on, the events from `start` on are those from index
`start - k` on. -/
lemma filter_seqNo_eq_drop {stream : List StoredEvent} {k : ℕ} (start : SeqNo)
    (hnum : ∀ (n : ℕ) (e : StoredEvent), stream[n]? = some e → e.seqNo.toNat = k + n) :
    (stream.filter fun e => start.toNat ≤ e.seqNo.toNat) = stream.drop (start.toNat - k) := by
  induction stream generalizing k with
  | nil => simp
  | cons e stream ih =>
      have he : e.seqNo.toNat = k := by simpa using hnum 0 e rfl
      have hrest := @ih (k + 1) (by
        intro n e' hn
        have := hnum (n + 1) e' (by simpa using hn)
        omega)
      rcases Nat.lt_or_ge k start.toNat with hlt | hge
      · have hdrop : start.toNat - k = start.toNat - (k + 1) + 1 := by omega
        rw [List.filter_cons_of_neg (by simpa [he] using hlt), hrest, hdrop, List.drop_succ_cons]
      · have hzero : start.toNat - k = 0 := by omega
        have hzero' : start.toNat - (k + 1) = 0 := by omega
        rw [List.filter_cons_of_pos (by simpa [he] using hge), hrest, hzero, hzero',
          List.drop_zero, List.drop_zero]

/-- A read of a numbered stream returns the events from `start` on, up to `limit` of them. -/
lemma InMemoryStore.read_eq_filter {s : InMemoryStore I} {id : I} (hnum : Numbered (s.streams id))
    (hfits : Fits s id) (start : SeqNo) (limit : ℕ) :
    s.read id start limit =
      ((s.streams id).filter fun e => start.toNat ≤ e.seqNo.toNat).take limit := by
  have hlt : (s.streams id).length < 2 ^ 64 := lt_of_le_of_lt hfits (by norm_num [vecMax])
  rw [s.read_eq id start limit hlt,
    filter_seqNo_eq_drop (k := 0) start (by simpa [Numbered] using hnum), Nat.sub_zero]

/-! ### Runs -/

section Runs

variable [DecidableEq I] {s s' : InMemoryStore I} {id : I} {call : StoreCall I}

/-- A call leaves every stream as it is or extends it. -/
lemma StoreStep.grows (h : StoreStep s call s') (id : I) : s.streams id <+: s'.streams id := by
  cases h with
  | @append id' next events result _ h hfits =>
      rcases InMemoryStore.append_cases h with ⟨-, rfl, -⟩ | ⟨-, -, -, hs⟩
      · exact List.prefix_rfl
      · rw [hs]
        by_cases hid : id = id'
        · subst hid
          rw [Function.update_self]
          exact List.prefix_append _ _
        · rw [Function.update_of_ne hid]
  | read => exact List.prefix_rfl

/-- The streams are numbered, and a `Vec` holds each of them. -/
def Logs (s : InMemoryStore I) : Prop := ∀ id, Numbered (s.streams id) ∧ Fits s id

/-- A call keeps the streams numbered. -/
lemma Logs.step (h : Logs s) (hs : StoreStep s call s') : Logs s' := by
  cases hs with
  | @append id' next events result _ ha hfits =>
      rcases InMemoryStore.append_cases ha with ⟨-, rfl, -⟩ | ⟨-, hnext, -, hs⟩
      · exact h
      · intro id
        by_cases hid : id = id'
        · subst hid
          obtain ⟨hnum, hfit⟩ := h id
          have hlen : (s'.streams id).length = (s.streams id).length + events.length := by
            rw [hs, Function.update_self, List.length_append, InMemoryStore.stored_length]
          have hmax : vecMax < 2 ^ 64 := by norm_num [vecMax]
          have hlt : (s.streams id).length < 2 ^ 64 := lt_of_le_of_lt hfit hmax
          have hlt' : (s'.streams id).length < 2 ^ 64 := lt_of_le_of_lt hfits hmax
          refine ⟨?_, hfits⟩
          rw [hs, Function.update_self]
          exact numbered_append hnum ((SeqNo.new_eq_iff hlt).mp hnext).symm (by omega)
        · have hsame : s'.streams id = s.streams id := by rw [hs, Function.update_of_ne hid]
          simpa only [Fits, hsame] using h id
  | read => exact h

/-- What is true of the streams of a store, of whatever is called next and of whatever else
happens after that. -/
structure AppendOnlyLog (s : InMemoryStore I) : Prop where
  /-- The event at index `i` of a stream has the sequence number `i`. -/
  numbered : ∀ (id : I) (i : ℕ) (e : StoredEvent), (s.streams id)[i]? = some e → e.seqNo.toNat = i
  /-- An append succeeds exactly at the stream's length. -/
  append_ok : ∀ (id : I) (next : SeqNo) (events : List EncodedEvent),
    (s.append id next events).1 = .ok () ↔ next.toNat = (s.streams id).length
  /-- An append which succeeds extends the stream by its events. -/
  append_extends : ∀ (id : I) (next : SeqNo) (events : List EncodedEvent),
    (s.append id next events).1 = .ok () →
    ∃ new, (s.append id next events).2.streams id = s.streams id ++ new ∧
      new.map StoredEvent.event = events
  /-- An append which does not succeed changes no stream. -/
  append_rejected : ∀ (id : I) (next : SeqNo) (events : List EncodedEvent),
    (s.append id next events).1 ≠ .ok () →
    (s.append id next events).2.streams = s.streams
  /-- An append changes no stream but its own. -/
  append_other : ∀ (id : I) (next : SeqNo) (events : List EncodedEvent) (other : I), other ≠ id →
    (s.append id next events).2.streams other = s.streams other
  /-- What a stream holds stays at its beginning for ever. -/
  prefix_of_later : ∀ (calls : List (StoreCall I)) (s' : InMemoryStore I),
    Run StoreStep s calls s' → ∀ id, s.streams id <+: s'.streams id
  /-- A read returns the events from `start` on in order, cut to `limit`. -/
  read : ∀ (id : I) (start : SeqNo) (limit : ℕ), s.read id start limit =
    ((s.streams id).filter fun e => start.toNat ≤ e.seqNo.toNat).take limit

/-- An append, decided by the length of the stream. -/
lemma InMemoryStore.append_eq (hfits : Fits s id) (next : SeqNo) (events : List EncodedEvent) :
    s.append id next events =
      if next.toNat = (s.streams id).length then
        (.ok (), { s with
          streams := Function.update s.streams id (s.streams id ++ stored next events) })
      else (.error .conflict, s) := by
  have hlt : (s.streams id).length < 2 ^ 64 := lt_of_le_of_lt hfits (by norm_num [vecMax])
  unfold InMemoryStore.append
  by_cases hn : next.toNat = (s.streams id).length
  · rw [if_pos hn, if_neg (not_not.mpr ((SeqNo.new_eq_iff hlt).mpr hn.symm))]
  · rw [if_neg hn, if_pos fun h => hn ((SeqNo.new_eq_iff hlt).mp h).symm]

lemma Logs.appendOnlyLog (h : Logs s) : AppendOnlyLog s where
  numbered := fun id => (h id).1
  append_ok := by
    intro id next events
    rw [InMemoryStore.append_eq (h id).2]
    split <;> simp_all
  append_extends := by
    intro id next events hok
    rw [InMemoryStore.append_eq (h id).2] at hok ⊢
    split at hok
    · rename_i hn
      refine ⟨InMemoryStore.stored next events, ?_, InMemoryStore.stored_map_event next events⟩
      rw [if_pos hn]
      exact Function.update_self ..
    · cases hok
  append_rejected := by
    intro id next events hne
    rw [InMemoryStore.append_eq (h id).2] at hne ⊢
    split at hne
    · exact absurd rfl hne
    · rw [if_neg ‹_›]
  append_other := by
    intro id next events other hne
    rw [InMemoryStore.append_eq (h id).2]
    split
    · exact Function.update_of_ne hne ..
    · rfl
  prefix_of_later := by
    intro calls s' hrun id
    refine hrun.invariant (P := fun t => s.streams id <+: t.streams id) List.prefix_rfl ?_
    intro call t u ht hs
    exact ht.trans (hs.grows id)
  read := fun id start limit => InMemoryStore.read_eq_filter (h id).1 (h id).2 start limit

/-- **The in-memory streams are append-only gapless logs**, in every state the calls through any
clones lead to. -/
theorem run_appendOnlyLog {calls : List (StoreCall I)}
    (h : Run StoreStep InMemoryStore.empty calls s) : AppendOnlyLog s := by
  have hempty : Logs (InMemoryStore.empty : InMemoryStore I) := fun _ =>
    ⟨numbered_nil, Nat.zero_le _⟩
  exact (h.invariant hempty fun _ _ _ ht hs => ht.step hs).appendOnlyLog

/-- An event appended, a stale append turned away, and the event read back. -/
theorem run_appendOnlyLog_stale_append :
    ∃ (e : EncodedEvent) (s : InMemoryStore ℕ),
      Run StoreStep InMemoryStore.empty
        [.append 7 SeqNo.zero [e] (.ok ()), .append 7 SeqNo.zero [e] (.error .conflict),
          .read 7 SeqNo.zero 10 [⟨SeqNo.zero, e⟩]] s ∧
      AppendOnlyLog s := by
  let e : EncodedEvent := ⟨"event", ⟨1⟩, []⟩
  let s : InMemoryStore ℕ := (InMemoryStore.empty.append 7 SeqNo.zero [e]).2
  have hfits : Fits s 7 := show 1 ≤ vecMax by norm_num [vecMax]
  have hrun : Run StoreStep InMemoryStore.empty
      [.append 7 SeqNo.zero [e] (.ok ()), .append 7 SeqNo.zero [e] (.error .conflict),
        .read 7 SeqNo.zero 10 [⟨SeqNo.zero, e⟩]] s :=
    ((Run.nil.snoc (.append rfl hfits)).snoc (.append rfl hfits)).snoc (.read 7 SeqNo.zero 10)
  exact ⟨e, s, hrun, run_appendOnlyLog hrun⟩

end Runs

end Tellus
