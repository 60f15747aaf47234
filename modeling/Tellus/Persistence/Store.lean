import Mathlib.Tactic

/-!
The stores of an event-sourced actor: positions in a stream (`persistence/seq_no.rs`), what is
stored (`persistence/store.rs`), and the in-memory store (`persistence/in_memory_store.rs`).

* `SeqNo`, `SeqNo.succ`, `SeqNo.advancedBy`: positions, 64 bits wide and saturating.
* `InMemoryStore.append`, `read`, `save`, `load`: the four store calls, each of them atomic
  because each holds its map's lock throughout.
* `Numbered`: a stream's event at index `n` carries the sequence number `n`.
  `numbered_append` is why a stream stays so, `read_eq` what that makes of a read.
-/

namespace Tellus

/-! ### Positions -/

/-- A position in an event stream: the sequence number of a stored event, or the position at
which the next event is appended. -/
structure SeqNo where
  toNat : ℕ
  isLt : toNat < 2 ^ 64
  deriving DecidableEq

namespace SeqNo

@[ext] lemma ext {a b : SeqNo} (h : a.toNat = b.toNat) : a = b := by
  cases a; cases b; cases h; rfl

/-- A number as a position, reduced to 64 bits the way a cast is. -/
def new (n : ℕ) : SeqNo := ⟨n % 2 ^ 64, Nat.mod_lt _ (by norm_num)⟩

/-- The position of an empty stream. -/
def zero : SeqNo := new 0

/-- The position after appending `count` events at this one, saturating. -/
def advancedBy (s : SeqNo) (count : ℕ) : SeqNo :=
  ⟨min (s.toNat + count) (2 ^ 64 - 1), by omega⟩

/-- The position directly after this one, saturating. -/
def succ (s : SeqNo) : SeqNo := ⟨min (s.toNat + 1) (2 ^ 64 - 1), by omega⟩

@[simp] lemma toNat_zero : zero.toNat = 0 := rfl

lemma toNat_new {n : ℕ} (h : n < 2 ^ 64) : (new n).toNat = n := Nat.mod_eq_of_lt h

lemma toNat_advancedBy {s : SeqNo} {n : ℕ} (h : s.toNat + n < 2 ^ 64) :
    (s.advancedBy n).toNat = s.toNat + n := by
  simp only [advancedBy]
  omega

lemma advancedBy_zero (s : SeqNo) : s.advancedBy 0 = s := by
  have := s.isLt
  apply SeqNo.ext
  simp only [advancedBy]
  omega

lemma advancedBy_advancedBy (s : SeqNo) (m n : ℕ) :
    (s.advancedBy m).advancedBy n = s.advancedBy (m + n) := by
  apply SeqNo.ext
  simp only [advancedBy]
  omega

lemma toNat_succ {s : SeqNo} (h : s.toNat + 1 < 2 ^ 64) : s.succ.toNat = s.toNat + 1 := by
  simp only [succ]
  omega

lemma new_eq_iff {n : ℕ} {s : SeqNo} (h : n < 2 ^ 64) : new n = s ↔ n = s.toNat := by
  constructor
  · rintro rfl
    exact (toNat_new h).symm
  · intro hn
    exact SeqNo.ext ((toNat_new h).trans hn)

end SeqNo

/-! ### Stored values -/

/-- The schema version of a stored payload. -/
structure SchemaVersion where
  val : UInt16
  deriving DecidableEq

/-- Payload bytes. -/
abbrev Payload := List UInt8

/-- An encoded event as handed to `append`. -/
structure EncodedEvent where
  manifest : String
  schemaVersion : SchemaVersion
  payload : Payload
  deriving DecidableEq

/-- A stored event as returned by `read`. -/
structure StoredEvent where
  seqNo : SeqNo
  event : EncodedEvent
  deriving DecidableEq

/-- An encoded snapshot as handed to `save`. -/
structure EncodedSnapshot where
  manifest : String
  schemaVersion : SchemaVersion
  payload : Payload
  deriving DecidableEq

/-- A stored snapshot as returned by `load`: it covers every event before `nextSeqNo`. -/
structure StoredSnapshot where
  nextSeqNo : SeqNo
  snapshot : EncodedSnapshot
  deriving DecidableEq

/-- The failures of an append, `E` being those of the store itself. -/
inductive AppendError (E : Type) where
  | conflict
  | store (e : E)
  deriving DecidableEq

/-! ### The in-memory store -/

/-- The largest length of a `Vec` of anything, `isize::MAX`: growing one beyond it ends the
process. -/
def vecMax : ℕ := 2 ^ 63 - 1

/-- The in-memory store: a stream of events and at most one snapshot for each ID. -/
structure InMemoryStore (I : Type) where
  streams : I → List StoredEvent
  snapshots : I → Option StoredSnapshot

namespace InMemoryStore

variable {I : Type} [DecidableEq I]

/-- The store with nothing in it. -/
def empty : InMemoryStore I := ⟨fun _ => [], fun _ => none⟩

/-- The given events as they are stored from position `next` on. -/
def stored (next : SeqNo) (events : List EncodedEvent) : List StoredEvent :=
  events.zipIdx.map fun p => ⟨next.advancedBy p.2, p.1⟩

/-- Append the events at `next`, provided that it is the stream's next position. -/
def append (s : InMemoryStore I) (id : I) (next : SeqNo) (events : List EncodedEvent) :
    Except (AppendError Empty) Unit × InMemoryStore I :=
  if SeqNo.new (s.streams id).length ≠ next then
    (.error .conflict, s)
  else
    (.ok (), { s with streams := Function.update s.streams id (s.streams id ++ stored next events) })

/-- Up to `limit` events from position `start` on. -/
def read (s : InMemoryStore I) (id : I) (start : SeqNo) (limit : ℕ) : List StoredEvent :=
  let stream := s.streams id
  let first := min start.toNat stream.length
  let last := min (min (first + limit) (2 ^ 64 - 1)) stream.length
  (stream.drop first).take (last - first)

/-- Replace the snapshot. -/
def save (s : InMemoryStore I) (id : I) (next : SeqNo) (snapshot : EncodedSnapshot) :
    InMemoryStore I :=
  { s with snapshots := Function.update s.snapshots id (some ⟨next, snapshot⟩) }

/-- The latest snapshot, if any. -/
def load (s : InMemoryStore I) (id : I) : Option StoredSnapshot := s.snapshots id

@[simp] lemma stored_length (next : SeqNo) (events : List EncodedEvent) :
    (stored next events).length = events.length := by
  simp [stored]

@[simp] lemma stored_map_event (next : SeqNo) (events : List EncodedEvent) :
    (stored next events).map StoredEvent.event = events := by
  simp [stored, Function.comp_def]

lemma stored_getElem? (next : SeqNo) (events : List EncodedEvent) (n : ℕ) :
    (stored next events)[n]? = events[n]?.map fun e => ⟨next.advancedBy n, e⟩ := by
  simp [stored, List.getElem?_zipIdx]
  rfl

/-- The first events of a batch are stored as they are on their own. -/
lemma stored_prefix {next : SeqNo} {events events' : List EncodedEvent} (h : events <+: events') :
    stored next events <+: stored next events' := by
  obtain ⟨more, rfl⟩ := h
  rw [stored, stored, List.zipIdx_append, List.map_append]
  exact List.prefix_append _ _

/-- The two outcomes of an append. -/
lemma append_cases {s s' : InMemoryStore I} {id : I} {next : SeqNo}
    {events : List EncodedEvent} {r : Except (AppendError Empty) Unit}
    (h : s.append id next events = (r, s')) :
    (r = .error .conflict ∧ s' = s ∧ SeqNo.new (s.streams id).length ≠ next) ∨
    (r = .ok () ∧ SeqNo.new (s.streams id).length = next ∧ s'.snapshots = s.snapshots ∧
      s'.streams = Function.update s.streams id (s.streams id ++ stored next events)) := by
  unfold append at h
  split at h
  · cases h
    exact .inl ⟨rfl, rfl, ‹_›⟩
  · cases h
    exact .inr ⟨rfl, not_not.mp ‹_›, rfl, rfl⟩

end InMemoryStore

/-- A `Vec` holds the stream. -/
def Fits {I : Type} (store : InMemoryStore I) (id : I) : Prop :=
  (store.streams id).length ≤ vecMax

/-! ### Numbered streams -/

/-- The event at index `n` carries the sequence number `n`. -/
def Numbered (stream : List StoredEvent) : Prop :=
  ∀ (n : ℕ) (e : StoredEvent), stream[n]? = some e → e.seqNo.toNat = n

lemma numbered_nil : Numbered [] := by
  intro n e h
  simp at h

/-- Appending at the stream's length keeps it numbered. -/
lemma numbered_append {stream : List StoredEvent} {next : SeqNo} {events : List EncodedEvent}
    (h : Numbered stream) (hn : next.toNat = stream.length)
    (hfits : stream.length + events.length < 2 ^ 64) :
    Numbered (stream ++ InMemoryStore.stored next events) := by
  intro n e he
  rcases Nat.lt_or_ge n stream.length with hlt | hge
  · rw [List.getElem?_append_left hlt] at he
    exact h n e he
  · rw [List.getElem?_append_right hge, InMemoryStore.stored_getElem?,
      Option.map_eq_some_iff] at he
    obtain ⟨a, ha, rfl⟩ := he
    have hlen : n - stream.length < events.length := (List.getElem?_eq_some_iff.mp ha).1
    show (next.advancedBy _).toNat = n
    rw [SeqNo.toNat_advancedBy (by omega)]
    omega

lemma Numbered.take {stream : List StoredEvent} (h : Numbered stream) (n : ℕ) :
    Numbered (stream.take n) := by
  intro m e he
  rw [List.getElem?_take] at he
  split at he
  · exact h m e he
  · cases he

/-- A read is a slice of the stream. -/
lemma InMemoryStore.read_eq {I : Type} (s : InMemoryStore I) (id : I) (start : SeqNo) (limit : ℕ)
    (hfits : (s.streams id).length < 2 ^ 64) :
    s.read id start limit = ((s.streams id).drop start.toNat).take limit := by
  simp only [InMemoryStore.read]
  rcases Nat.le_total start.toNat (s.streams id).length with h | h
  · rw [Nat.min_eq_left h]
    rcases Nat.le_total limit ((s.streams id).length - start.toNat) with hl | hl
    · congr 1
      omega
    · rw [List.take_of_length_le (by rw [List.length_drop]; omega),
        List.take_of_length_le (by rw [List.length_drop]; omega)]
  · rw [Nat.min_eq_right h, List.drop_eq_nil_of_le h, List.drop_eq_nil_of_le le_rfl]
    simp

end Tellus
