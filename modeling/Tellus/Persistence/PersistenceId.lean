import Mathlib.Tactic
import Mathlib.Data.List.TakeWhile

/-!
The stable identity of an event stream (`persistence/persistence_id.rs`): an entity type and an
entity ID, each of them a valid segment, and the string the two are joined to.

* `validSegment`, `PersistenceId.new`: the checks of the segments.
* `splitOnce`, `PersistenceId.fromStr`: a string is parsed by cutting it at its first slash.
* `PersistenceId.display`: the string of an ID, also its serialized form.
* `firstViolated`: which rule a refused pair of segments is reported with.
* `strings_one_to_one`: parser, printer and constructor agree on what an ID is.
-/

namespace Tellus

/-- The longest segment, in bytes. -/
def maxSegmentLen : ℕ := 255

/-- Which segment of a persistence ID a validation failure refers to. -/
inductive PersistenceIdSegment where
  | entityType
  | entityId
  deriving DecidableEq

/-- Why a persistence ID is refused. -/
inductive InvalidPersistenceId where
  | emptySegment (segment : PersistenceIdSegment)
  | segmentTooLong (segment : PersistenceIdSegment)
  | slashInSegment (segment : PersistenceIdSegment)
  | missingSeparator
  deriving DecidableEq

/-- How a message names a segment. -/
def PersistenceIdSegment.display : PersistenceIdSegment → String
  | .entityType => "entity type"
  | .entityId => "entity ID"

/-- The message of a refusal. -/
def InvalidPersistenceId.display : InvalidPersistenceId → String
  | .emptySegment segment => "empty " ++ segment.display
  | .segmentTooLong segment =>
      segment.display ++ " longer than " ++ toString maxSegmentLen ++ " bytes"
  | .slashInSegment segment => segment.display ++ " contains a slash, the reserved separator"
  | .missingSeparator => "persistence ID without a slash separator"

/-- A message tells which rule is violated, and by which segment. -/
lemma InvalidPersistenceId.display_injective :
    Function.Injective InvalidPersistenceId.display := by
  intro e e' h
  rcases e with (_ | _) | (_ | _) | (_ | _) | _ <;>
    rcases e' with (_ | _) | (_ | _) | (_ | _) | _ <;>
    first | rfl | exact absurd h (by decide +kernel)

/-- A segment is not empty, not too long, and free of the separator. -/
def ValidSegment (value : String) : Prop :=
  value ≠ "" ∧ value.utf8ByteSize ≤ maxSegmentLen ∧ '/' ∉ value.toList

instance (value : String) : Decidable (ValidSegment value) :=
  inferInstanceAs (Decidable (_ ∧ _ ∧ _))

/-- Check a segment, the first violated rule being reported. -/
def validSegment (value : String) (segment : PersistenceIdSegment) :
    Except InvalidPersistenceId String :=
  if value = "" then
    .error (.emptySegment segment)
  else if value.utf8ByteSize > maxSegmentLen then
    .error (.segmentTooLong segment)
  else if '/' ∈ value.toList then
    .error (.slashInSegment segment)
  else
    .ok value

/-- `validSegment` returns valid segments only, and returns them as they are. -/
lemma validSegment_eq_ok {value result : String} {segment : PersistenceIdSegment} :
    validSegment value segment = .ok result ↔ result = value ∧ ValidSegment value := by
  unfold validSegment
  split
  · simp [ValidSegment, *]
  split
  · simp [ValidSegment]
    omega
  split
  · simp [ValidSegment, *]
  · simp only [Except.ok.injEq, ValidSegment]
    constructor
    · rintro rfl
      exact ⟨rfl, by assumption, by omega, by assumption⟩
    · exact fun h => h.1.symm

/-- The identity of an event stream. -/
structure PersistenceId where
  entityType : String
  entityId : String
  entityType_valid : ValidSegment entityType
  entityId_valid : ValidSegment entityId
  deriving DecidableEq

namespace PersistenceId

/-- Create a persistence ID from its segments. -/
def new (entityType entityId : String) : Except InvalidPersistenceId PersistenceId :=
  match ht : validSegment entityType .entityType with
  | .error e => .error e
  | .ok type =>
      match hi : validSegment entityId .entityId with
      | .error e => .error e
      | .ok id =>
          have ht := validSegment_eq_ok.mp ht
          have hi := validSegment_eq_ok.mp hi
          .ok ⟨type, id, ht.1 ▸ ht.2, hi.1 ▸ hi.2⟩

variable {entityType entityId s : String} {id : PersistenceId}

/-- What `new` does, by the first segment which is refused. -/
lemma new_cases (entityType entityId : String) :
    (∃ e, validSegment entityType .entityType = .error e ∧ new entityType entityId = .error e)
      ∨ (∃ e, ValidSegment entityType ∧ validSegment entityId .entityId = .error e
        ∧ new entityType entityId = .error e)
      ∨ (ValidSegment entityType ∧ ValidSegment entityId
        ∧ ∃ id, new entityType entityId = .ok id
          ∧ id.entityType = entityType ∧ id.entityId = entityId) := by
  unfold new
  split
  · rename_i e ht
    exact .inl ⟨e, ht, rfl⟩
  · rename_i type ht
    obtain ⟨rfl, hvalid⟩ := validSegment_eq_ok.mp ht
    split
    · rename_i e hi
      exact .inr (.inl ⟨e, hvalid, hi, rfl⟩)
    · rename_i id hi
      obtain ⟨rfl, hvalid'⟩ := validSegment_eq_ok.mp hi
      exact .inr (.inr ⟨hvalid, hvalid', _, rfl, rfl, rfl⟩)

/-- `new` gives the ID of the segments it is given. -/
lemma new_eq_ok :
    new entityType entityId = .ok id ↔ id.entityType = entityType ∧ id.entityId = entityId := by
  constructor
  · intro h
    rcases new_cases entityType entityId with ⟨e, -, he⟩ | ⟨e, -, -, he⟩ | ⟨-, -, id', he, hsegs⟩
    · cases h.symm.trans he
    · cases h.symm.trans he
    · cases h.symm.trans he
      exact hsegs
  · rintro ⟨rfl, rfl⟩
    have ht : validSegment id.entityType .entityType = .ok id.entityType :=
      validSegment_eq_ok.mpr ⟨rfl, id.entityType_valid⟩
    have hi : validSegment id.entityId .entityId = .ok id.entityId :=
      validSegment_eq_ok.mpr ⟨rfl, id.entityId_valid⟩
    rcases new_cases id.entityType id.entityId with
      ⟨e, he, -⟩ | ⟨e, -, he, -⟩ | ⟨-, -, id', he, hsegs⟩
    · cases ht.symm.trans he
    · cases hi.symm.trans he
    · rw [he, Except.ok.injEq, PersistenceId.mk.injEq]
      exact hsegs

/-! ### Strings -/

/-- Cut a string at the first `c`, which belongs to neither side. -/
def splitOnce (s : String) (c : Char) : Option (String × String) :=
  match s.toList.dropWhile (· ≠ c) with
  | [] => none
  | _ :: rest => some (String.ofList (s.toList.takeWhile (· ≠ c)), String.ofList rest)

/-- Parse the string of an ID. -/
def fromStr (s : String) : Except InvalidPersistenceId PersistenceId :=
  match splitOnce s '/' with
  | none => .error .missingSeparator
  | some (entityType, entityId) => new entityType entityId

/-- The string of an ID. -/
def display (id : PersistenceId) : String := id.entityType ++ "/" ++ id.entityId

/-- What a serialized ID is read as. -/
def tryFrom (s : String) : Except InvalidPersistenceId PersistenceId := fromStr s

/-- What an ID is serialized to. -/
def into (id : PersistenceId) : String := id.display

lemma splitOnce_of_not_mem {c : Char} (h : c ∉ s.toList) : splitOnce s c = none := by
  have hnil : s.toList.dropWhile (· ≠ c) = [] := by
    rw [List.dropWhile_eq_nil_iff]
    intro x hx
    simp only [decide_eq_true_eq]
    rintro rfl
    exact h hx
  rw [splitOnce, hnil]

lemma splitOnce_of_eq {c : Char} {a b : String} (hs : s.toList = a.toList ++ c :: b.toList)
    (ha : c ∉ a.toList) : splitOnce s c = some (a, b) := by
  have hne : ∀ x ∈ a.toList, decide (x ≠ c) = true := by
    intro x hx
    simp only [decide_eq_true_eq]
    rintro rfl
    exact ha hx
  have hdrop : s.toList.dropWhile (· ≠ c) = c :: b.toList := by
    rw [hs, List.dropWhile_append_of_pos hne]
    simp
  have htake : s.toList.takeWhile (· ≠ c) = a.toList := by
    rw [hs, List.takeWhile_append_of_pos hne]
    simp
  rw [splitOnce, hdrop, htake]
  simp

lemma toList_join (a b : String) : (a ++ "/" ++ b).toList = a.toList ++ '/' :: b.toList := by
  rw [String.toList_append, String.toList_append, List.append_assoc]
  rfl

/-- Every string with a slash is cut at the first one. -/
lemma exists_join (h : '/' ∈ s.toList) : ∃ a b, s = a ++ "/" ++ b ∧ '/' ∉ a.toList := by
  obtain ⟨as, bs, hs, ha⟩ := List.eq_append_cons_of_mem h
  refine ⟨String.ofList as, String.ofList bs, ?_, by simpa using ha⟩
  rw [← String.toList_inj, toList_join, hs, String.toList_ofList, String.toList_ofList]

lemma fromStr_of_not_mem (h : '/' ∉ s.toList) : fromStr s = .error .missingSeparator := by
  rw [fromStr, splitOnce_of_not_mem h]

lemma fromStr_join {a b : String} (ha : '/' ∉ a.toList) : fromStr (a ++ "/" ++ b) = new a b := by
  rw [fromStr, splitOnce_of_eq (toList_join a b) ha]

/-- A string parses to the ID whose string it is. -/
lemma fromStr_eq_ok : fromStr s = .ok id ↔ s = id.display := by
  constructor
  · intro h
    by_cases hs : '/' ∈ s.toList
    · obtain ⟨a, b, rfl, ha⟩ := exists_join hs
      rw [fromStr_join ha] at h
      obtain ⟨rfl, rfl⟩ := new_eq_ok.mp h
      rfl
    · cases h.symm.trans (fromStr_of_not_mem hs)
  · rintro rfl
    rw [display, fromStr_join id.entityType_valid.2.2]
    exact new_eq_ok.mpr ⟨rfl, rfl⟩

lemma display_injective : Function.Injective display := by
  intro id id' h
  have hid : fromStr id.display = .ok id := fromStr_eq_ok.mpr rfl
  have hid' : fromStr id.display = .ok id' := fromStr_eq_ok.mpr h
  exact Except.ok.inj (hid.symm.trans hid')

/-- Which pairs of segments make an ID. -/
lemma exists_new_eq_ok :
    (∃ id, new entityType entityId = .ok id) ↔ ValidSegment entityType ∧ ValidSegment entityId := by
  constructor
  · rintro ⟨id, h⟩
    obtain ⟨rfl, rfl⟩ := new_eq_ok.mp h
    exact ⟨id.entityType_valid, id.entityId_valid⟩
  · rintro ⟨ht, hi⟩
    exact ⟨⟨entityType, entityId, ht, hi⟩, new_eq_ok.mpr ⟨rfl, rfl⟩⟩

/-- Which strings parse: those with one slash and neither side empty or too long. -/
lemma exists_fromStr_eq_ok :
    (∃ id, fromStr s = .ok id) ↔ s.toList.count '/' = 1 ∧ ∃ a b, s = a ++ "/" ++ b
      ∧ (1 ≤ a.utf8ByteSize ∧ a.utf8ByteSize ≤ 255) ∧ 1 ≤ b.utf8ByteSize ∧ b.utf8ByteSize ≤ 255 := by
  constructor
  · rintro ⟨id, h⟩
    obtain ⟨hne, hlen, hslash⟩ := id.entityType_valid
    obtain ⟨hne', hlen', hslash'⟩ := id.entityId_valid
    rw [fromStr_eq_ok.mp h]
    refine ⟨?_, id.entityType, id.entityId, rfl, ⟨?_, hlen⟩, ?_, hlen'⟩
    · rw [display, toList_join, List.count_append, List.count_cons_self,
        List.count_eq_zero_of_not_mem hslash, List.count_eq_zero_of_not_mem hslash']
    · exact Nat.pos_of_ne_zero (String.utf8ByteSize_eq_zero_iff.not.mpr hne)
    · exact Nat.pos_of_ne_zero (String.utf8ByteSize_eq_zero_iff.not.mpr hne')
  · rintro ⟨hcount, a, b, rfl, ⟨hpos, hlen⟩, hpos', hlen'⟩
    rw [toList_join, List.count_append, List.count_cons_self] at hcount
    have ha : '/' ∉ a.toList := List.count_eq_zero.mp (by omega)
    have hb : '/' ∉ b.toList := List.count_eq_zero.mp (by omega)
    rw [fromStr_join ha]
    refine exists_new_eq_ok.mpr ⟨⟨?_, hlen, ha⟩, ?_, hlen', hb⟩
    · rintro rfl
      exact absurd hpos (by decide)
    · rintro rfl
      exact absurd hpos' (by decide)

/-! ### Refused input -/

/-- The rules for a segment, in the order they are checked in. -/
def segmentRules (segment : PersistenceIdSegment) : List InvalidPersistenceId :=
  [.emptySegment segment, .segmentTooLong segment, .slashInSegment segment]

/-- Whether the segments violate a rule. -/
def violated (segments : PersistenceIdSegment → String) : InvalidPersistenceId → Bool
  | .emptySegment segment => segments segment = ""
  | .segmentTooLong segment => maxSegmentLen < (segments segment).utf8ByteSize
  | .slashInSegment segment => '/' ∈ (segments segment).toList
  | .missingSeparator => false

/-- The two segments by their names. -/
def segments (entityType entityId : String) : PersistenceIdSegment → String
  | .entityType => entityType
  | .entityId => entityId

/-- The first rule two segments violate, those of the entity type coming first. -/
def firstViolated (entityType entityId : String) : Option InvalidPersistenceId :=
  (segmentRules .entityType ++ segmentRules .entityId).find?
    (violated (segments entityType entityId))

/-- A segment is refused with the first of its rules which it violates. -/
lemma validSegment_eq (values : PersistenceIdSegment → String) (segment : PersistenceIdSegment) :
    validSegment (values segment) segment
      = ((segmentRules segment).find? (violated values)).elim (.ok (values segment)) .error := by
  unfold validSegment segmentRules
  split
  · simp [violated, *]
  split
  · simp [violated, *]
  split
  · simp [violated, *]
  · simp [violated, *]

lemma validSegment_eq_error {values : PersistenceIdSegment → String}
    {segment : PersistenceIdSegment} {e : InvalidPersistenceId} :
    validSegment (values segment) segment = .error e
      ↔ (segmentRules segment).find? (violated values) = some e := by
  rw [validSegment_eq]
  cases (segmentRules segment).find? (violated values) <;> simp

lemma validSegment_iff (values : PersistenceIdSegment → String)
    (segment : PersistenceIdSegment) :
    ValidSegment (values segment) ↔ (segmentRules segment).find? (violated values) = none := by
  have hok : validSegment (values segment) segment = .ok (values segment)
      ↔ ValidSegment (values segment) := by simp [validSegment_eq_ok]
  rw [← hok, validSegment_eq]
  cases (segmentRules segment).find? (violated values) <;> simp

/-- The segments are checked one after the other, and so are their rules. -/
lemma new_eq_error {e : InvalidPersistenceId} :
    new entityType entityId = .error e ↔ firstViolated entityType entityId = some e := by
  let values := segments entityType entityId
  have ht : validSegment entityType .entityType = validSegment (values .entityType) .entityType :=
    rfl
  have hi : validSegment entityId .entityId = validSegment (values .entityId) .entityId := rfl
  rw [firstViolated, List.find?_append]
  rcases new_cases entityType entityId with ⟨e', he, hnew⟩ | ⟨e', hvalid, he, hnew⟩
    | ⟨hvalid, hvalid', id, hnew, -⟩
  · rw [hnew, validSegment_eq_error.mp (ht.symm.trans he)]
    simp
  · rw [hnew, (validSegment_iff values .entityType).mp hvalid,
      validSegment_eq_error.mp (hi.symm.trans he)]
    simp
  · rw [hnew, (validSegment_iff values .entityType).mp hvalid,
      (validSegment_iff values .entityId).mp hvalid']
    simp

/-- Only the parser reports a missing separator. -/
lemma firstViolated_ne_missingSeparator :
    firstViolated entityType entityId ≠ some .missingSeparator := by
  intro h
  have hviolated := List.find?_some h
  cases hviolated

/-- **IDs and their strings correspond one to one.**  The parser accepts the strings with one
slash and neither side empty or too long, the constructor the segments of which these are made;
both undo the printer, also where it serializes.  Refused input is reported with the first rule
it violates, the missing separator coming before those of the segments. -/
theorem strings_one_to_one (s entityType entityId : String) (id : PersistenceId) :
    ((∃ id, fromStr s = .ok id) ↔ s.toList.count '/' = 1 ∧ ∃ a b, s = a ++ "/" ++ b
      ∧ (1 ≤ a.utf8ByteSize ∧ a.utf8ByteSize ≤ 255) ∧ 1 ≤ b.utf8ByteSize ∧ b.utf8ByteSize ≤ 255)
    ∧ (fromStr s = .ok id → id.display = s)
    ∧ ((∃ id, new entityType entityId = .ok id) ↔
      (entityType ≠ "" ∧ entityType.utf8ByteSize ≤ 255 ∧ '/' ∉ entityType.toList)
        ∧ entityId ≠ "" ∧ entityId.utf8ByteSize ≤ 255 ∧ '/' ∉ entityId.toList)
    ∧ (new entityType entityId = .ok id →
      fromStr id.display = .ok id ∧ id.entityType = entityType ∧ id.entityId = entityId)
    ∧ Function.Injective display ∧ Function.Injective into ∧ (tryFrom s = .ok id ↔ s = id.into)
    ∧ (fromStr s = .error .missingSeparator ↔ '/' ∉ s.toList)
    ∧ (∀ a b e, s = a ++ "/" ++ b → '/' ∉ a.toList →
      (fromStr s = .error e ↔ firstViolated a b = some e))
    ∧ ∀ e, new entityType entityId = .error e ↔ firstViolated entityType entityId = some e := by
  refine ⟨exists_fromStr_eq_ok, fun h => (fromStr_eq_ok.mp h).symm, exists_new_eq_ok,
    fun h => ⟨fromStr_eq_ok.mpr rfl, new_eq_ok.mp h⟩, display_injective, display_injective,
    fromStr_eq_ok, ⟨?_, fromStr_of_not_mem⟩, ?_, fun _ => new_eq_error⟩
  · intro h hs
    obtain ⟨a, b, rfl, ha⟩ := exists_join hs
    rw [fromStr_join ha, new_eq_error] at h
    exact firstViolated_ne_missingSeparator h
  · rintro a b e rfl ha
    rw [fromStr_join ha, new_eq_error]

end PersistenceId

end Tellus
