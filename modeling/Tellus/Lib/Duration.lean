import Mathlib.Tactic

/-!
Spans of time as seconds and nanoseconds in machine words, with the checked arithmetic they are
multiplied by.

* `checkedShl`, `checkedMul`, `checkedAdd`: operations on words which give nothing once the
  result does not fit.
* `Duration`: whole seconds and a fraction below one second.
* `Duration.asNanos`: the length of a span as a number, by which spans are told apart
  (`asNanos_inj`) and compared (`lt_iff_asNanos_lt`).
* `asNanos_saturatingMul`, `asNanos_min`: what the operations do to that number.
-/

namespace Machine

/-! ### Checked operations on words -/

/-- Shift to the left by less than the width of the word. -/
def checkedShl (a n : UInt32) : Option UInt32 :=
  if n < 32 then some (a <<< n) else none

/-- The product, if it fits. -/
def checkedMul (a b : UInt64) : Option UInt64 :=
  if a.toNat * b.toNat < 2 ^ 64 then some (a * b) else none

/-- The sum, if it fits. -/
def checkedAdd (a b : UInt64) : Option UInt64 :=
  if a.toNat + b.toNat < 2 ^ 64 then some (a + b) else none

/-- One shifted to the left is a power of two, the largest word standing for those too large. -/
lemma toNat_checkedShl_one (n : UInt32) :
    ((checkedShl 1 n).getD 4294967295).toNat
      = if n.toNat < 32 then 2 ^ n.toNat else 2 ^ 32 - 1 := by
  have hlt : n < 32 ↔ n.toNat < 32 := by
    rw [UInt32.lt_iff_toNat_lt]
    simp
  unfold checkedShl
  by_cases h : n.toNat < 32
  · rw [if_pos (hlt.mpr h), if_pos h, Option.getD_some, UInt32.toNat_shiftLeft,
      Nat.mod_eq_of_lt h, UInt32.toNat_one, Nat.shiftLeft_eq, one_mul]
    exact Nat.mod_eq_of_lt (Nat.pow_lt_pow_right (by decide) h)
  · rw [if_neg (hlt.not.mpr h), if_neg h]
    decide

lemma checkedMul_eq_some {a b c : UInt64} :
    checkedMul a b = some c ↔ c.toNat = a.toNat * b.toNat := by
  unfold checkedMul
  have hc := c.toNat_lt
  split
  · rename_i h
    rw [Option.some.injEq, ← UInt64.toNat_inj, UInt64.toNat_mul, Nat.mod_eq_of_lt h]
    exact eq_comm
  · simp
    omega

lemma checkedAdd_eq_some {a b c : UInt64} :
    checkedAdd a b = some c ↔ c.toNat = a.toNat + b.toNat := by
  unfold checkedAdd
  have hc := c.toNat_lt
  split
  · rename_i h
    rw [Option.some.injEq, ← UInt64.toNat_inj, UInt64.toNat_add, Nat.mod_eq_of_lt h]
    exact eq_comm
  · simp
    omega

/-! ### Durations -/

/-- The nanoseconds of a second. -/
def nanosPerSec : ℕ := 1000000000

/-- A span of time: seconds, and nanoseconds below one second. -/
structure Duration where
  secs : UInt64
  nanos : UInt32
  nanos_lt : nanos.toNat < nanosPerSec
  deriving DecidableEq

namespace Duration

/-- The empty span. -/
def zero : Duration := ⟨0, 0, by decide⟩

/-- The span of so many seconds. -/
def fromSecs (secs : UInt64) : Duration := ⟨secs, 0, zero.nanos_lt⟩

/-- The longest span. -/
def max : Duration := ⟨18446744073709551615, 999999999, by decide⟩

/-- The nanoseconds of the span. -/
def asNanos (d : Duration) : ℕ := d.secs.toNat * nanosPerSec + d.nanos.toNat

/-- Spans are compared by their seconds first, then by their nanoseconds. -/
instance : LT Duration where
  lt a b := a.secs < b.secs ∨ a.secs = b.secs ∧ a.nanos < b.nanos

instance : LE Duration where
  le a b := a.secs < b.secs ∨ a.secs = b.secs ∧ a.nanos ≤ b.nanos

instance (a b : Duration) : Decidable (a < b) := inferInstanceAs (Decidable (_ ∨ _ ∧ _))

instance (a b : Duration) : Decidable (a ≤ b) := inferInstanceAs (Decidable (_ ∨ _ ∧ _))

/-- The shorter span, the first of two equal ones. -/
def min (a b : Duration) : Duration := if b < a then b else a

/-- The product of the nanoseconds with a word, in nanoseconds: it always fits. -/
def totalNanos (d : Duration) (rhs : UInt32) : UInt64 := d.nanos.toUInt64 * rhs.toUInt64

lemma toNat_totalNanos (d : Duration) (rhs : UInt32) :
    (d.totalNanos rhs).toNat = d.nanos.toNat * rhs.toNat := by
  have hd := d.nanos.toNat_lt
  have hr := rhs.toNat_lt
  have h : d.nanos.toNat * rhs.toNat < 2 ^ 32 * 2 ^ 32 := Nat.mul_lt_mul'' hd hr
  rw [totalNanos, UInt64.toNat_mul, UInt32.toNat_toUInt64, UInt32.toNat_toUInt64]
  exact Nat.mod_eq_of_lt (by omega)

lemma toNat_totalNanos_mod (d : Duration) (rhs : UInt32) :
    (d.totalNanos rhs % 1000000000).toUInt32.toNat = d.nanos.toNat * rhs.toNat % nanosPerSec := by
  have h : (1000000000 : UInt64).toNat = nanosPerSec := by decide
  have hlt : d.nanos.toNat * rhs.toNat % nanosPerSec < nanosPerSec := Nat.mod_lt _ (by decide)
  rw [UInt64.toNat_toUInt32, UInt64.toNat_mod, toNat_totalNanos, h]
  refine Nat.mod_eq_of_lt (hlt.trans ?_)
  decide

lemma toNat_totalNanos_div (d : Duration) (rhs : UInt32) :
    (d.totalNanos rhs / 1000000000).toNat = d.nanos.toNat * rhs.toNat / nanosPerSec := by
  have h : (1000000000 : UInt64).toNat = nanosPerSec := by decide
  rw [UInt64.toNat_div, toNat_totalNanos, h]

/-- The product with a word, if the seconds fit. -/
def checkedMul (d : Duration) (rhs : UInt32) : Option Duration := do
  let extraSecs := d.totalNanos rhs / 1000000000
  let nanos := (d.totalNanos rhs % 1000000000).toUInt32
  have h : nanos.toNat < nanosPerSec :=
    toNat_totalNanos_mod d rhs ▸ Nat.mod_lt _ (by decide)
  let s ← Machine.checkedMul d.secs rhs.toUInt64
  let secs ← Machine.checkedAdd s extraSecs
  return ⟨secs, nanos, h⟩

/-- The product with a word, or the longest span. -/
def saturatingMul (d : Duration) (rhs : UInt32) : Duration := (d.checkedMul rhs).getD max

variable {a b d : Duration}

/-- Spans of one length are the same. -/
lemma asNanos_inj : a.asNanos = b.asNanos ↔ a = b := by
  constructor
  · intro h
    have ha := a.nanos_lt
    have hb := b.nanos_lt
    obtain ⟨sa, na, _⟩ := a
    obtain ⟨sb, nb, _⟩ := b
    simp only [asNanos, nanosPerSec] at h ha hb
    have hs : sa.toNat = sb.toNat := by omega
    have hn : na.toNat = nb.toNat := by omega
    rw [UInt64.toNat_inj] at hs
    rw [UInt32.toNat_inj] at hn
    subst hs hn
    rfl
  · rintro rfl
    rfl

lemma lt_iff_asNanos_lt : a < b ↔ a.asNanos < b.asNanos := by
  have ha := a.nanos_lt
  have hb := b.nanos_lt
  change a.secs < b.secs ∨ a.secs = b.secs ∧ a.nanos < b.nanos ↔ _
  rw [UInt64.lt_iff_toNat_lt, UInt32.lt_iff_toNat_lt, ← UInt64.toNat_inj]
  simp only [asNanos, nanosPerSec] at *
  omega

lemma asNanos_max : max.asNanos = 2 ^ 64 * nanosPerSec - 1 := by
  have hs : max.secs.toNat = 18446744073709551615 := rfl
  have hn : max.nanos.toNat = 999999999 := rfl
  rw [asNanos, hs, hn]
  norm_num [nanosPerSec]

/-- No span is longer than the longest. -/
lemma asNanos_le_max (d : Duration) : d.asNanos ≤ max.asNanos := by
  have hs := d.secs.toNat_lt
  have hn := d.nanos_lt
  rw [asNanos_max]
  simp only [asNanos, nanosPerSec] at *
  omega

lemma asNanos_min (a b : Duration) : (a.min b).asNanos = a.asNanos ⊓ b.asNanos := by
  unfold Duration.min
  by_cases h : b < a
  · rw [if_pos h]
    exact (Nat.min_eq_right (lt_iff_asNanos_lt.mp h).le).symm
  · rw [if_neg h]
    exact (Nat.min_eq_left (Nat.le_of_not_lt (lt_iff_asNanos_lt.not.mp h))).symm

/-- The span of so many nanoseconds, the seconds wrapping around. -/
def ofNanos (n : ℕ) : Duration where
  secs := UInt64.ofNat (n / nanosPerSec)
  nanos := UInt32.ofNat (n % nanosPerSec)
  nanos_lt := by
    have hmod : n % nanosPerSec < nanosPerSec := Nat.mod_lt _ (by decide)
    rw [UInt32.toNat_ofNat_of_lt' (hmod.trans (by decide))]
    exact hmod

lemma asNanos_ofNanos {n : ℕ} (h : n ≤ max.asNanos) : (ofNanos n).asNanos = n := by
  have hmod : n % nanosPerSec < nanosPerSec := Nat.mod_lt _ (by decide)
  rw [asNanos_max] at h
  have hdiv : n / nanosPerSec < 2 ^ 64 := by
    simp only [nanosPerSec] at *
    omega
  rw [asNanos, ofNanos, UInt64.toNat_ofNat_of_lt' hdiv,
    UInt32.toNat_ofNat_of_lt' (hmod.trans (by decide))]
  exact Nat.div_add_mod' n nanosPerSec

/-- The product is the one of the numbers, wherever it is a span at all. -/
lemma checkedMul_eq_some {n : UInt32} :
    a.checkedMul n = some b ↔ b.asNanos = a.asNanos * n.toNat := by
  have hmod := toNat_totalNanos_mod a n
  have hdiv := toNat_totalNanos_div a n
  have hb := b.nanos_lt
  have hsplit : a.asNanos * n.toNat
      = a.secs.toNat * n.toNat * nanosPerSec + a.nanos.toNat * n.toNat := by
    simp only [asNanos]
    ring
  rw [hsplit]
  simp only [checkedMul, Option.bind_eq_bind, Option.pure_def, Option.bind_eq_some_iff,
    Machine.checkedMul_eq_some, Machine.checkedAdd_eq_some, UInt32.toNat_toUInt64]
  simp only [nanosPerSec, asNanos] at *
  generalize a.secs.toNat * n.toNat = secs at *
  generalize a.nanos.toNat * n.toNat = nanos at *
  constructor
  · rintro ⟨s, hs, t, ht, h⟩
    obtain rfl := Option.some.inj h
    simp only [hmod]
    omega
  · intro h
    -- The seconds of the product fit, since they are at most those of `b`.
    have hfit : secs < UInt64.size := lt_of_le_of_lt (by omega) b.secs.toNat_lt
    refine ⟨UInt64.ofNat secs, UInt64.toNat_ofNat_of_lt' hfit, b.secs, ?_, ?_⟩
    · rw [UInt64.toNat_ofNat_of_lt' hfit, hdiv]
      omega
    · rw [Option.some.injEq, ← asNanos_inj]
      simp only [asNanos, nanosPerSec, hmod]
      omega

/-- A product which does not fit is replaced by the longest span. -/
theorem asNanos_saturatingMul (d : Duration) (n : UInt32) :
    (d.saturatingMul n).asNanos = (d.asNanos * n.toNat) ⊓ max.asNanos := by
  unfold saturatingMul
  cases h : d.checkedMul n with
  | some e =>
      rw [Option.getD_some, ← checkedMul_eq_some.mp h]
      exact (Nat.min_eq_left (asNanos_le_max e)).symm
  | none =>
      rw [Option.getD_none]
      refine (Nat.min_eq_right (Nat.le_of_not_lt fun hlt => ?_)).symm
      have hfits := asNanos_ofNanos hlt.le
      rw [checkedMul_eq_some.mpr hfits] at h
      cases h

end Duration

end Machine
