import Mathlib.Tactic
import Tellus.Lib.Runs

/-!
Runs which come to an end.

A labelled step relation whose every step lowers a number has no long runs; if in addition it
gets stuck nowhere but in a goal, then every run can be driven to a goal and none avoids it for
ever.  Getting stuck is usually one party waiting for another: if the waiting goes up a rank
which is bounded, somebody does not wait.

* `Run.length_add_le`: a run is no longer than what it lowers.
* `Run.exists_goal`: bounded runs which can be continued outside of the goal get there.
* `exists_not_waiting`: ranked waiting ends at somebody who does not wait.
-/

namespace Concurrent

section Descent

variable {σ L : Type*} {step : σ → L → σ → Prop} {s t : σ} {tr : List L}

/-- A run along which every step lowers `μ` is no longer than `μ` at its start. -/
lemma Run.length_add_le (μ : σ → ℕ) {P : σ → Prop}
    (hstep : ∀ s l s', P s → step s l s' → P s' ∧ μ s' < μ s) (hs : P s)
    (h : Run step s tr t) : P t ∧ tr.length + μ t ≤ μ s := by
  induction h with
  | nil => exact ⟨hs, by simp⟩
  | snoc _ hl ih =>
      obtain ⟨ht, hle⟩ := ih
      obtain ⟨hu, hlt⟩ := hstep _ _ _ ht hl
      refine ⟨hu, ?_⟩
      rw [List.length_append, List.length_singleton]
      omega

/-- If runs are bounded, and can be continued unless they have reached the goal, then one of them
reaches it. -/
lemma Run.exists_goal (goal : σ → Prop) {bound : ℕ}
    (hbound : ∀ tr t, Run step s tr t → tr.length ≤ bound)
    (hgo : ∀ tr t, Run step s tr t → ¬goal t → ∃ l t', step t l t') :
    ∃ tr t, Run step s tr t ∧ goal t := by
  by_contra hnone
  push Not at hnone
  -- Otherwise there are runs of every length.
  have hlong : ∀ n, ∃ tr t, Run step s tr t ∧ tr.length = n := by
    intro n
    induction n with
    | zero => exact ⟨[], s, .nil, rfl⟩
    | succ n ih =>
        obtain ⟨tr, t, h, hlen⟩ := ih
        obtain ⟨l, t', hl⟩ := hgo tr t h (hnone tr t h)
        exact ⟨tr ++ [l], t', h.snoc hl, by rw [List.length_append, hlen, List.length_singleton]⟩
  obtain ⟨tr, t, h, hlen⟩ := hlong (bound + 1)
  have := hbound tr t h
  omega

end Descent

section Waiting

variable {α : Type*} {P : α → Prop}

/-- Whoever waits for somebody of a higher rank, the ranks being bounded, waits in the end for
somebody who does not wait. -/
lemma exists_not_waiting (waits : α → α → Prop) (rank : α → ℕ) {n : ℕ}
    (hbound : ∀ a, P a → rank a ≤ n)
    (hwaits : ∀ a b, P a → waits a b → P b ∧ rank a < rank b) {a : α} (ha : P a) :
    ∃ b, P b ∧ Relation.ReflTransGen waits a b ∧ ∀ c, ¬waits b c := by
  induction hk : n - rank a using Nat.strong_induction_on generalizing a with
  | _ k ih =>
      by_cases hw : ∃ b, waits a b
      · obtain ⟨b, hb⟩ := hw
        obtain ⟨hPb, hlt⟩ := hwaits a b ha hb
        have hle := hbound b hPb
        obtain ⟨c, hc, hbc, hfree⟩ := ih (n - rank b) (by omega) hPb rfl
        exact ⟨c, hc, .head hb hbc, hfree⟩
      · push Not at hw
        exact ⟨a, ha, .refl, hw⟩

end Waiting

end Concurrent
