import Mathlib.Tactic

/-!
Calls which take effect one after another.

A machine answers one call at a time.  Concurrent calls are explained by it if there is an order
in which they could have been made to it, one after another, with the same answers; the order
grows at its end as calls take effect.

* `after`: the state of the machine once calls have been made in an order.
* `outcomes`: how they are answered.
* `outcomes_concat`, `outcomes_mono`: what one more call adds, and that nothing is taken back.
-/

namespace Concurrent

variable {ι σ C R : Type*} (f : σ → C → R × σ) (calls : ι → C)

/-- The state once the calls have been made, in the given order. -/
def after : σ → List ι → σ
  | s, [] => s
  | s, i :: order => after (f s (calls i)).2 order

/-- How the calls are answered, made in the given order. -/
def outcomes : σ → List ι → List (ι × R)
  | _, [] => []
  | s, i :: order => (i, (f s (calls i)).1) :: outcomes (f s (calls i)).2 order

variable {f calls}

@[simp] lemma after_concat (s : σ) (order : List ι) (i : ι) :
    after f calls s (order ++ [i]) = (f (after f calls s order) (calls i)).2 := by
  induction order generalizing s with
  | nil => rfl
  | cons j order ih => exact ih (f s (calls j)).2

lemma outcomes_append (s : σ) (order order' : List ι) :
    outcomes f calls s (order ++ order') =
      outcomes f calls s order ++ outcomes f calls (after f calls s order) order' := by
  induction order generalizing s with
  | nil => rfl
  | cons j order ih => exact congrArg (_ :: ·) (ih (f s (calls j)).2)

/-- One more call. -/
lemma outcomes_concat (s : σ) (order : List ι) (i : ι) :
    outcomes f calls s (order ++ [i]) =
      outcomes f calls s order ++ [(i, (f (after f calls s order) (calls i)).1)] :=
  outcomes_append s order [i]

/-- What has been answered stays so. -/
lemma outcomes_mono (s : σ) {order order' : List ι} (h : order <+: order') :
    outcomes f calls s order <+: outcomes f calls s order' := by
  obtain ⟨new, rfl⟩ := h
  rw [outcomes_append]
  exact List.prefix_append ..

/-- Every call is answered. -/
lemma outcomes_fst (s : σ) (order : List ι) :
    (outcomes f calls s order).map Prod.fst = order := by
  induction order generalizing s with
  | nil => rfl
  | cons i order ih => exact congrArg (i :: ·) (ih (f s (calls i)).2)

end Concurrent
