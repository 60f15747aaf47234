import Mathlib.Tactic

/-!
Runs of a labelled transition system, and what has happened in them.

A run collects the labels of its steps, oldest first, so that a statement about its history is
a statement about a list.

* `Run.induction`: what holds at the start and is kept by every step holds at the end, of the
  history as well as of the state.
* `Run.split`: a run up to any of its labels, the step with that label, and the rest.
* `cut_concat`: where a history which has just grown can be cut.
* `replies_eq`: two machines which simulate each other reply alike to any calls.
-/

namespace Concurrent

variable {σ L : Type*} {step : σ → L → σ → Prop} {s t u : σ} {tr tr' : List L} {l : L}

/-- The runs from `s`, with the labels of their steps. -/
inductive Run (step : σ → L → σ → Prop) (s : σ) : List L → σ → Prop
  | nil : Run step s [] s
  | snoc {tr : List L} {l : L} {t u : σ} (h : Run step s tr t) (hs : step t l u) :
      Run step s (tr ++ [l]) u

namespace Run

/-- One run after the other. -/
lemma trans (h : Run step s tr t) (h' : Run step t tr' u) : Run step s (tr ++ tr') u := by
  induction h' with
  | nil => rwa [List.append_nil]
  | snoc _ hs ih =>
      rw [← List.append_assoc]
      exact ih.snoc hs

/-- **Induction over a run**, the steps taken so far being at hand. -/
lemma induction {P : List L → σ → Prop} (h : Run step s tr t) (hinit : P [] s)
    (hstep : ∀ tr l t u, Run step s tr t → P tr t → step t l u → P (tr ++ [l]) u) : P tr t := by
  induction h with
  | nil => exact hinit
  | snoc h hs ih => exact hstep _ _ _ _ h ih hs

/-- An invariant of the states alone. -/
lemma invariant {P : σ → Prop} (h : Run step s tr t) (hinit : P s)
    (hstep : ∀ l t u, P t → step t l u → P u) : P t :=
  h.induction (P := fun _ => P) hinit fun _ l t u _ ht hs => hstep l t u ht hs

/-- A run with a last step. -/
lemma snoc_inv (h : Run step s (tr ++ [l]) u) : ∃ t, Run step s tr t ∧ step t l u := by
  generalize htr : tr ++ [l] = tr' at h
  cases h with
  | nil => simp at htr
  | snoc h hs =>
      obtain ⟨rfl, hl⟩ := List.append_inj' htr rfl
      cases hl
      exact ⟨_, h, hs⟩

/-- The state a run goes through where its history is cut in two. -/
lemma append_inv (h : Run step s (tr ++ tr') u) : ∃ t, Run step s tr t ∧ Run step t tr' u := by
  induction tr' using List.reverseRecOn generalizing u with
  | nil => exact ⟨u, by simpa using h, nil⟩
  | append_singleton tr' l ih =>
      rw [← List.append_assoc] at h
      obtain ⟨v, hv, hs⟩ := snoc_inv h
      obtain ⟨t, ht, ht'⟩ := ih hv
      exact ⟨t, ht, ht'.snoc hs⟩

/-- A run, cut at one of its steps. -/
lemma split (h : Run step s (tr ++ l :: tr') u) :
    ∃ t t', Run step s tr t ∧ step t l t' ∧ Run step t' tr' u := by
  rw [← List.singleton_append, ← List.append_assoc] at h
  obtain ⟨t', h, htail⟩ := append_inv h
  obtain ⟨t, ht, hs⟩ := snoc_inv h
  exact ⟨t, t', ht, hs, htail⟩

end Run

/-! ### Cutting a history -/

/-- Where a history with a newest entry can be cut: at that entry or before it. -/
lemma cut_concat {α : Type*} {l before after : List α} {x y : α}
    (h : l ++ [x] = before ++ y :: after) :
    (before = l ∧ y = x ∧ after = []) ∨ ∃ after', after = after' ++ [x] ∧
      l = before ++ y :: after' := by
  rcases List.eq_nil_or_concat after with rfl | ⟨after', last, rfl⟩
  · obtain ⟨rfl, hxy⟩ := List.append_inj' h rfl
    cases hxy
    exact .inl ⟨rfl, rfl, rfl⟩
  · rw [List.concat_eq_append, ← List.cons_append, ← List.append_assoc] at h
    obtain ⟨rfl, hx⟩ := List.append_inj' h rfl
    cases hx
    exact .inr ⟨after', List.concat_eq_append, rfl⟩

/-! ### Replies -/

section Replies

variable {σ τ C R : Type*} {f : σ → C → R × σ} {g : τ → C → R × τ}

/-- The replies of a machine to calls made one after another. -/
def replies (f : σ → C → R × σ) : σ → List C → List R
  | _, [] => []
  | s, c :: cs => (f s c).1 :: replies f (f s c).2 cs

/-- **Simulation**: two machines in related states reply alike to any calls which are answered
alike by one step and keep them related. -/
lemma replies_eq {sim : σ → τ → Prop} {ok : C → Prop}
    (hstep : ∀ s t c, sim s t → ok c → (f s c).1 = (g t c).1 ∧ sim (f s c).2 (g t c).2)
    {s : σ} {t : τ} (h : sim s t) {cs : List C} (hok : ∀ c ∈ cs, ok c) :
    replies f s cs = replies g t cs := by
  induction cs generalizing s t with
  | nil => rfl
  | cons c cs ih =>
      obtain ⟨hreply, hsim⟩ := hstep s t c h (hok c List.mem_cons_self)
      rw [replies, replies, hreply, ih hsim fun c hc => hok c (List.mem_cons_of_mem _ hc)]

end Replies

end Concurrent
