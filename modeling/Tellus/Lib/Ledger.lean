import Mathlib.Tactic

/-!
Ledgers: what becomes of items which arrive one after the other.

An arrival is placed somewhere, refused, or held back to be placed or refused later, those held
back leaving in the order they have come in.  As long as nothing is placed past an item held
back, the placements happen in the order of arrival.

* `Fate`: what has become of an arrival.
* `Balances`: the arrivals have one fate each, and these add up to what has been placed, refused
  and is held.  It is kept by the five things which can be done with an item.
* `Balances.fates`: the fates, in the order of arrival.
-/

namespace Concurrent

variable {A M : Type*}

/-- What has become of an arrival. -/
inductive Fate (A : Type*) where
  | placed (a : A)
  | refused
  | held

namespace Fate

/-- Where an item was placed. -/
def placement : M × Fate A → Option (A × M)
  | (m, .placed a) => some (a, m)
  | (_, .refused) => none
  | (_, .held) => none

/-- An item which was refused. -/
def refusal : M × Fate A → Option M
  | (_, .placed _) => none
  | (m, .refused) => some m
  | (_, .held) => none

/-- An item which is held back. -/
def holding : M × Fate A → Option M
  | (_, .placed _) => none
  | (_, .refused) => none
  | (m, .held) => some m

end Fate

open Fate

/-- The arrivals have one fate each, and these account for what has been placed, in this order, has
been refused, and is held back.  Nothing is placed after what is held. -/
def Balances (arrived : List M) (placed : List (A × M)) (refused held : List M) : Prop :=
  ∃ done waiting : List (M × Fate A), done.filterMap holding = [] ∧
    waiting.filterMap placement = [] ∧ (done ++ waiting).map Prod.fst = arrived ∧
    done.filterMap placement = placed ∧ ((done ++ waiting).filterMap refusal).Perm refused ∧
    waiting.filterMap holding = held

namespace Balances

variable {arrived refused held : List M} {placed : List (A × M)} {a : A} {m : M}

/-- Nothing has arrived. -/
lemma nil : Balances ([] : List M) ([] : List (A × M)) [] [] :=
  ⟨[], [], rfl, rfl, rfl, rfl, .refl _, rfl⟩

/-- An arrival is placed at once, nothing being held. -/
lemma place (h : Balances arrived placed refused []) (a : A) (m : M) :
    Balances (arrived ++ [m]) (placed ++ [(a, m)]) refused [] := by
  obtain ⟨done, waiting, hdone, hwaiting, rfl, rfl, hrefused, hheld⟩ := h
  refine ⟨done ++ waiting ++ [(m, .placed a)], [], ?_, rfl, ?_, ?_, ?_, rfl⟩
  · simp [hdone, hheld, holding]
  · simp
  · simp [hwaiting, placement]
  · simpa [refusal, List.filterMap_cons] using hrefused

/-- An arrival is refused at once. -/
lemma refuse (h : Balances arrived placed refused held) (m : M) :
    Balances (arrived ++ [m]) placed (refused ++ [m]) held := by
  obtain ⟨done, waiting, hdone, hwaiting, rfl, rfl, hrefused, rfl⟩ := h
  refine ⟨done, waiting ++ [(m, .refused)], hdone, ?_, ?_, rfl, ?_, ?_⟩
  · simp [hwaiting, placement]
  · simp
  · rw [← List.append_assoc, List.filterMap_append]
    exact hrefused.append_right [m]
  · simp [holding]

/-- An arrival is held back. -/
lemma hold (h : Balances arrived placed refused held) (m : M) :
    Balances (arrived ++ [m]) placed refused (held ++ [m]) := by
  obtain ⟨done, waiting, hdone, hwaiting, rfl, rfl, hrefused, rfl⟩ := h
  refine ⟨done, waiting ++ [(m, .held)], hdone, ?_, ?_, rfl, ?_, ?_⟩
  · simp [hwaiting, placement]
  · simp
  · simpa [refusal, List.filterMap_cons] using hrefused
  · simp [holding]

/-- The oldest item held back is behind refusals only. -/
lemma split_held {waiting : List (M × Fate A)} (hwaiting : waiting.filterMap placement = [])
    (hheld : waiting.filterMap holding = m :: held) :
    ∃ before after, waiting = before ++ (m, .held) :: after ∧ before.filterMap holding = [] ∧
      before.filterMap placement = [] ∧ after.filterMap placement = [] ∧
      after.filterMap holding = held := by
  induction waiting with
  | nil => cases hheld
  | cons f waiting ih =>
      obtain ⟨m', fate⟩ := f
      cases fate with
      | placed a => simp [placement] at hwaiting
      | refused =>
          obtain ⟨before, after, rfl, hbefore, hbefore', hafter, hafter'⟩ := ih hwaiting hheld
          exact ⟨(m', .refused) :: before, after, rfl, hbefore, hbefore', hafter, hafter'⟩
      | held =>
          obtain ⟨rfl, rfl⟩ := List.cons.inj hheld
          exact ⟨[], waiting, rfl, rfl, rfl, hwaiting, rfl⟩

/-- The oldest item held back is placed. -/
lemma deliver (h : Balances arrived placed refused (m :: held)) (a : A) :
    Balances arrived (placed ++ [(a, m)]) refused held := by
  obtain ⟨done, waiting, hdone, hwaiting, rfl, rfl, hrefused, hheld⟩ := h
  obtain ⟨before, after, rfl, hbefore, hbefore', hafter, rfl⟩ := split_held hwaiting hheld
  refine ⟨done ++ before ++ [(m, .placed a)], after, ?_, hafter, ?_, ?_, ?_, rfl⟩
  · simp [hdone, hbefore, holding]
  · simp
  · simp [hbefore', placement]
  · simpa [refusal, List.filterMap_cons] using hrefused

/-- The oldest item held back is refused after all. -/
lemma discard (h : Balances arrived placed refused (m :: held)) :
    Balances arrived placed (refused ++ [m]) held := by
  obtain ⟨done, waiting, hdone, hwaiting, rfl, rfl, hrefused, hheld⟩ := h
  obtain ⟨before, after, rfl, hbefore, hbefore', hafter, rfl⟩ := split_held hwaiting hheld
  refine ⟨done ++ before ++ [(m, .refused)], after, ?_, hafter, ?_, ?_, ?_, rfl⟩
  · simp [hdone, hbefore, holding]
  · simp
  · simp [hbefore', placement]
  · simp only [List.append_assoc, List.filterMap_append, List.filterMap_cons, refusal,
      List.filterMap_nil] at hrefused ⊢
    rw [← List.append_assoc] at hrefused ⊢
    exact List.perm_middle.trans ((hrefused.cons m).trans (List.perm_append_singleton m _).symm)

/-- The fates of the arrivals, in their order. -/
theorem fates (h : Balances arrived placed refused held) :
    ∃ fates : List (M × Fate A), fates.map Prod.fst = arrived ∧
      fates.filterMap placement = placed ∧ (fates.filterMap refusal).Perm refused ∧
      fates.filterMap holding = held := by
  obtain ⟨done, waiting, hdone, hwaiting, hmap, hplaced, hrefused, hheld⟩ := h
  refine ⟨done ++ waiting, hmap, ?_, hrefused, ?_⟩
  · rw [List.filterMap_append, hwaiting, List.append_nil, hplaced]
  · rw [List.filterMap_append, hdone, List.nil_append, hheld]

end Balances

end Concurrent
