import Mathlib.Tactic
import Tellus.Lib.Program

/-!
Tasks: any number of programs running next to each other on one shared state.

A task runs a control-flow graph.  Its blocks are programs (`Prog`) returning the point to go
on at, and `code` gives the block of a point; that way a task may loop for ever although
every block is a finite tree.  A step of the system answers one operation of one task, moves
one task from a point into its block, or is a step of the surroundings.

`Tasks.invariant` is the rule the concurrent developments use: if every block is safe from
every state which meets its point's assertion, and no operation moves the shared state
further than the others rely on, then every task is safe in every reachable state.
`Reaches.stays` is about a task which is done.
-/

namespace Concurrent

universe u v w

variable {ι : Type*} {Op : Type u} {Ans : Op → Type v} {σ : Type*} {Pt : Type w}

/-- The state of a system of tasks: the shared state and, for each task, the rest of the
block it is in. -/
structure Tasks (ι : Type*) (Op : Type u) (Ans : Op → Type v) (σ : Type*) (Pt : Type w) where
  shared : σ
  task : ι → Prog Op Ans Pt

namespace Tasks

variable [DecidableEq ι]

/-- The steps of a system of tasks. -/
inductive Step (code : ι → Pt → Prog Op Ans Pt)
    (exec : ι → σ → (op : Op) → Ans op → σ → Prop) (env : σ → σ → Prop) :
    Tasks ι Op Ans σ Pt → Tasks ι Op Ans σ Pt → Prop
  | answer {st : Tasks ι Op Ans σ Pt} (i : ι) {op : Op} {k : Ans op → Prog Op Ans Pt}
      (h : st.task i = .call op k) {x : Ans op} {s' : σ} (hx : exec i st.shared op x s') :
      Step code exec env st ⟨s', Function.update st.task i (k x)⟩
  | jump {st : Tasks ι Op Ans σ Pt} (i : ι) {pt : Pt} (h : st.task i = .ret pt) :
      Step code exec env st ⟨st.shared, Function.update st.task i (code i pt)⟩
  | env {st : Tasks ι Op Ans σ Pt} {s' : σ} (h : env st.shared s') :
      Step code exec env st ⟨s', st.task⟩

/-- The states a system of tasks can get into from `st`. -/
abbrev Reaches (code : ι → Pt → Prog Op Ans Pt)
    (exec : ι → σ → (op : Op) → Ans op → σ → Prop) (env : σ → σ → Prop) :
    Tasks ι Op Ans σ Pt → Tasks ι Op Ans σ Pt → Prop :=
  Relation.ReflTransGen (Step code exec env)

/-- The shared invariant holds and every task is safe. -/
def Good (C : Contract ι Op Ans σ) (post : ι → σ → Pt → Prop) (st : Tasks ι Op Ans σ Pt) :
    Prop :=
  C.inv st.shared ∧ ∀ i, Safe C i (post i) (st.task i) st.shared

variable {code : ι → Pt → Prog Op Ans Pt} {C : Contract ι Op Ans σ} {env : σ → σ → Prop}
  {post : ι → σ → Pt → Prop} {st st' : Tasks ι Op Ans σ Pt}

/-- One step keeps every task safe. -/
lemma Good.step
    (hcode : ∀ i s pt, C.inv s → post i s pt → Safe C i (post i) (code i pt) s)
    (hexec : ∀ i s op x s', C.inv s → C.pre i s op → C.exec i s op x s' →
      C.inv s' ∧ ∀ j, j ≠ i → C.rely j s s')
    (henv : ∀ s s', C.inv s → env s s' → C.inv s' ∧ ∀ j, C.rely j s s')
    (h : Good C post st) (hs : Step code C.exec env st st') : Good C post st' := by
  obtain ⟨hinv, hsafe⟩ := h
  cases hs with
  | answer i hi hx =>
      have hsi := hsafe i
      rw [hi] at hsi
      obtain ⟨hinv', hrely⟩ := hexec i _ _ _ _ hinv (hsi.pre hinv) hx
      refine ⟨hinv', fun j => ?_⟩
      dsimp only
      by_cases hj : j = i
      · subst hj
        rw [Function.update_self]
        exact hsi.step hinv hx hinv'
      · rw [Function.update_of_ne hj]
        exact (hsafe j).rely (hrely j hj)
  | jump i hi =>
      refine ⟨hinv, fun j => ?_⟩
      dsimp only
      by_cases hj : j = i
      · subst hj
        rw [Function.update_self]
        have hsj := hsafe j
        rw [hi] at hsj
        exact hcode j _ _ hinv (hsj.result hinv)
      · rw [Function.update_of_ne hj]
        exact hsafe j
  | env he =>
      obtain ⟨hinv', hrely⟩ := henv _ _ hinv he
      exact ⟨hinv', fun j => (hsafe j).rely (hrely j)⟩

/-- **Safety of concurrent tasks**: what one step keeps, every run keeps. -/
theorem invariant
    (hcode : ∀ i s pt, C.inv s → post i s pt → Safe C i (post i) (code i pt) s)
    (hexec : ∀ i s op x s', C.inv s → C.pre i s op → C.exec i s op x s' →
      C.inv s' ∧ ∀ j, j ≠ i → C.rely j s s')
    (henv : ∀ s s', C.inv s → env s s' → C.inv s' ∧ ∀ j, C.rely j s s')
    (h : Good C post st) (hr : Reaches code C.exec env st st') : Good C post st' := by
  induction hr with
  | refl => exact h
  | tail _ hs ih => exact ih.step hcode hexec henv hs

/-! ### A task which is done -/

section Done

variable {exec : ι → σ → (op : Op) → Ans op → σ → Prop} {i : ι} {pt : Pt}

/-- A task with nothing left to do stays where it is. -/
lemma Step.stays (hdone : code i pt = .ret pt) (h : st.task i = .ret pt)
    (hs : Step code exec env st st') : st'.task i = .ret pt := by
  cases hs with
  | answer j hj hx =>
      have hne : i ≠ j := by
        rintro rfl
        rw [h] at hj
        cases hj
      exact (Function.update_of_ne hne ..).trans h
  | @jump j pt' hj =>
      by_cases hij : i = j
      · subst hij
        rw [h] at hj
        cases hj
        exact (Function.update_self ..).trans hdone
      · exact (Function.update_of_ne hij ..).trans h
  | env => exact h

lemma Reaches.stays (hdone : code i pt = .ret pt) (h : st.task i = .ret pt)
    (hr : Reaches code exec env st st') : st'.task i = .ret pt := by
  induction hr with
  | refl => exact h
  | tail _ hs ih => exact hs.stays hdone ih

end Done

/-! ### A task on its own -/

section Solo

variable {code : Unit → Pt → Prog Op Ans Pt} {exec : Unit → σ → (op : Op) → Ans op → σ → Prop}
  {env : σ → σ → Prop} {s s' : σ}

/-- The system of a single task. -/
def solo (s : σ) (p : Prog Op Ans Pt) : Tasks Unit Op Ans σ Pt := ⟨s, fun _ => p⟩

lemma solo_update (s : σ) (p q : Prog Op Ans Pt) :
    (⟨s, Function.update (fun _ => p) () q⟩ : Tasks Unit Op Ans σ Pt) = solo s q := by
  congr 1

variable {st : Tasks Unit Op Ans σ Pt} {p : Prog Op Ans Pt}

/-- The only task's operation is answered. -/
lemma solo_answer {op : Op} {k : Ans op → Prog Op Ans Pt} {x : Ans op}
    (h : Reaches code exec env st (solo s (.call op k))) (hx : exec () s op x s') :
    Reaches code exec env st (solo s' (k x)) := by
  rw [← solo_update s' (.call op k)]
  exact h.tail (Step.answer () rfl hx)

/-- The only task goes on at a point. -/
lemma solo_jump {pt : Pt} (h : Reaches code exec env st (solo s (.ret pt))) :
    Reaches code exec env st (solo s (code () pt)) := by
  rw [← solo_update s (.ret pt)]
  exact h.tail (Step.jump () rfl)

/-- Something happens besides. -/
lemma solo_env (h : Reaches code exec env st (solo s p)) (he : env s s') :
    Reaches code exec env st (solo s' p) :=
  h.tail (Step.env he)

end Solo

end Tasks

end Concurrent
