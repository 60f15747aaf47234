import Mathlib.Tactic
import Tellus.Lib.Tasks
import Tellus.Lib.Traces

/-!
Tasks whose operations are carried out by programs.

An operation which one level of a design takes as a single step is a program of several steps at
the level below, and the steps of other tasks come in between.  It is atomic all the same if one of
these steps does what the operation does and the others can be taken as not having happened.  Here
that step is the last one: by the time the program has returned, the operation has been answered.

* `Atomic`: what has to be shown of the programs.
* `Synced`: a task above and the task below it, which is inside of one of these programs or has
  nothing left to do.
* `Atomic.refines`: every run below is one above.
-/

namespace Concurrent

universe w

variable {ι Op Op' σ τ : Type*} {Ans : Op → Type w} {Ans' : Op' → Type w} {Pt : Type w}

/-- The programs `g` carry out the operations above one step at a time: `rel` relates the states of
the two levels, and `pending` says what is known while an operation is under way. -/
structure Atomic (exec : ι → σ → (op : Op) → Ans op → σ → Prop) (env : σ → σ → Prop)
    (exec' : ι → τ → (o : Op') → Ans' o → τ → Prop) (env' : τ → τ → Prop)
    (g : (op : Op) → Prog Op' Ans' (Ans op)) where
  rel : σ → τ → Prop
  pending : ι → (op : Op) → Prog Op' Ans' (Ans op) → τ → Prop
  /-- How the state below changes. -/
  grows : τ → τ → Prop
  exec_grows : ∀ i t o y t', exec' i t o y t' → grows t t'
  env_grows : ∀ t t', env' t t' → grows t t'
  pending_mono : ∀ i op q t t', pending i op q t → grows t t' → pending i op q t'
  start : ∀ i op s t, rel s t → pending i op (g op) t
  /-- A program which has returned has been answered. -/
  answered : ∀ i op x s t, rel s t → pending i op (.ret x) t → ∃ s', exec i s op x s' ∧ rel s' t
  /-- A step goes unnoticed, or it is the last one and answers the operation. -/
  step : ∀ i op o k s t y t', rel s t → pending i op (.call o k) t → exec' i t o y t' →
    (rel s t' ∧ pending i op (k y) t') ∨
      ∃ x s', k y = .ret x ∧ exec i s op x s' ∧ rel s' t'
  step_env : ∀ s t t', rel s t → env' t t' → rel s t' ∨ ∃ s', env s s' ∧ rel s' t'

namespace Atomic

variable {exec : ι → σ → (op : Op) → Ans op → σ → Prop} {env : σ → σ → Prop}
  {exec' : ι → τ → (o : Op') → Ans' o → τ → Prop} {env' : τ → τ → Prop}
  {g : (op : Op) → Prog Op' Ans' (Ans op)} (R : Atomic exec env exec' env' g)

/-- A task above, and the one below it. -/
inductive Synced (i : ι) (t : τ) : Prog Op Ans Pt → Prog Op' Ans' Pt → Prop
  | ret (pt : Pt) : Synced i t (.ret pt) (.ret pt)
  | call {op : Op} {k : Ans op → Prog Op Ans Pt} {o : Op'} {k' : Ans' o → Prog Op' Ans' (Ans op)}
      (h : R.pending i op (.call o k') t) :
      Synced i t (.call op k) (.call o fun y => (k' y).bind fun x => (k x).translate g)

variable {R} {i : ι} {s : σ} {t t' : τ}

lemma Synced.mono {p : Prog Op Ans Pt} {q : Prog Op' Ans' Pt} (h : R.Synced i t p q)
    (hgrows : R.grows t t') : R.Synced i t' p q := by
  cases h with
  | ret pt => exact .ret pt
  | call h => exact .call (R.pending_mono _ _ _ _ _ h hgrows)

variable (R) [DecidableEq ι] {code : ι → Pt → Prog Op Ans Pt}

/-- The two systems, task by task. -/
structure Sim (st : Tasks ι Op Ans σ Pt) (st' : Tasks ι Op' Ans' τ Pt) : Prop where
  rel : R.rel st.shared st'.shared
  synced : ∀ i, R.Synced i st'.shared (st.task i) (st'.task i)

variable {R} {st : Tasks ι Op Ans σ Pt} {st' st'' : Tasks ι Op' Ans' τ Pt}

/-- The task above goes on as long as the program of its next operation has nothing to do. -/
lemma exists_synced (code : ι → Pt → Prog Op Ans Pt) (st : Tasks ι Op Ans σ Pt)
    {p : Prog Op Ans Pt} (hrel : R.rel st.shared t) (hp : st.task i = p) :
    ∃ st₁, Tasks.Reaches code exec env st st₁ ∧ R.rel st₁.shared t ∧
      (∀ j, j ≠ i → st₁.task j = st.task j) ∧ R.Synced i t (st₁.task i) (p.translate g) := by
  induction p generalizing st with
  | ret pt =>
      refine ⟨st, .refl, hrel, fun _ _ => rfl, ?_⟩
      rw [hp]
      exact .ret pt
  | call op k ih =>
      have hpending := R.start i op _ _ hrel
      rw [Prog.translate_call]
      cases hg : g op with
      | call o k' =>
          rw [hg] at hpending
          refine ⟨st, .refl, hrel, fun _ _ => rfl, ?_⟩
          rw [hp]
          exact .call hpending
      | ret x =>
          rw [hg] at hpending
          obtain ⟨s₁, hexec, hrel₁⟩ := R.answered i op x _ _ hrel hpending
          obtain ⟨st₂, hreach, hrel₂, hothers, hsync⟩ :=
            ih x ⟨s₁, Function.update st.task i (k x)⟩ hrel₁ (Function.update_self ..)
          refine ⟨st₂, .head (.answer i hp hexec) hreach, hrel₂, fun j hj => ?_, hsync⟩
          rw [hothers j hj]
          exact Function.update_of_ne hj ..

/-- The same from inside of a program. -/
lemma exists_synced_bind (code : ι → Pt → Prog Op Ans Pt) {op : Op} {k : Ans op → Prog Op Ans Pt}
    {q : Prog Op' Ans' (Ans op)} (hrel : R.rel st.shared t) (hp : st.task i = .call op k)
    (hpending : R.pending i op q t) :
    ∃ st₁, Tasks.Reaches code exec env st st₁ ∧ R.rel st₁.shared t ∧
      (∀ j, j ≠ i → st₁.task j = st.task j) ∧
      R.Synced i t (st₁.task i) (q.bind fun x => (k x).translate g) := by
  cases q with
  | call o k' =>
      refine ⟨st, .refl, hrel, fun _ _ => rfl, ?_⟩
      rw [hp]
      exact .call hpending
  | ret x =>
      obtain ⟨s₁, hexec, hrel₁⟩ := R.answered i op x _ _ hrel hpending
      obtain ⟨st₂, hreach, hrel₂, hothers, hsync⟩ := exists_synced code
        ⟨s₁, Function.update st.task i (k x)⟩ hrel₁ (Function.update_self ..)
      refine ⟨st₂, .head (.answer i hp hexec) hreach, hrel₂, fun j hj => ?_, hsync⟩
      rw [hothers j hj]
      exact Function.update_of_ne hj ..

/-- What the tasks are once one of them has been brought up to date. -/
lemma Sim.update {q : Prog Op' Ans' Pt} {st₁ : Tasks ι Op Ans σ Pt} (h : R.Sim st st')
    (hgrows : R.grows st'.shared t) (hrel : R.rel st₁.shared t)
    (hothers : ∀ j, j ≠ i → st₁.task j = st.task j) (hsync : R.Synced i t (st₁.task i) q) :
    R.Sim st₁ ⟨t, Function.update st'.task i q⟩ := by
  refine ⟨hrel, fun j => ?_⟩
  by_cases hj : j = i
  · subst hj
    dsimp only
    rw [Function.update_self]
    exact hsync
  · dsimp only
    rw [Function.update_of_ne hj, hothers j hj]
    exact (h.synced j).mono hgrows

/-- **One step below** is some steps above. -/
lemma Sim.step (hgrows : ∀ t, R.grows t t) (h : R.Sim st st')
    (hs : Tasks.Step (fun i pt => (code i pt).translate g) exec' env' st' st'') :
    ∃ st₁, Tasks.Reaches code exec env st st₁ ∧ R.Sim st₁ st'' := by
  cases hs with
  | @answer i o kq htask y t hx =>
      have hgrow := R.exec_grows _ _ _ _ _ hx
      have hsync := h.synced i
      rw [htask] at hsync
      generalize hp : st.task i = p at hsync
      cases hsync with
      | @call op k _ k' hpending =>
          rcases R.step i op o k' _ _ y t h.rel hpending hx with
            ⟨hrel, hpending'⟩ | ⟨x, s₁, hret, hexec, hrel⟩
          · obtain ⟨st₁, hreach, hrel₁, hothers, hsync⟩ :=
              exists_synced_bind code hrel hp hpending'
            exact ⟨st₁, hreach, h.update hgrow hrel₁ hothers hsync⟩
          · obtain ⟨st₁, hreach, hrel₁, hothers, hsync⟩ := exists_synced (i := i) code
              ⟨s₁, Function.update st.task i (k x)⟩ hrel (Function.update_self ..)
            refine ⟨st₁, .head (.answer i hp hexec) hreach,
              h.update hgrow hrel₁ (fun j hj => ?_) ?_⟩
            · rw [hothers j hj]
              exact Function.update_of_ne hj ..
            · dsimp only
              rw [hret]
              exact hsync
  | @jump i pt htask =>
      have hsync := h.synced i
      rw [htask] at hsync
      generalize hp : st.task i = p at hsync
      cases hsync with
      | ret =>
          obtain ⟨st₁, hreach, hrel₁, hothers, hsync⟩ := exists_synced (i := i) code
            ⟨st.shared, Function.update st.task i (code i pt)⟩ h.rel
            (Function.update_self ..)
          refine ⟨st₁, .head (.jump i hp) hreach,
            h.update (hgrows _) hrel₁ (fun j hj => ?_) hsync⟩
          rw [hothers j hj]
          exact Function.update_of_ne hj ..
  | @env t he =>
      have hsynced : ∀ i, R.Synced i t (st.task i) (st'.task i) := fun i =>
        (h.synced i).mono (R.env_grows _ _ he)
      rcases R.step_env _ _ _ h.rel he with hrel | ⟨s₁, hs, hrel⟩
      · exact ⟨st, .refl, hrel, hsynced⟩
      · exact ⟨⟨s₁, st.task⟩, .single (.env hs), hrel, hsynced⟩

/-- **Every run below is one above.** -/
theorem refines (hgrows : ∀ t, R.grows t t) (h : R.Sim st st')
    (hr : Tasks.Reaches (fun i pt => (code i pt).translate g) exec' env' st' st'') :
    ∃ st₁, Tasks.Reaches code exec env st st₁ ∧ R.Sim st₁ st'' := by
  induction hr with
  | refl => exact ⟨st, .refl, h⟩
  | tail _ hs ih =>
      obtain ⟨st₁, hreach, hsim⟩ := ih
      obtain ⟨st₂, hreach', hsim'⟩ := hsim.step hgrows hs
      exact ⟨st₂, hreach.trans hreach', hsim'⟩

end Atomic

end Concurrent
