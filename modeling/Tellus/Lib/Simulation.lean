import Mathlib.Tactic
import Tellus.Lib.Tasks

/-!
Tasks read as those of a coarser model.

Both models have the same shared state.  A call of the finer one is a call of the coarser one or
none at all (`reads`), and in between the coarser one makes calls which leave the shared state
alone (`idle`), or goes on at a point.  So the two need not go through their programs at the same
pace, nor be cut into the same blocks.

* `Idles`: a coarser program gets on without the shared state being touched.
* `Follows`: a finer program is matched by a coarser one, call by call and down to its result.
* `Follows.bind`: the rule for two programs run one after the other.
* `Mirrors.run`: every run of the finer tasks is one of the coarser ones.
-/

namespace Concurrent

universe u v w w'

variable {ι σ : Type*} {Op : Type u} {Ans : Op → Type v} {Pt : Type w}
  {Op' : Type*} {Ans' : Op' → Type*} {Pt' α β : Type w'}

/-- A program gets on by idle calls and by going on at points. -/
inductive Idles (code : Pt → Prog Op Ans Pt) (idle : (op : Op) → Ans op → Prop) :
    Prog Op Ans Pt → Prog Op Ans Pt → Prop
  | refl (q : Prog Op Ans Pt) : Idles code idle q q
  | call {o : Op} {k : Ans o → Prog Op Ans Pt} (x : Ans o) {q : Prog Op Ans Pt}
      (hx : idle o x) (h : Idles code idle (k x) q) : Idles code idle (.call o k) q
  | jump {pt : Pt} {q : Prog Op Ans Pt} (h : Idles code idle (code pt) q) :
      Idles code idle (.ret pt) q

/-- How a call of the finer model is answered, the calls of the coarser one being answered as
`exec` says. -/
def Below (exec : ι → σ → (op : Op) → Ans op → σ → Prop)
    (reads : (op : Op') → Ans' op → Option ((op : Op) × Ans op)) (i : ι) (s : σ) (op : Op')
    (x : Ans' op) (s' : σ) : Prop :=
  match reads op x with
  | none => s' = s
  | some c => exec i s c.1 c.2 s'

/-- The finer program is matched by the coarser one, however its calls are answered, and its
result meets `Q` together with what is left of the other. -/
def Follows (code : Pt → Prog Op Ans Pt) (idle : (op : Op) → Ans op → Prop)
    (reads : (op : Op') → Ans' op → Option ((op : Op) × Ans op))
    (Q : α → Prog Op Ans Pt → Prop) : Prog Op' Ans' α → Prog Op Ans Pt → Prop
  | .ret a => Q a
  | .call op k => fun q => ∀ x,
      match reads op x with
      | none => ∃ q', Idles code idle q q' ∧ Follows code idle reads Q (k x) q'
      | some c => ∃ k', Idles code idle q (.call c.1 k') ∧
          Follows code idle reads Q (k x) (k' c.2)

variable {code : Pt → Prog Op Ans Pt} {idle : (op : Op) → Ans op → Prop}
  {reads : (op : Op') → Ans' op → Option ((op : Op) × Ans op)} {q q' : Prog Op Ans Pt}

lemma Follows.bind {p : Prog Op' Ans' α} {f : α → Prog Op' Ans' β}
    {Q : β → Prog Op Ans Pt → Prop}
    (h : Follows code idle reads (fun a => Follows code idle reads Q (f a)) p q) :
    Follows code idle reads Q (p.bind f) q := by
  induction p generalizing q with
  | ret a => exact h
  | call op k ih =>
      intro x
      have hx := h x
      cases hread : reads op x with
      | none =>
          rw [hread] at hx
          obtain ⟨q', hidles, hx⟩ := hx
          exact ⟨q', hidles, ih x hx⟩
      | some c =>
          rw [hread] at hx
          obtain ⟨k', hidles, hx⟩ := hx
          exact ⟨k', hidles, ih x hx⟩

/-! ### Tasks -/

variable [DecidableEq ι] {exec : ι → σ → (op : Op) → Ans op → σ → Prop} {env : σ → σ → Prop}
  {code' : ι → Pt' → Prog Op' Ans' Pt'} {R : Pt' → Prog Op Ans Pt → Prop}

/-- An idle task, among the others. -/
lemma Idles.reaches (hidle : ∀ i s op x, idle op x → exec i s op x s)
    {st : Tasks ι Op Ans σ Pt} {i : ι} (hq : st.task i = q) (h : Idles code idle q q') :
    Tasks.Reaches (fun _ => code) exec env st ⟨st.shared, Function.update st.task i q'⟩ := by
  induction h generalizing st with
  | refl q =>
      rw [← hq, Function.update_eq_self]
  | @call o k x _ hx _ ih =>
      have hrest := @ih ⟨st.shared, Function.update st.task i (k x)⟩ (Function.update_self ..)
      rw [Function.update_idem] at hrest
      exact .head (.answer i hq (hidle i _ _ x hx)) hrest
  | @jump pt _ _ ih =>
      have hrest := @ih ⟨st.shared, Function.update st.task i (code pt)⟩ (Function.update_self ..)
      rw [Function.update_idem] at hrest
      exact .head (.jump i hq) hrest

variable (code idle reads R) in
/-- The finer tasks, and the coarser ones which match them. -/
structure Mirrors (st' : Tasks ι Op' Ans' σ Pt') (st : Tasks ι Op Ans σ Pt) : Prop where
  shared : st.shared = st'.shared
  task : ∀ i, Follows code idle reads R (st'.task i) (st.task i)

variable {st : Tasks ι Op Ans σ Pt} {st' st'' : Tasks ι Op' Ans' σ Pt'}

/-- One task gets on in both. -/
lemma Mirrors.update (h : Mirrors code idle reads R st' st) {i : ι} {s : σ}
    {p : Prog Op' Ans' Pt'} (hp : Follows code idle reads R p q) :
    Mirrors code idle reads R ⟨s, Function.update st'.task i p⟩
      ⟨s, Function.update st.task i q⟩ := by
  refine ⟨rfl, fun j => ?_⟩
  dsimp only
  by_cases hj : j = i
  · subst hj
    rw [Function.update_self, Function.update_self]
    exact hp
  · rw [Function.update_of_ne hj, Function.update_of_ne hj]
    exact h.task j

/-- **One step** of the finer tasks is some steps of the coarser ones. -/
lemma Mirrors.step (hidle : ∀ i s op x, idle op x → exec i s op x s)
    (hcode : ∀ i pt q, R pt q → ∃ q', Idles code idle q q' ∧
      Follows code idle reads R (code' i pt) q')
    (h : Mirrors code idle reads R st' st)
    (hs : Tasks.Step code' (Below exec reads) env st' st'') :
    ∃ st₁, Tasks.Reaches (fun _ => code) exec env st st₁ ∧
      Mirrors code idle reads R st'' st₁ := by
  cases hs with
  | @answer i op k htask x s' hx =>
      have hfollows := h.task i
      rw [htask] at hfollows
      have hfollows := hfollows x
      unfold Below at hx
      cases hread : reads op x with
      | none =>
          rw [hread] at hfollows hx
          obtain ⟨q', hidles, hq'⟩ := hfollows
          obtain rfl : s' = st'.shared := hx
          refine ⟨_, hidles.reaches hidle rfl, ?_⟩
          rw [h.shared]
          exact h.update hq'
      | some c =>
          rw [hread] at hfollows hx
          obtain ⟨k', hidles, hq'⟩ := hfollows
          have hx : exec i st'.shared c.1 c.2 s' := hx
          rw [← h.shared] at hx
          refine ⟨_, (hidles.reaches hidle rfl).tail
            (.answer i (Function.update_self ..) hx), ?_⟩
          rw [Function.update_idem]
          exact h.update hq'
  | @jump i pt htask =>
      have hfollows := h.task i
      rw [htask] at hfollows
      obtain ⟨q', hidles, hq'⟩ := hcode i pt _ hfollows
      refine ⟨_, hidles.reaches hidle rfl, ?_⟩
      rw [h.shared]
      exact h.update hq'
  | @env s' he =>
      rw [← h.shared] at he
      exact ⟨⟨s', st.task⟩, .single (.env he), rfl, h.task⟩

/-- **Every run** of the finer tasks is one of the coarser ones. -/
theorem Mirrors.run (hidle : ∀ i s op x, idle op x → exec i s op x s)
    (hcode : ∀ i pt q, R pt q → ∃ q', Idles code idle q q' ∧
      Follows code idle reads R (code' i pt) q')
    (h : Mirrors code idle reads R st' st)
    (hr : Tasks.Reaches code' (Below exec reads) env st' st'') :
    ∃ st₁, Tasks.Reaches (fun _ => code) exec env st st₁ ∧
      Mirrors code idle reads R st'' st₁ := by
  induction hr with
  | refl => exact ⟨st, .refl, h⟩
  | tail _ hs ih =>
      obtain ⟨st₁, hreach, hmirrors⟩ := ih
      obtain ⟨st₂, hreach', hmirrors'⟩ := hmirrors.step hidle hcode hs
      exact ⟨st₂, hreach.trans hreach', hmirrors'⟩

end Concurrent
