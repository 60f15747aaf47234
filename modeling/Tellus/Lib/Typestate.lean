import Mathlib.Tactic
import Tellus.Lib.Runs
import Tellus.Lib.Tasks
import Tellus.Lib.Traces

/-!
Programs which follow an automaton, and tasks which are simulated by one.

A transition system may say where each of its parties is without saying what code gets them there.
The code does if every one of its calls moves its party on as the automaton has it, whatever the
answer.  This is checked of one program at a time (`Prog.Follows`), from the state the program is
begun in, and the rules are those of a weakest precondition.  Steps of the automaton without a call
(`silent`) are taken where they are needed.

* `Typestate`: an automaton over the calls of a program.
* `Prog.Follows`: a program and its place in the automaton.
* `Simulated`: what has to be shown of the calls, one by one.
* `Simulated.run`: every run of tasks which follow their automata is one of the transition system.
-/

namespace Concurrent

universe u v w

/-! ### Automata -/

/-- An automaton over the calls of a program. -/
structure Typestate (Op : Type u) (Ans : Op → Type v) (Q : Type*) where
  /-- A step without a call. -/
  silent : Q → Q → Prop
  /-- What a call may be answered at all. -/
  possible : (op : Op) → Ans op → Prop
  /-- Where a call leads to which is answered so. -/
  next : Q → (op : Op) → Ans op → Q → Prop

variable {Op : Type u} {Ans : Op → Type v} {Q : Type*}

/-- Any number of silent steps. -/
abbrev Typestate.Passes (T : Typestate Op Ans Q) : Q → Q → Prop := Relation.ReflTransGen T.silent

namespace Prog

variable {α β : Type w} (T : Typestate Op Ans Q)

/-- Begun in a state of the automaton, the program makes only calls which lead on from where it is,
and returns what meets `post` where it has got to. -/
def Follows (post : Q → α → Prop) : Prog Op Ans α → Q → Prop
  | ret a, q => ∃ q', T.Passes q q' ∧ post q' a
  | call op k, q => ∃ q', T.Passes q q' ∧
      ∀ x, T.possible op x → ∃ r, T.next q' op x r ∧ (k x).Follows post r

namespace Follows

variable {T} {post : Q → α → Prop} {p : Prog Op Ans α} {q q' r : Q}

/-- The rule for a program which has returned. -/
lemma ret_of {a : α} (h : post q a) : (ret a).Follows T post q := ⟨q, .refl, h⟩

/-- The rule for a call. -/
lemma call_of {op : Op} {k : Ans op → Prog Op Ans α}
    (h : ∀ x, T.possible op x → ∃ r, T.next q op x r ∧ (k x).Follows T post r) :
    (call op k).Follows T post q := ⟨q, .refl, h⟩

/-- Silent steps may come first. -/
lemma pass (hq : T.Passes q q') (h : p.Follows T post q') : p.Follows T post q := by
  cases p with
  | ret a =>
      obtain ⟨r, hr, ha⟩ := h
      exact ⟨r, hq.trans hr, ha⟩
  | call op k =>
      obtain ⟨r, hr, hk⟩ := h
      exact ⟨r, hq.trans hr, hk⟩

/-- One silent step. -/
lemma step (hq : T.silent q q') (h : p.Follows T post q') : p.Follows T post q :=
  h.pass (.single hq)

/-- The rule of consequence; silent steps may come last. -/
lemma after {post' : Q → α → Prop} (h : p.Follows T post q)
    (hpost : ∀ r a, post r a → ∃ r', T.Passes r r' ∧ post' r' a) : p.Follows T post' q := by
  induction p generalizing q with
  | ret a =>
      obtain ⟨r, hr, ha⟩ := h
      obtain ⟨r', hr', ha'⟩ := hpost r a ha
      exact ⟨r', hr.trans hr', ha'⟩
  | call op k ih =>
      obtain ⟨r, hr, hk⟩ := h
      refine ⟨r, hr, fun x hx => ?_⟩
      obtain ⟨t, ht, hp⟩ := hk x hx
      exact ⟨t, ht, ih x hp⟩

lemma mono {post' : Q → α → Prop} (h : p.Follows T post q) (hpost : ∀ r a, post r a → post' r a) :
    p.Follows T post' q :=
  h.after fun r a ha => ⟨r, .refl, hpost r a ha⟩

/-- Sequencing. -/
lemma bind {f : α → Prog Op Ans β} {post : Q → β → Prop}
    (h : p.Follows T (fun r a => (f a).Follows T post r) q) : (p.bind f).Follows T post q := by
  induction p generalizing q with
  | ret a =>
      obtain ⟨r, hr, ha⟩ := h
      exact ha.pass hr
  | call op k ih =>
      obtain ⟨r, hr, hk⟩ := h
      refine ⟨r, hr, fun x hx => ?_⟩
      obtain ⟨t, ht, hp⟩ := hk x hx
      exact ⟨t, ht, ih x hp⟩

/-- A state may be left for one where at least as much leads on. -/
lemma wake {q q' : Q} (h : p.Follows T post q) (hstuck : ∀ r, ¬T.silent q r)
    (hnext : ∀ op x r, T.next q op x r → T.next q' op x r) (hpost : ∀ a, post q a → post q' a) :
    p.Follows T post q' := by
  have hself : ∀ r, T.Passes q r → r = q := by
    intro r hr
    induction hr with
    | refl => rfl
    | tail _ hs ih => exact absurd (ih ▸ hs) (hstuck _)
  cases p with
  | ret a =>
      obtain ⟨r, hr, ha⟩ := h
      obtain rfl := hself r hr
      exact .ret_of (hpost a ha)
  | call op k =>
      obtain ⟨r, hr, hk⟩ := h
      obtain rfl := hself r hr
      refine .call_of fun x hx => ?_
      obtain ⟨t, ht, hp⟩ := hk x hx
      exact ⟨t, hnext op x t ht, hp⟩

end Follows

end Prog

/-! ### Simulation -/

variable {ι σ S L : Type*} {Pt : Type w}

/-- A transition system whose parties go where their automata say, call by call. -/
structure Simulated (T : ι → Typestate Op Ans Q)
    (exec : ι → σ → (op : Op) → Ans op → σ → Prop) (env : σ → σ → Prop)
    (up : S → L → S → Prop) [DecidableEq ι] where
  /-- What the tasks share. -/
  shared : S → σ
  place : S → ι → Q
  /-- How one party may move another one. -/
  wakes : ι → Q → Q → Prop
  stuck : ∀ i q q', wakes i q q' → ∀ r, ¬(T i).silent q r
  awake : ∀ i q q', wakes i q q' → ∀ op x r, (T i).next q op x r → (T i).next q' op x r
  silent : ∀ i s q, (T i).silent (place s i) q →
    ∃ l s', up s l s' ∧ shared s' = shared s ∧ place s' = Function.update (place s) i q
  possible : ∀ i s op x s', exec i s op x s' → (T i).possible op x
  answered : ∀ i s op x q t', (T i).next (place s i) op x q → exec i (shared s) op x t' →
    ∃ tr s', Run up s tr s' ∧ shared s' = t' ∧ place s' i = q ∧
      ∀ j, j ≠ i → place s' j = place s j ∨ wakes j (place s j) (place s' j)
  surrounded : ∀ s t', env (shared s) t' → ∃ l s', up s l s' ∧ shared s' = t' ∧
    ∀ j, place s' j = place s j ∨ wakes j (place s j) (place s' j)

namespace Simulated

variable [DecidableEq ι] {T : ι → Typestate Op Ans Q}
  {exec : ι → σ → (op : Op) → Ans op → σ → Prop} {env : σ → σ → Prop} {up : S → L → S → Prop}
  (R : Simulated T exec env up) {code : ι → Pt → Prog Op Ans Pt} {post : ι → Q → Pt → Prop}

/-- A state of the transition system which the tasks are in. -/
structure Matches (post : ι → Q → Pt → Prop) (st : Tasks ι Op Ans σ Pt) (s : S) : Prop where
  shared : st.shared = R.shared s
  follows : ∀ i, (st.task i).Follows (T i) (post i) (R.place s i)

variable {R} {st st' : Tasks ι Op Ans σ Pt} {s s' : S}

/-- Silent steps are runs. -/
lemma passes {i : ι} {q : Q} (h : (T i).Passes (R.place s i) q) :
    ∃ tr s', Run up s tr s' ∧ R.shared s' = R.shared s ∧
      R.place s' = Function.update (R.place s) i q := by
  induction h with
  | refl => exact ⟨[], s, .nil, rfl, (Function.update_eq_self ..).symm⟩
  | @tail q r _ hs ih =>
      obtain ⟨tr, t, hrun, hshared, hplace⟩ := ih
      have hq : R.place t i = q := by rw [hplace, Function.update_self]
      obtain ⟨l, t', hstep, hshared', hplace'⟩ := R.silent i t r (hq ▸ hs)
      refine ⟨_, t', hrun.snoc hstep, hshared'.trans hshared, ?_⟩
      rw [hplace', hplace, Function.update_idem]

/-- The other tasks, once one has moved. -/
lemma Matches.others (hwakes : ∀ i q q', R.wakes i q q' → ∀ pt, post i q pt → post i q' pt)
    {j : ι} {p : Prog Op Ans Pt} (h : p.Follows (T j) (post j) (R.place s j))
    (hj : R.place s' j = R.place s j ∨ R.wakes j (R.place s j) (R.place s' j)) :
    p.Follows (T j) (post j) (R.place s' j) := by
  rcases hj with hj | hj
  · rw [hj]
    exact h
  · exact h.wake (R.stuck j _ _ hj) (R.awake j _ _ hj) (hwakes j _ _ hj)

/-- **One step of the tasks** is a run of the transition system. -/
lemma Matches.step (hcode : ∀ i q pt, post i q pt → (code i pt).Follows (T i) (post i) q)
    (hwakes : ∀ i q q', R.wakes i q q' → ∀ pt, post i q pt → post i q' pt)
    (h : R.Matches post st s) (hs : Tasks.Step code exec env st st') :
    ∃ tr s', Run up s tr s' ∧ R.Matches post st' s' := by
  cases hs with
  | @answer i op k hi x t' hx =>
      have hfollows := h.follows i
      rw [hi] at hfollows
      obtain ⟨q, hq, hk⟩ := hfollows
      obtain ⟨r, hr, hp⟩ := hk x (R.possible i _ _ _ _ hx)
      obtain ⟨tr, s₁, hrun, hshared, hplace⟩ := passes hq
      have hplace' : R.place s₁ i = q := by rw [hplace, Function.update_self]
      obtain ⟨tr', s₂, hrun', hshared', hself, hothers⟩ := R.answered i s₁ op x r t' (hplace' ▸ hr)
        (by rw [hshared, ← h.shared]; exact hx)
      refine ⟨_, s₂, hrun.trans hrun', hshared'.symm, fun j => ?_⟩
      dsimp only
      by_cases hj : j = i
      · subst hj
        rw [Function.update_self, hself]
        exact hp
      · have hsame : R.place s₁ j = R.place s j := by rw [hplace, Function.update_of_ne hj]
        rw [Function.update_of_ne hj]
        refine Matches.others (s := s₁) hwakes ?_ (hothers j hj)
        rw [hsame]
        exact h.follows j
  | @jump i pt hi =>
      have hfollows := h.follows i
      rw [hi] at hfollows
      obtain ⟨q, hq, hpt⟩ := hfollows
      refine ⟨[], s, .nil, h.shared, fun j => ?_⟩
      dsimp only
      by_cases hj : j = i
      · subst hj
        rw [Function.update_self]
        exact (hcode j q pt hpt).pass hq
      · rw [Function.update_of_ne hj]
        exact h.follows j
  | env he =>
      obtain ⟨l, s₁, hstep, hshared, hothers⟩ := R.surrounded s _ (h.shared ▸ he)
      exact ⟨_, s₁, Run.nil.snoc hstep, hshared.symm,
        fun j => Matches.others hwakes (h.follows j) (hothers j)⟩

/-- A party whose task has come to a point can be taken to its place. -/
lemma Matches.arrives {i : ι} {pt : Pt} (h : R.Matches post st s) (hi : st.task i = .ret pt) :
    ∃ tr s', Run up s tr s' ∧ R.shared s' = st.shared ∧ post i (R.place s' i) pt := by
  have hfollows := h.follows i
  rw [hi] at hfollows
  obtain ⟨q, hq, hpt⟩ := hfollows
  obtain ⟨tr, s', hrun, hshared, hplace⟩ := passes hq
  refine ⟨tr, s', hrun, hshared.trans h.shared.symm, ?_⟩
  rw [hplace, Function.update_self]
  exact hpt

/-- **Simulation**: tasks whose code follows their automata do what the transition system does. -/
theorem run (hcode : ∀ i q pt, post i q pt → (code i pt).Follows (T i) (post i) q)
    (hwakes : ∀ i q q', R.wakes i q q' → ∀ pt, post i q pt → post i q' pt)
    (h : R.Matches post st s) (hr : Tasks.Reaches code exec env st st') :
    ∃ tr s', Run up s tr s' ∧ R.Matches post st' s' := by
  induction hr with
  | refl => exact ⟨[], s, .nil, h⟩
  | tail _ hs ih =>
      obtain ⟨tr, s₁, hrun, hmatches⟩ := ih
      obtain ⟨tr', s₂, hrun', hmatches'⟩ := hmatches.step hcode hwakes hs
      exact ⟨_, s₂, hrun.trans hrun', hmatches'⟩

end Simulated

end Concurrent
