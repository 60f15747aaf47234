import Mathlib.Tactic
import Tellus.Lib.History

/-!
What a program has done by the time it returns, and programs with their calls replaced.

* `Prog.Yields`: a program returns, having made the calls of a history.  `yields_bind` cuts
  the history of two programs run one after the other, `Yields.unique` says that the answers
  determine the result.
* `Prog.Ends`: what every call and every result of a program meets.
* `Prog.translate`: every call replaced by a program of other calls.
* `Safe.owing`: a program which does not make the calls before which more is owed stays safe.
* `Contract.comap`, `Safe.comap`: a contract which sees the state through a function.
-/

namespace Concurrent

universe u v w

namespace Prog

variable {Op : Type u} {Ans : Op → Type v} {α β : Type w}

/-- Answered as in the history, the program makes its calls and returns `a`. -/
inductive Yields : Prog Op Ans α → History Op Ans → α → Prop
  | ret (a : α) : Yields (.ret a) [] a
  | call {op : Op} {k : Ans op → Prog Op Ans α} (x : Ans op) {tr : History Op Ans} {a : α}
      (h : Yields (k x) tr a) : Yields (.call op k) (⟨op, x⟩ :: tr) a

variable {p : Prog Op Ans α} {f : α → Prog Op Ans β} {tr : History Op Ans} {a b : α} {c : β}

@[simp] lemma yields_ret : (ret a : Prog Op Ans α).Yields tr b ↔ tr = [] ∧ b = a := by
  constructor
  · intro h
    cases h
    exact ⟨rfl, rfl⟩
  · rintro ⟨rfl, rfl⟩
    exact .ret _

@[simp] lemma yields_call {op : Op} {k : Ans op → Prog Op Ans α} :
    (call op k).Yields tr a ↔ ∃ x tr', tr = ⟨op, x⟩ :: tr' ∧ (k x).Yields tr' a := by
  constructor
  · intro h
    cases h with
    | call x h => exact ⟨x, _, rfl, h⟩
  · rintro ⟨x, tr', rfl, h⟩
    exact .call x h

/-- The history of two programs run one after the other. -/
lemma yields_bind : (p.bind f).Yields tr c ↔
    ∃ tr₁ tr₂ a, tr = tr₁ ++ tr₂ ∧ p.Yields tr₁ a ∧ (f a).Yields tr₂ c := by
  induction p generalizing tr with
  | ret a => simp
  | call op k ih =>
      simp only [call_bind, yields_call, ih]
      constructor
      · rintro ⟨x, -, rfl, tr₁, tr₂, a, rfl, h₁, h₂⟩
        exact ⟨⟨op, x⟩ :: tr₁, tr₂, a, rfl, ⟨x, tr₁, rfl, h₁⟩, h₂⟩
      · rintro ⟨-, tr₂, a, rfl, ⟨x, tr₁, rfl, h₁⟩, h₂⟩
        exact ⟨x, tr₁ ++ tr₂, rfl, tr₁, tr₂, a, rfl, h₁, h₂⟩

/-- The answers determine the result. -/
lemma Yields.unique (h : p.Yields tr a) (h' : p.Yields tr b) : a = b := by
  induction h with
  | ret a =>
      cases h'
      rfl
  | call x _ ih =>
      cases h' with
      | call _ h' => exact ih h'

lemma bind_assoc {γ : Type w} (p : Prog Op Ans α) (f : α → Prog Op Ans β)
    (f' : β → Prog Op Ans γ) : (p.bind f).bind f' = p.bind fun a => (f a).bind f' := by
  induction p with
  | ret a => rfl
  | call op k ih => exact congrArg (call op) (funext ih)

/-! ### All runs -/

/-- The program calls what `P` allows only and, answered as `allowed` says, returns what meets
`Q`. -/
def Ends (P : Op → Prop) (allowed : (op : Op) → Ans op → Prop) (Q : α → Prop) :
    Prog Op Ans α → Prop
  | ret a => Q a
  | call op k => P op ∧ ∀ x, allowed op x → (k x).Ends P allowed Q

lemma Ends.bind {P : Op → Prop} {allowed : (op : Op) → Ans op → Prop} {Q : α → Prop}
    {R : β → Prop} (h : p.Ends P allowed Q) (hf : ∀ a, Q a → (f a).Ends P allowed R) :
    (p.bind f).Ends P allowed R := by
  induction p with
  | ret a => exact hf a h
  | call op k ih => exact ⟨h.1, fun x hx => ih x (h.2 x hx)⟩

lemma Ends.mono {P P' : Op → Prop} {allowed : (op : Op) → Ans op → Prop} {Q : α → Prop}
    (h : p.Ends P allowed Q) (hP : ∀ op, P op → P' op) : p.Ends P' allowed Q := by
  induction p with
  | ret a => exact h
  | call op k ih => exact ⟨hP op h.1, fun x hx => ih x (h.2 x hx)⟩

/-- A history with allowed answers only leads to such a result. -/
lemma Ends.yields {P : Op → Prop} {allowed : (op : Op) → Ans op → Prop} {Q : α → Prop}
    (h : p.Ends P allowed Q) (hy : p.Yields tr a) (htr : ∀ c ∈ tr, allowed c.1 c.2) : Q a := by
  induction hy with
  | ret a => exact h
  | call x _ ih =>
      refine ih (h.2 x (htr ⟨_, x⟩ (List.mem_cons_self ..))) fun c hc => ?_
      exact htr c (List.mem_cons_of_mem _ hc)

/-! ### Translation -/

section Translate

variable {Op' : Type*} {Ans : Op → Type w} {Ans' : Op' → Type*} {α β : Type w}

/-- The program with every call replaced. -/
def translate (g : (op : Op) → Prog Op' Ans' (Ans op)) : Prog Op Ans α → Prog Op' Ans' α
  | ret a => ret a
  | call op k => (g op).bind fun x => (k x).translate g

variable {g : (op : Op) → Prog Op' Ans' (Ans op)}

@[simp] lemma translate_ret (a : α) : (ret a : Prog Op Ans α).translate g = ret a := rfl

@[simp] lemma translate_call {op : Op} (k : Ans op → Prog Op Ans α) :
    (call op k).translate g = (g op).bind fun x => (k x).translate g := rfl

lemma translate_bind (p : Prog Op Ans α) (f : α → Prog Op Ans β) :
    (p.bind f).translate g = (p.translate g).bind fun a => (f a).translate g := by
  induction p with
  | ret a => rfl
  | call op k ih =>
      simp only [call_bind, translate_call, ih]
      rw [bind_assoc]

end Translate

end Prog

/-! ### Owing more -/

section Owing

variable {ι : Type*} {Op : Type u} {Ans : Op → Type v} {σ : Type*} {α : Type w}

/-- The contract with other obligations. -/
def Contract.owing (C : Contract ι Op Ans σ) (pre : ι → σ → Op → Prop) : Contract ι Op Ans σ :=
  { C with pre }

variable {C : Contract ι Op Ans σ} {pre : ι → σ → Op → Prop} {i : ι} {s : σ}
  {post : σ → α → Prop}

/-- A program stays safe if nothing more is owed before the calls it makes. -/
lemma Safe.owing {P : Op → Prop} {p : Prog Op Ans α} (h : Safe C i post p s)
    (hp : p.Ends P (fun _ _ => True) fun _ => True)
    (hpre : ∀ s op, P op → C.pre i s op → pre i s op) : Safe (C.owing pre) i post p s := by
  induction p generalizing s with
  | ret a => exact h
  | call op k ih =>
      intro t ht hi
      obtain ⟨howes, hk⟩ := h t ht hi
      exact ⟨hpre t op hp.1 howes, fun x t' hx hi' => ih x (hk x t' hx hi') (hp.2 x trivial)⟩

/-- Interrupting a program adds no calls but the poll. -/
lemma Prog.Ends.interruptible {P : Op → Prop} {poll : Op} {asks : Ans poll → Bool}
    {p : Prog Op Ans α} (h : p.Ends P (fun _ _ => True) fun _ => True) (hpoll : P poll) :
    (p.interruptible poll asks).Ends P (fun _ _ => True) fun _ => True := by
  induction p with
  | ret a =>
      refine ⟨hpoll, fun x _ => ?_⟩
      dsimp only
      split <;> trivial
  | call op k ih =>
      refine ⟨hpoll, fun x _ => ?_⟩
      dsimp only
      split
      · trivial
      · exact ⟨h.1, fun y _ => ih y (h.2 y trivial)⟩

end Owing

/-! ### Seen from elsewhere -/

section Comap

variable {ι : Type*} {Op : Type u} {Ans : Op → Type v} {σ τ : Type*} {α : Type w}

/-- The contract of tasks which work on a `τ` of which the contract sees `f` only. -/
def Contract.comap (C : Contract ι Op Ans σ) (f : τ → σ)
    (exec : ι → τ → (op : Op) → Ans op → τ → Prop) : Contract ι Op Ans τ where
  exec := exec
  pre := fun i t => C.pre i (f t)
  inv := fun t => C.inv (f t)
  rely := fun i t t' => C.rely i (f t) (f t')
  rely_refl := fun i t => C.rely_refl i (f t)
  rely_trans := fun i _ _ _ h h' => C.rely_trans i h h'

variable {C : Contract ι Op Ans σ} {f : τ → σ} {exec : ι → τ → (op : Op) → Ans op → τ → Prop}
  {i : ι} {post : σ → α → Prop}

/-- A program is as safe there as here, if what it calls has the effect there that it has
here. -/
lemma Safe.comap {P : Op → Prop} {p : Prog Op Ans α} {t : τ} (h : Safe C i post p (f t))
    (hp : p.Ends P (fun _ _ => True) fun _ => True)
    (hexec : ∀ t op x t', P op → C.pre i (f t) op → exec i t op x t' →
      C.exec i (f t) op x (f t')) :
    Safe (C.comap f exec) i (fun t => post (f t)) p t := by
  induction p generalizing t with
  | ret a => exact fun t' ht hi => h (f t') ht hi
  | call op k ih =>
      intro t' ht hi
      obtain ⟨hpre, hk⟩ := h (f t') ht hi
      refine ⟨hpre, fun x t'' hx hi' => ih x ?_ (hp.2 x trivial)⟩
      exact hk x (f t'') (hexec t' op x t'' hp.1 hpre hx) hi'

end Comap

end Concurrent
