import Mathlib.Tactic

/-!
Programs which call out to their surroundings, and what it means for one of them to be safe
among others.

A program is a tree (`Prog`): it has returned, or it awaits the answer to one operation and
goes on according to that answer.  The tree says nothing about what an operation does, so
one program can be run against a store which never fails (`Prog.eval`), against answers
chosen by an adversary, and next to other programs which change the same state between any
two of its operations.

For the last of these a `Contract` fixes what every task may do to the shared state, what it
has to establish before an operation, and how far the others may have moved the state by
then.  `Safe` folds the contract over a program.  Its rules are

* `Safe.rely`: safety survives whatever the others do;
* `Safe.ret_of` and `Safe.call_of`: the two constructors, with a stable assertion;
* `Safe.bind`: sequencing;
* `Safe.interruptible`: giving up at any operation is safe.
-/

namespace Concurrent

universe u v w

/-- A program over the operations `Op`, an operation `op` being answered by an `Ans op`. -/
inductive Prog (Op : Type u) (Ans : Op → Type v) (α : Type w) where
  | ret (a : α)
  | call (op : Op) (k : Ans op → Prog Op Ans α)

namespace Prog

variable {Op : Type u} {Ans : Op → Type v} {α β : Type w}

/-- Run `p`, then `f` on its result. -/
def bind : Prog Op Ans α → (α → Prog Op Ans β) → Prog Op Ans β
  | ret a, f => f a
  | call op k, f => call op fun x => (k x).bind f

/-- The program of a single operation. -/
def op {Ans : Op → Type w} (o : Op) : Prog Op Ans (Ans o) := call o ret

instance : Monad (Prog Op Ans) where
  pure := ret
  bind := bind

@[simp] lemma pure_eq (a : α) : (pure a : Prog Op Ans α) = ret a := rfl

@[simp] lemma bind_eq (p : Prog Op Ans α) (f : α → Prog Op Ans β) : p >>= f = p.bind f := rfl

@[simp] lemma ret_bind (a : α) (f : α → Prog Op Ans β) : (ret a).bind f = f a := rfl

@[simp] lemma call_bind (o : Op) (k : Ans o → Prog Op Ans α) (f : α → Prog Op Ans β) :
    (call o k).bind f = call o fun x => (k x).bind f := rfl

@[simp] lemma op_bind {Ans : Op → Type w} (o : Op) (f : Ans o → Prog Op Ans β) :
    (op o).bind f = call o f := rfl

/-- The result of `p` when every operation is answered by `h`, `none` being no answer. -/
def eval (h : (o : Op) → Option (Ans o)) : Prog Op Ans α → Option α
  | ret a => some a
  | call o k =>
      match h o with
      | none => none
      | some x => (k x).eval h

@[simp] lemma eval_ret (h : (o : Op) → Option (Ans o)) (a : α) :
    (ret a : Prog Op Ans α).eval h = some a := rfl

/-- The result of `p` and the state it leaves behind when every operation is carried out on a
state of its own accord. -/
def runOn {σ : Type*} (exec : σ → (o : Op) → Ans o × σ) : Prog Op Ans α → σ → α × σ
  | ret a, s => (a, s)
  | call o k, s => (k (exec s o).1).runOn exec (exec s o).2

@[simp] lemma runOn_ret {σ : Type*} (exec : σ → (o : Op) → Ans o × σ) (a : α) (s : σ) :
    (ret a : Prog Op Ans α).runOn exec s = (a, s) := rfl

@[simp] lemma runOn_call {σ : Type*} (exec : σ → (o : Op) → Ans o × σ) (o : Op)
    (k : Ans o → Prog Op Ans α) (s : σ) :
    (call o k).runOn exec s = (k (exec s o).1).runOn exec (exec s o).2 := rfl

/-- Ask `poll` before every operation of `p` and before returning, and give up with `none`
once `asks` reads its answer as a request to do so. -/
def interruptible (poll : Op) (asks : Ans poll → Bool) :
    Prog Op Ans α → Prog Op Ans (Option α)
  | ret a => call poll fun b => if asks b then ret none else ret (some a)
  | call o k =>
      call poll fun b =>
        if asks b then ret none else call o fun x => interruptible poll asks (k x)

end Prog

/-! ### Contracts -/

/-- What holds between tasks which share a state `σ`: the operations' effects, what a task
must establish before an operation, and by how much the others may move the state under a
task's feet. -/
structure Contract (ι : Type*) (Op : Type u) (Ans : Op → Type v) (σ : Type*) where
  /-- `exec i s op x s'`: task `i`, calling `op` in `s`, may be answered `x` in `s'`. -/
  exec : ι → σ → (op : Op) → Ans op → σ → Prop
  /-- What task `i` owes before calling an operation. -/
  pre : ι → σ → Op → Prop
  /-- What everyone keeps of the shared state. -/
  inv : σ → Prop
  /-- How the others may change the shared state between two steps of task `i`. -/
  rely : ι → σ → σ → Prop
  rely_refl : ∀ i s, rely i s s
  rely_trans : ∀ i {s t r}, rely i s t → rely i t r → rely i s r

section Safe

variable {ι : Type*} {Op : Type u} {Ans : Op → Type v} {σ : Type*} {α β : Type w}
variable (C : Contract ι Op Ans σ) (i : ι)

/-- Run by task `i` from `s`, the program calls every operation in a state which meets the
operation's precondition and returns only results meeting `post`, whatever the others do
in between. -/
def Safe (post : σ → α → Prop) : Prog Op Ans α → σ → Prop
  | .ret a => fun s => ∀ s', C.rely i s s' → C.inv s' → post s' a
  | .call op k => fun s => ∀ s', C.rely i s s' → C.inv s' →
      C.pre i s' op ∧ ∀ x s'', C.exec i s' op x s'' → C.inv s'' → Safe post (k x) s''

/-- An assertion the others cannot invalidate. -/
def Stable (P : σ → Prop) : Prop :=
  ∀ ⦃s s'⦄, P s → C.rely i s s' → C.inv s' → P s'

variable {C i} {post : σ → α → Prop} {s s' : σ}

lemma Stable.and {P Q : σ → Prop} (hP : Stable C i P) (hQ : Stable C i Q) :
    Stable C i fun s => P s ∧ Q s :=
  fun _ _ h hr hi => ⟨hP h.1 hr hi, hQ h.2 hr hi⟩

/-- Safety survives the moves of the others. -/
lemma Safe.rely {p : Prog Op Ans α} (h : Safe C i post p s) (hr : C.rely i s s') :
    Safe C i post p s' := by
  cases p with
  | ret a => exact fun t ht hi => h t (C.rely_trans i hr ht) hi
  | call op k => exact fun t ht hi => h t (C.rely_trans i hr ht) hi

/-- A safe program which has returned meets its postcondition. -/
lemma Safe.result {a : α} (h : Safe C i post (.ret a) s) (hi : C.inv s) : post s a :=
  h s (C.rely_refl i s) hi

/-- A safe program calls an operation only when it may. -/
lemma Safe.pre {op : Op} {k : Ans op → Prog Op Ans α} (h : Safe C i post (.call op k) s)
    (hi : C.inv s) : C.pre i s op :=
  (h s (C.rely_refl i s) hi).1

/-- A safe program is safe after any answer. -/
lemma Safe.step {op : Op} {k : Ans op → Prog Op Ans α} (h : Safe C i post (.call op k) s)
    (hi : C.inv s) {x : Ans op} (hx : C.exec i s op x s') (hi' : C.inv s') :
    Safe C i post (k x) s' :=
  (h s (C.rely_refl i s) hi).2 x s' hx hi'

/-- Returning, from a stable assertion. -/
lemma Safe.ret_of {P : σ → Prop} (hP : Stable C i P) {a : α} (hs : P s)
    (h : ∀ t, C.inv t → P t → post t a) : Safe C i post (.ret a) s :=
  fun t ht hi => h t hi (hP hs ht hi)

/-- Calling an operation, from a stable assertion: it is enough to look at one state in which
the assertion holds. -/
lemma Safe.call_of {P : σ → Prop} (hP : Stable C i P) {op : Op}
    {k : Ans op → Prog Op Ans α} (hs : P s)
    (h : ∀ t, C.inv t → P t → C.pre i t op ∧
      ∀ x t', C.exec i t op x t' → C.inv t' → Safe C i post (k x) t') :
    Safe C i post (.call op k) s :=
  fun t ht hi => h t hi (hP hs ht hi)

/-- Sequencing: the second program starts from what the first one establishes. -/
lemma Safe.bind {p : Prog Op Ans α} {f : α → Prog Op Ans β} {post' : σ → β → Prop}
    (h : Safe C i post p s)
    (hf : ∀ t a, C.inv t → post t a → Safe C i post' (f a) t) :
    Safe C i post' (p.bind f) s := by
  induction p generalizing s with
  | ret a =>
      -- the others may move on once more before `f` takes its first step
      have key : ∀ t, C.rely i s t → C.inv t → Safe C i post' (f a) t :=
        fun t ht hi => hf t a hi (h t ht hi)
      show Safe C i post' (f a) s
      cases hfa : f a with
      | ret b =>
          intro t ht hi
          have := key t ht hi
          rw [hfa] at this
          exact this.result hi
      | call op k =>
          intro t ht hi
          have := key t ht hi
          rw [hfa] at this
          exact ⟨this.pre hi, fun x t' hx hi' => this.step hi hx hi'⟩
  | call op k ih =>
      intro t ht hi
      obtain ⟨hpre, hk⟩ := h t ht hi
      exact ⟨hpre, fun x t' hx hi' => ih x (hk x t' hx hi')⟩

/-- A program may be interrupted before any of its operations, provided that asking whether
to stop costs nothing. -/
lemma Safe.interruptible {poll : Op} {asks : Ans poll → Bool}
    (hpre : ∀ s, C.inv s → C.pre i s poll)
    (hpoll : ∀ s x s', C.exec i s poll x s' → C.rely i s s')
    {p : Prog Op Ans α} (h : Safe C i post p s) :
    Safe C i (fun s r => ∀ a ∈ r, post s a) (p.interruptible poll asks) s := by
  induction p generalizing s with
  | ret a =>
      intro t ht hi
      refine ⟨hpre t hi, fun x t' hx hi' => ?_⟩
      dsimp only
      split
      · intro _ _ _ a ha
        cases ha
      · rintro t'' ht'' hi'' b hb
        cases hb
        exact h t'' (C.rely_trans i ht (C.rely_trans i (hpoll t x t' hx) ht'')) hi''
  | call op k ih =>
      intro t ht hi
      refine ⟨hpre t hi, fun x t' hx hi' => ?_⟩
      dsimp only
      split
      · intro _ _ _ a ha
        cases ha
      · intro t'' ht'' hi''
        obtain ⟨hp, hk⟩ :=
          h t'' (C.rely_trans i ht (C.rely_trans i (hpoll t x t' hx) ht'')) hi''
        exact ⟨hp, fun y u hy hu => ih y (hk y u hy hu)⟩

end Safe

end Concurrent
