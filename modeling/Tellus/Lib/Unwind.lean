import Mathlib.Tactic
import Tellus.Lib.Traces

/-!
Programs which may unwind.

Such a program ends with `none` once something has panicked outside of every catch; what comes
after it is not run.

* `Unwinding`: the programs, and their sequencing.
* `Unwinding.Contained`: a program does not unwind, given what it may call and how that is
  answered; one rule for each way to build a program.
-/

namespace Concurrent

universe u v w

variable {Op : Type u} {Ans : Op → Type v} {α β : Type w}

/-- A program which may unwind. -/
def Unwinding (Op : Type u) (Ans : Op → Type v) (α : Type w) := Prog Op Ans (Option α)

namespace Unwinding

instance : Monad (Unwinding Op Ans) where
  pure a := Prog.ret (some a)
  bind p f := Prog.bind p fun
    | none => .ret none
    | some a => f a

/-- Unwind. -/
def unwind : Unwinding Op Ans α := Prog.ret none

/-- A program which does not unwind. -/
def lift (p : Prog Op Ans α) : Unwinding Op Ans α := p.bind fun a => .ret (some a)

/-- What is left of a task which has unwound is nothing. -/
def run (p : Unwinding Op Ans α) : Prog Op Ans (Option α) := p

/-- The program calls what `P` allows and, answered as `allowed` says, does not unwind. -/
def Contained (P : Op → Prop) (allowed : (op : Op) → Ans op → Prop) (p : Unwinding Op Ans α) :
    Prop :=
  p.run.Ends P allowed fun r => r.isSome = true

variable {P : Op → Prop} {allowed : (op : Op) → Ans op → Prop} {p : Unwinding Op Ans α}
  {f : α → Unwinding Op Ans β}

lemma contained_pure (a : α) : Contained P allowed (pure a : Unwinding Op Ans α) := rfl

lemma Contained.bind (h : Contained P allowed p) (hf : ∀ a, Contained P allowed (f a)) :
    Contained P allowed (p >>= f) := by
  refine Prog.Ends.bind h fun r hr => ?_
  cases r with
  | none => cases hr
  | some a => exact hf a

lemma contained_lift {q : Prog Op Ans α} {Q : α → Prop} (h : q.Ends P allowed Q) :
    Contained P allowed (lift q) :=
  Prog.Ends.bind h fun _ _ => rfl

end Unwinding

end Concurrent
