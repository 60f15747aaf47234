import Mathlib.Tactic
import Tellus.Lib.Tasks

/-!
A task on its own, judged by the calls it has made.

The state such a task runs on is its history: every call with its answer, oldest first.  What
has to hold before a call is then a statement about the calls before it.  `allowed` says which
answers the surroundings may give, anything at all if it is always true; calls which are
`silent` leave no trace, so that asking whether to stop is one.

* `History.contract`: the contract of such a task.
* `History.safe_ret`, `History.safe_call`: safety at the two constructors of a program.
* `History.invariant`: safe blocks make every reachable state safe.
-/

namespace Concurrent

universe u v w

variable {Op : Type u} {Ans : Op → Type v} {α Pt : Type w}

/-- The calls of a task with their answers, oldest first. -/
abbrev History (Op : Type u) (Ans : Op → Type v) := List ((op : Op) × Ans op)

namespace History

/-- The history after one more call. -/
def record (silent : Op → Bool) (h : History Op Ans) (op : Op) (x : Ans op) : History Op Ans :=
  if silent op then h else h ++ [⟨op, x⟩]

/-- What a task owes before each of its calls, given the calls before it. -/
def contract (silent : Op → Bool) (allowed : History Op Ans → (op : Op) → Ans op → Prop)
    (pre : History Op Ans → Op → Prop) : Contract Unit Op Ans (History Op Ans) where
  exec := fun _ h op x h' => allowed h op x ∧ h' = h.record silent op x
  pre := fun _ => pre
  inv := fun _ => True
  rely := fun _ => Eq
  rely_refl := fun _ _ => rfl
  rely_trans := fun _ => Eq.trans

variable {silent : Op → Bool} {allowed : History Op Ans → (op : Op) → Ans op → Prop}
  {pre : History Op Ans → Op → Prop} {post : History Op Ans → α → Prop} {h : History Op Ans}

lemma safe_ret {a : α} :
    Safe (contract silent allowed pre) () post (.ret a) h ↔ post h a := by
  constructor
  · intro hs
    exact hs.result trivial
  · rintro hp _ rfl -
    exact hp

lemma safe_call {op : Op} {k : Ans op → Prog Op Ans α} :
    Safe (contract silent allowed pre) () post (.call op k) h ↔
      pre h op ∧ ∀ x, allowed h op x →
        Safe (contract silent allowed pre) () post (k x) (h.record silent op x) := by
  constructor
  · intro hs
    exact ⟨hs.pre trivial, fun x hx => hs.step trivial ⟨hx, rfl⟩ trivial⟩
  · rintro ⟨hp, hk⟩ _ rfl -
    refine ⟨hp, ?_⟩
    rintro x _ ⟨hx, rfl⟩ -
    exact hk x hx

/-- Asking whether to stop, when that is silent and may always be asked. -/
lemma safe_interruptible {poll : Op} {asks : Ans poll → Bool} {p : Prog Op Ans α}
    (hsilent : silent poll = true) (hpre : ∀ h, pre h poll)
    (hs : Safe (contract silent allowed pre) () post p h) :
    Safe (contract silent allowed pre) () (fun h r => ∀ a ∈ r, post h a)
      (p.interruptible poll asks) h := by
  refine hs.interruptible (fun h _ => hpre h) ?_
  rintro h x _ ⟨-, rfl⟩
  simp [contract, record, hsilent]

/-- **A task whose blocks are safe is safe wherever it gets to**, in particular before each of
its calls. -/
theorem invariant {code : Pt → Prog Op Ans Pt} {post : History Op Ans → Pt → Prop}
    {st : Tasks Unit Op Ans (History Op Ans) Pt} {pt : Pt}
    (hcode : ∀ h pt, post h pt → Safe (contract silent allowed pre) () post (code pt) h)
    (hstart : post h pt)
    (hr : Tasks.Reaches (fun _ => code) (contract silent allowed pre).exec (fun _ _ => False)
      (.solo h (.ret pt)) st) :
    Safe (contract silent allowed pre) () post (st.task ()) st.shared := by
  have hgood : Tasks.Good (contract silent allowed pre) (fun _ => post) (.solo h (.ret pt)) :=
    ⟨trivial, fun _ => safe_ret.mpr hstart⟩
  refine (Tasks.invariant (fun _ s pt _ => hcode s pt) ?_ ?_ hgood hr).2 ()
  · intro i s op x s' _ _ _
    exact ⟨trivial, fun j hj => absurd rfl hj⟩
  · rintro _ _ - ⟨⟩

end History

end Concurrent
