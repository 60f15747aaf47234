import Mathlib.Tactic

/-!
What every actor is handed (`actor.rs`, `actor_id.rs`): its ID, the messages and signals it
receives, and the outcome of a callback.
-/

namespace Tellus

/-- A unique actor ID: the UUID it wraps, which is never drawn twice. -/
structure ActorId where
  uuid : ℕ
  deriving DecidableEq

/-- A message or signal received by an actor. -/
inductive Incoming (M : Type) where
  | message (m : M)
  | terminated (id : ActorId)
  deriving DecidableEq

/-- How a callback ends: with a value, with an error of its own, or by panicking. -/
inductive Outcome (E α : Type) where
  | ok (a : α)
  | err (e : E)
  | panic
  deriving DecidableEq

/-- Both kinds of failure are logged where they happen and look alike from then on. -/
def catchAndLog {E α : Type} : Outcome E α → Option α
  | .ok a => some a
  | .err _ => none
  | .panic => none

@[simp] lemma catchAndLog_eq_some {E α : Type} {r : Outcome E α} {a : α} :
    catchAndLog r = some a ↔ r = .ok a := by
  cases r <;> simp [catchAndLog]

end Tellus
