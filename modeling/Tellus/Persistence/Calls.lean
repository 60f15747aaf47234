import Mathlib.Tactic
import Tellus.Lib.Traces
import Tellus.Persistence.Spawn

/-!
Which calls an event-sourced actor's task makes where (`persistence/spawn.rs`).

* `Stage`, `Op.stage`: what a call is made for.
* `within_settle`: the calls of settlement.
* `within_code`: the calls of each block of the run loop.
-/

namespace Tellus

open Concurrent

variable {I : Type} {A : EventSourced I}

/-- What a call of the task is made for. -/
inductive Stage where
  | polling
  | seeding
  | replaying
  | accepting
  | waiting
  | deciding
  | persisting
  | continuing
  | snapshotting
  | restarting
  deriving DecidableEq

/-- The stage of a call. -/
def Op.stage : Op A → Stage
  | .stoppedByParent => .polling
  | .persistenceId => .seeding
  | .load _ => .seeding
  | .read _ _ _ => .replaying
  | .recovered _ => .accepting
  | .nextIncoming _ => .waiting
  | .handle _ _ => .deciding
  | .encodeEvent _ => .persisting
  | .append _ _ _ => .persisting
  | .continuation _ _ => .continuing
  | .snapshot _ => .snapshotting
  | .encodeSnapshot _ => .snapshotting
  | .save _ _ _ => .snapshotting
  | .awaitRestart => .restarting

/-- The program makes calls of the given stages only. -/
abbrev Within {α : Type} (stages : Stage → Prop) (p : Task A α) : Prop :=
  p.Ends (fun op => stages op.stage) (fun _ _ => True) fun _ => True

/-! ### Recovery -/

lemma within_recoverSeed : Within (· = .seeding) (recoverSeed A) := by
  refine ⟨rfl, fun x _ => ?_⟩
  cases x with
  | none => trivial
  | some id =>
      refine ⟨rfl, fun x _ => ?_⟩
      cases x <;> trivial

lemma within_recoverPage (r : Recovered A) : Within (· = .replaying) (recoverPage A r) := by
  refine ⟨rfl, fun x _ => ?_⟩
  cases x <;> trivial

/-! ### Settlement -/

lemma within_encodeEvents (events : List A.Event) :
    Within (· = .persisting) (encodeEvents A events) := by
  induction events with
  | nil => trivial
  | cons event events ih =>
      refine ⟨rfl, fun x _ => ?_⟩
      cases x with
      | ok payload =>
          refine ih.bind fun es _ => ?_
          cases es <;> trivial
      | _ => trivial

lemma within_persist (id : I) (state : A.State) (next : SeqNo) (events : List A.Event) :
    Within (· = .persisting) (persist A id state next events) := by
  refine (within_encodeEvents events).bind fun es _ => ?_
  cases es with
  | none => trivial
  | some encoded =>
      refine ⟨rfl, fun x _ => ?_⟩
      cases x <;> trivial

lemma within_runThens (state : A.State) (thens : List A.Then) :
    Within (· = .continuing) (runThens A state thens) := by
  induction thens with
  | nil => trivial
  | cons t thens ih =>
      refine ⟨rfl, fun x _ => ?_⟩
      cases x with
      | ok _ => exact ih
      | err e => exact nomatch e
      | panic => trivial

lemma within_saveSnapshot (id : I) (state : A.State) (next : SeqNo) :
    Within (· = .snapshotting) (saveSnapshot A id state next) := by
  have hencode : Within (· = .snapshotting) (encodeSnapshot A state) := by
    refine ⟨rfl, fun x _ => ?_⟩
    rcases x with (_ | snapshot) | _ | _
    · trivial
    · refine ⟨rfl, fun x _ => ?_⟩
      cases x <;> trivial
    · trivial
    · trivial
  refine hencode.bind fun r _ => ?_
  rcases r with (_ | snapshot) | _ | _
  · trivial
  · exact ⟨rfl, fun _ _ => trivial⟩
  · trivial
  · trivial

/-- The stages of settlement. -/
def Stage.settles (stage : Stage) : Prop :=
  stage = .persisting ∨ stage = .continuing ∨ stage = .snapshotting

/-- **Settlement** persists, runs continuations and saves a snapshot, and does nothing else. -/
lemma within_settle (id : I) (state : A.State) (next : SeqNo) (effect : Effect A) :
    Within Stage.settles (settle A id state next effect) := by
  have hpersist : Within Stage.settles (if !effect.events.isEmpty then
      persist A id state next effect.events else return some (state, next) : Task A _) := by
    split
    · exact (within_persist id state next effect.events).mono fun _ h => .inl h
    · trivial
  refine hpersist.bind fun persisted _ => ?_
  cases persisted with
  | none => trivial
  | some p =>
      have hthens : Within Stage.settles (runThens A p.1 effect.thens) :=
        (within_runThens p.1 effect.thens).mono fun _ h => .inr (.inl h)
      refine hthens.bind fun ran _ => ?_
      cases ran with
      | false => trivial
      | true =>
          have hsave : Within Stage.settles (saveSnapshot A id p.1 p.2) :=
            (within_saveSnapshot id p.1 p.2).mono fun _ h => .inr (.inr h)
          dsimp only
          split
          · exact hsave.bind fun _ _ => trivial
          · trivial

/-! ### The run loop -/

/-- The stages of the block at a place of the run loop. -/
def Point.stages : Point A → Stage → Prop
  | .run, stage => stage = .polling ∨ stage = .seeding
  | .replay _, stage => stage = .polling ∨ stage = .replaying
  | .recovered _, stage => stage = .accepting
  | .running _, stage => stage = .waiting ∨ stage = .deciding ∨ stage.settles
  | .failed, stage => stage = .restarting
  | .terminate, _ => False

/-- **Every block of the run loop** makes the calls of its stages only. -/
lemma within_code (pt : Point A) : Within pt.stages (code A pt) := by
  cases pt with
  | run =>
      have hseed : Within (Point.run : Point A).stages (recoverSeed A) :=
        within_recoverSeed.mono fun _ h => .inr h
      refine (hseed.interruptible (.inl rfl)).bind fun x _ => ?_
      rcases x with _ | _ | r <;> trivial
  | replay r =>
      have hpage : Within (Point.replay r).stages (recoverPage A r) :=
        (within_recoverPage r).mono fun _ h => .inr h
      refine (hpage.interruptible (.inl rfl)).bind fun x _ => ?_
      rcases x with _ | _ | ⟨r, _ | _⟩ <;> trivial
  | recovered r =>
      refine ⟨rfl, fun x _ => ?_⟩
      cases x <;> trivial
  | running r =>
      refine ⟨.inl rfl, fun x _ => ?_⟩
      cases x with
      | none => trivial
      | some incoming =>
          refine ⟨.inr (.inl rfl), fun x _ => ?_⟩
          cases x with
          | ok effect =>
              have hsettle : Within (Point.running r).stages
                  (settle A r.id r.state r.nextSeqNo effect) :=
                (within_settle r.id r.state r.nextSeqNo effect).mono fun _ h => .inr (.inr h)
              refine hsettle.bind fun settled _ => ?_
              cases settled with
              | none => trivial
              | some settled =>
                  dsimp only
                  split <;> trivial
          | _ => trivial
  | failed =>
      refine ⟨rfl, fun x _ => ?_⟩
      cases x <;> trivial
  | terminate => trivial

end Tellus
