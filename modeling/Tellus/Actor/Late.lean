import Mathlib.Tactic
import Tellus.Actor.Registrations
import Tellus.Actor.Conversation
import Tellus.Actor.Tree

/-!
A parent's stop which is noticed late.

In `Sys` a restart ends in the very step which finds that the parent has not stopped the actor.  In
`await_backoff` (`actor_context.rs`) these are two steps, and the stop may come in between: after
the last poll of the stop the loop starts over all the same.  What is known of mailboxes,
registries and the tree does not depend on this.

* `LateStep`: the steps of `Sys`, and that of a restart which has missed the stop.
* `LateStep.strict`: such a step is one of `Sys` if nobody has stopped the actor.
* `Closing`: signals come last, in a mailbox and at the oneshot.
* `LateRuns.watching`, `LateRuns.registrations`, `LateRuns.closing`, `LateRuns.tree`: what holds of
  these runs.
-/

namespace Tellus

open Concurrent

variable {M : Type} {kind : ActorId → Kind} {s s' : Sys M} {l : Label M} {tr : List (Label M)}

/-! ### Steps -/

/-- The steps of a system of actors, a restart going on whether or not the parent has stopped the
actor meanwhile. -/
inductive LateStep (kind : ActorId → Kind) (s : Sys M) : Label M → Sys M → Prop
  | step {l : Label M} {s' : Sys M} (h : Step kind s l s') : LateStep kind s l s'
  | restarted {a : ActorId} (ha : s.phase a = .backoff) :
      LateStep kind s (.restart a) (s.goto a (.start (kind a)))

/-- The runs with restarts which may miss a stop. -/
abbrev LateRuns (kind : ActorId → Kind) (tr : List (Label M)) (s : Sys M) : Prop :=
  Run (LateStep kind) Sys.init tr s

/-- The same, had nobody stopped the actor. -/
@[simps] def Sys.unstopped (s : Sys M) (a : ActorId) : Sys M :=
  { s with
    parent := Function.update s.parent a none
    stopped := Function.update s.stopped a false }

lemma Sys.not_signalled_unstopped (s : Sys M) (a : ActorId) : ¬(s.unstopped a).Signalled a :=
  not_signalled_root (Function.update_self ..) (Function.update_self ..)

/-- A late step is a step of `Sys` but for who has stopped whom. -/
lemma LateStep.strict (hs : LateStep kind s l s') : Step kind s l s' ∨
    ∃ a t, Step kind (s.unstopped a) l t ∧
      s' = { t with parent := s.parent, stopped := s.stopped } := by
  cases hs with
  | step h => exact .inl h
  | @restarted a ha => exact .inr ⟨a, _, .move ha (.restarted (s.not_signalled_unstopped a)), rfl⟩

/-! ### Watched maps and registries -/

lemma Watching.late (h : Watching s) (hs : LateStep kind s l s') : Watching s' := by
  rcases hs.strict with hs | ⟨a, t, hstrict, rfl⟩
  · exact h.step hs
  · have hun : Watching (s.unstopped a) := { h with }
    exact { hun.step hstrict with }

lemma Registrations.late (h : Registrations s) (hw : Watching s) (hs : LateStep kind s l s') :
    Registrations s' := by
  rcases hs.strict with hs | ⟨a, t, hstrict, rfl⟩
  · exact h.step hw hs
  · have hun : Registrations (s.unstopped a) := { h with }
    have hw' : Watching (s.unstopped a) := { hw with }
    exact { hun.step hw' hstrict with }

/-- The signals of every such run. -/
lemma LateRuns.watching (h : LateRuns kind tr s) : Watching s :=
  Run.invariant h Watching.init fun _ _ _ ht hs => ht.late hs

/-- The registries of every such run. -/
lemma LateRuns.registrations (h : LateRuns kind tr s) : Registrations s :=
  (Run.invariant (P := fun s => Registrations s ∧ Watching s) h ⟨.init, .init⟩
    fun _ _ _ ht hs => ⟨ht.1.late ht.2 hs, ht.2.late hs⟩).1

/-! ### What comes last -/

/-- No message of an actor is behind its signal in a mailbox, and the oneshot is not resolved before
registration at the root is closed. -/
structure Closing (s : Sys M) : Prop where
  last : ∀ w x m, ¬[.terminated x, .message (some x) m].Sublist (s.queue w)
  resolved : ∀ r, s.sink r = .resolved → s.registry r = none

lemma Closing.init : Closing (Sys.init : Sys M) where
  last := fun _ _ _ h => by cases h
  resolved := fun _ h => by cases h

lemma Closing.step (h : Closing s) (hw : Watching s) (hs : Step kind s l s') : Closing s' where
  last := by
    intro w x m hsub
    rcases hs.queue w with hq | ⟨item, rfl, hq⟩ | ⟨item, -, -, hq⟩ | ⟨-, -, hq⟩
    · exact h.last w x m (hq ▸ hsub)
    · rw [hq] at hsub
      by_cases hitem : item = .message (some x) m
      · -- the message enters now: its sender runs user code, and cannot have been signalled for
        subst hitem
        obtain ⟨-, -, hwhy⟩ := hs.sent
        have hactive : (s.phase x).active = true := by
          rcases hwhy with ⟨m', hm⟩ | ⟨a, m', hm, ha⟩ | ⟨y, todo, hy, -⟩ | ⟨y, cb, hy, -⟩
          · cases hm
          · cases hm
            exact ha
          · cases hy
          · cases hy
        have hmem : .terminated x ∈ s.queue w := by
          simpa using hsub.subset List.mem_cons_self
        have hclosed := hw.queued w x hmem
        rw [Phase.not_closed_of_active hactive] at hclosed
        cases hclosed
      · have hsub : ([Item.terminated x] ++ [Item.message (some x) m]).Sublist
            (s.queue w ++ [item]) := hsub
        exact h.last w x m (sublist_of_concat hsub (Ne.symm hitem))
    · exact h.last w x m (hq ▸ hsub.cons item)
    · rw [hq] at hsub
      cases hsub
  resolved := by
    intro r hr
    have hclosed : (s.phase r).closed = true := by
      rcases hs.sink r with ⟨hsame, -⟩ | ⟨-, harmed, -⟩ | ⟨-, -, -, hreg | hclosed⟩
      · exact (hw.closed r).mp (h.resolved r (hsame ▸ hr))
      · rw [harmed] at hr
        cases hr
      · exact (hw.closed r).mp hreg
      · exact hclosed
    exact ((hw.step hs).closed r).mpr (hs.closed hclosed)

lemma Closing.late (h : Closing s) (hw : Watching s) (hs : LateStep kind s l s') : Closing s' := by
  rcases hs.strict with hs | ⟨a, t, hstrict, rfl⟩
  · exact h.step hw hs
  · have hun : Closing (s.unstopped a) := { h with }
    have hw' : Watching (s.unstopped a) := { hw with }
    exact { hun.step hw' hstrict with }

lemma LateRuns.closing (h : LateRuns kind tr s) : Closing s :=
  (Run.invariant (P := fun s => Closing s ∧ Watching s) h ⟨.init, .init⟩
    fun _ _ _ ht hs => ⟨ht.1.late ht.2 hs, ht.2.late hs⟩).1

/-! ### The tree -/

/-- An actor which is not the one to restart is a parent as before. -/
lemma ChildOf.elsewhere {a b c : ActorId} {g : ℕ} {p : Phase M} (h : ChildOf s c b g)
    (hphase : s'.phase = Function.update s.phase a p)
    (hgeneration : s'.generation b = s.generation b) (hb : b ≠ a)
    (ha : s.phase a ≠ .finished) : ChildOf s' c b g := by
  have hsame : s'.phase b = s.phase b := by rw [hphase, Function.update_of_ne hb]
  refine ⟨by rw [hsame]; exact h.born, by rw [hgeneration]; exact h.bound, fun hpast => ?_,
    fun hlt => ?_⟩
  · rw [hgeneration]
    exact h.past (hsame ▸ hpast)
  · rw [hgeneration] at hlt ⊢
    rcases h.gone hlt with hfin | hawait
    · refine .inl ?_
      rwa [hphase, Function.update_of_ne fun hc : c = a => ha (hc ▸ hfin)]
    · exact .inr (hsame ▸ hawait)

/-- **A restart which has missed the stop** has waited for the children like any other one. -/
lemma Tree.late (h : Tree s) (hs : LateStep kind s l s') : Tree s' := by
  cases hs with
  | step hs => exact h.step hs
  | @restarted a ha =>
      have hstart : (Phase.start (kind a) : Phase M) ≠ .unborn ∧
          (Phase.start (kind a) : Phase M).pastReplace = false := by
        rcases Phase.start_cases (kind a) with hk | hk <;> rw [hk] <;> simp [Phase.pastReplace]
      refine ⟨fun c hc => h.unborn c ?_, fun c b g hc => ?_⟩
      · by_cases hca : c = a
        · subst hca
          rw [Sys.goto_phase, Function.update_self] at hc
          exact absurd hc hstart.1
        · simpa [hca] using hc
      · have hchild := h.child c b g hc
        by_cases hb : b = a
        · subst hb
          refine ⟨by simp [hstart.1], hchild.bound, fun hpast => ?_, fun hg => ?_⟩
          · rw [Sys.goto_phase, Function.update_self, hstart.2] at hpast
            cases hpast
          · rcases hchild.gone hg with hfin | ⟨hawait, -⟩
            · have hcb : c ≠ b := by
                rintro rfl
                rw [hfin] at ha
                cases ha
              exact .inl (by simpa [hcb] using hfin)
            · rw [ha] at hawait
              cases hawait
        · exact hchild.elsewhere (p := .start (kind a)) rfl rfl hb (by rw [ha]; simp)

/-- The tree of every such run. -/
lemma LateRuns.tree (h : LateRuns kind tr s) : Tree s :=
  Run.invariant h Tree.init fun _ _ _ ht hs => ht.late hs

end Tellus
