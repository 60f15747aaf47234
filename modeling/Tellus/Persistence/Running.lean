import Mathlib.Tactic
import Tellus.Persistence.Following

/-!
What holds of the tasks of actors, whatever user code they run.

The tasks of a system of actors run the loops of `spawn` and `spawn_event_sourced`, drop by drop,
with any user code for callbacks and destructors.  Their phases follow (`Simulated.run`), and what
is known of the phases is then known of what the tasks share.

* `tasks_refine_phases`: every run of the tasks is one of the phases.
* `tasks_watch_and_stop`: what this says of registries, mailboxes and the tree.
-/

namespace Tellus

open Concurrent

variable {M : Type} {kind : ActorId → Kind} {rootId : ActorId} {script : ActorId → Script M}
  {st : Tasks ActorId (Hub.Op M) Hub.Op.Ans (Hub M) (Places script)}

/-! ### Simulation -/

/-- The scripts of plain and of event-sourced actors. -/
inductive Script.Spawned : {M : Type} → Script M → Kind → Prop
  | plain {M State Error : Type} (user : UserCode M (Actor.Op.Ans (A := ⟨M, State, Error⟩)))
      (strategy : SupervisionStrategy) : Spawned (Script.spawn user strategy) .plain
  | eventSourced {I : Type} {A : EventSourced I} (code : EventSourcedCode A)
      (strategy : SupervisionStrategy) :
      Spawned (Script.spawnEventSourced code strategy) .eventSourced

lemma Script.Spawned.keeps {S : Script M} {k : Kind} (h : S.Spawned k) (rootId : ActorId) :
    Nonempty (S.Keeps k rootId) := by
  cases h with
  | plain user strategy => exact ⟨Script.spawnKeeps user strategy rootId⟩
  | eventSourced code strategy => exact ⟨Script.spawnEventSourcedKeeps code strategy rootId⟩

/-- The phase of an actor whose task is at a place. -/
def InPhase (k : Kind) {S : Script M} : Phase M → S.Place → Prop
  | r, none => r = .unborn ∨ r = .start k
  | r, some (.loop (.starting _ _)) => r = .start k ∨ r = .calling .init .none
  | r, some (.loop (.running _ _)) => r = .idle
  | r, some (.loop (.failed _ _)) => r = .failed
  | r, some (.loop (.backoff _ _)) => r = .backoff
  | r, some (.loop .terminate) => r = .terminating .drain
  | _, some (.loop .unwound) => False
  | r, some .terminated => r = .terminating (.signal ∅) ∨ r = .finished

lemma Script.Keeps.inPhase {S : Script M} {k : Kind} (K : S.Keeps k rootId) {q : Phase M}
    {pt : S.Place} (h : K.At q pt) : InPhase k q pt := by
  match pt with
  | none => exact h
  | some (.loop (.starting _ phase)) => exact (K.starting phase).imp h.trans h.trans
  | some (.loop (.running _ _)) => exact h
  | some (.loop (.failed _ _)) => exact h
  | some (.loop (.backoff _ _)) => exact h
  | some (.loop .terminate) => exact h
  | some (.loop .unwound) => exact h
  | some .terminated => exact h

/-- A task which has not begun is where it was once it has been spawned. -/
lemma Script.Keeps.woken {S : Script M} {k : Kind} (K : S.Keeps k rootId) {pt : S.Place}
    (h : K.At .unborn pt) : K.At (.start k) pt := by
  match pt with
  | none => exact .inr rfl
  | some (.loop (.starting _ phase)) =>
      have hborn : (Phase.unborn : Phase M) = K.place phase := h
      rcases K.starting phase with hp | hp
      · exact hp.symm
      · rw [hp] at hborn
        cases hborn
  | some .terminated => rcases h with h | h <;> cases h
  | some (.loop (.running _ _)) => cases h
  | some (.loop (.failed _ _)) => cases h
  | some (.loop (.backoff _ _)) => cases h
  | some (.loop .terminate) => cases h
  | some (.loop .unwound) => cases h

/-- A task is at one of its own places, and in its phase. -/
def Placed (kind : ActorId → Kind) (script : ActorId → Script M) (a : ActorId) (q : Phase M)
    (pt : Places script) : Prop := pt.1 = a ∧ InPhase (kind a) q pt.2

/-- **Every run of the tasks** is simulated. -/
lemma Running.simulated (hscript : ∀ a, (script a).Spawned (kind a))
    (h : Running script rootId st) :
    ∃ tr s, LateRuns kind tr s ∧ (simulated kind rootId).Matches (Placed kind script) st s := by
  have K := fun a => ((hscript a).keeps rootId).some
  have hmatches : (Tellus.simulated kind rootId).Matches
      (fun a q pt => pt.1 = a ∧ (K pt.1).At q pt.2) (Running.init script) Sys.init :=
    ⟨rfl, fun a => .ret_of ⟨rfl, .inl rfl⟩⟩
  have hcode : ∀ (a : ActorId) (q : Phase M) (pt : Places script), pt.1 = a ∧ (K pt.1).At q pt.2 →
      (tasksCode script a pt).Follows (phases (kind a) rootId)
        (fun q pt => pt.1 = a ∧ (K pt.1).At q pt.2) q := by
    rintro a q ⟨b, pt⟩ ⟨rfl, hpt⟩
    exact .bind (((K b).code pt hpt).mono fun r pt hr => .ret_of ⟨rfl, hr⟩)
  have hwakes : ∀ (a : ActorId) (q q' : Phase M), (Tellus.simulated kind rootId).wakes a q q' →
      ∀ pt : Places script, pt.1 = a ∧ (K pt.1).At q pt.2 → pt.1 = a ∧ (K pt.1).At q' pt.2 := by
    rintro a q q' ⟨rfl, rfl⟩ ⟨b, pt⟩ ⟨rfl, hpt⟩
    exact ⟨rfl, (K b).woken hpt⟩
  obtain ⟨tr, s, hrun, hshared, hfollows⟩ := Simulated.run hcode hwakes hmatches h
  refine ⟨tr, s, hrun, hshared, fun a => (hfollows a).mono ?_⟩
  rintro q ⟨b, pt⟩ ⟨rfl, hpt⟩
  exact ⟨rfl, (K b).inPhase hpt⟩

/-- A task which has come to one of its places is in its phase. -/
lemma Running.placed (hscript : ∀ a, (script a).Spawned (kind a)) (h : Running script rootId st)
    {a : ActorId} {pt : Places script} (hpt : st.task a = .ret pt) :
    ∃ tr s, LateRuns kind tr s ∧ st.shared = s.hub ∧ Placed kind script a (s.phase a) pt := by
  obtain ⟨tr, s, hrun, hmatches⟩ := h.simulated hscript
  obtain ⟨tr', s', hrun', hshared, hplaced⟩ := hmatches.arrives hpt
  exact ⟨_, s', hrun.trans hrun', hshared.symm, hplaced⟩

/-- The user code of an actor which spawns a child, watches it, and stops at its first message. -/
def lookoutCode : UserCode Unit (Actor.Op.Ans (A := ⟨Unit, Unit, Unit⟩)) where
  context := fun _ => true
  call := fun
    | .init => do
        let child ← Prog.op UserOp.spawn
        Prog.op (UserOp.watch child)
        return .ok ()
    | .receive _ _ => return .ok .stop
  drop := fun _ => return false
  bare_call := fun _ h => by cases h
  bare_drop := fun _ => trivial

/-- Its script. -/
def lookout (_ : ActorId) : Script Unit := Script.spawn lookoutCode .stop

lemma lookout_spawned (a : ActorId) : (lookout a).Spawned .plain := .plain lookoutCode .stop

/-- A run in which the lookout has started. -/
lemma lookout_run : ∃ st, Running lookout watcherId st ∧
    st.task parentId = .ret ⟨parentId, some (.loop (.running 0 ()))⟩ ∧
    st.shared.parent childId = some (parentId, 0) ∧ st.shared.Registered parentId childId := by
  have h : Running lookout watcherId (Running.init _) := .refl
  have h := h.tail (.env (.spawnRoot (r := parentId) rfl))
  have h := h.tail (.jump parentId rfl)
  have h := h.tail (.answer parentId rfl (.begin rfl))
  have h := h.tail (.jump parentId rfl)
  have h := h.tail (.answer parentId rfl (.spawn (c := childId) rfl))
  have h := h.tail (.answer parentId rfl (.add rfl rfl))
  have h := h.tail (.answer parentId rfl (.insertWatched childId))
  exact ⟨_, h, rfl, rfl, _, rfl, by simp⟩

/-- **The loops refine the phases.**  Whatever user code and stores do, no destructor panicking
outside of every catch, and in whatever order the small steps of all tasks come: what the tasks
share is what the actors share in a run of their phases, and each task does from then on what its
phase allows, call by call.  A task which has come to one of its places is in the phase of that
place. -/
theorem tasks_refine_phases (hscript : ∀ a, (script a).Spawned (kind a))
    (h : Running script rootId st) :
    (∃ tr s, LateRuns kind tr s ∧ st.shared = s.hub ∧
      ∀ a, (st.task a).Follows (phases (kind a) rootId) (Placed kind script a) (s.phase a)) ∧
    ∀ a pt, st.task a = .ret pt → ∃ tr s, LateRuns kind tr s ∧ st.shared = s.hub ∧
      Placed kind script a (s.phase a) pt := by
  obtain ⟨tr, s, hrun, hmatches⟩ := h.simulated hscript
  exact ⟨⟨tr, s, hrun, hmatches.shared, hmatches.follows⟩, fun _ _ hpt => h.placed hscript hpt⟩

/-- The lookout which has started is in the phase of the head of `next_incoming!`. -/
theorem lookout_is_idle : ∃ tr s, LateRuns (M := Unit) (fun _ => .plain) tr s ∧
    s.phase parentId = .idle ∧ s.parent childId = some (parentId, 0) := by
  obtain ⟨st, h, htask, hparent, -⟩ := lookout_run
  obtain ⟨tr, s, hrun, hshared, -, hphase⟩ :=
    (tasks_refine_phases lookout_spawned h).2 parentId _ htask
  rw [hshared] at hparent
  exact ⟨tr, s, hrun, hphase, hparent⟩

/-! ### Registries, mailboxes and the tree -/

/-- A place is never one where the task waits for its children. -/
lemma InPhase.not_awaiting {k : Kind} {S : Script M} {q : Phase M} {pt : S.Place}
    (h : InPhase k q pt) : q.awaiting = false := by
  have hstart : (Phase.start k : Phase M).awaiting = false := by
    rcases Phase.start_cases k with hk | hk <;> rw [hk] <;> rfl
  match pt with
  | none =>
      rcases h with rfl | rfl
      · rfl
      · exact hstart
  | some (.loop (.starting _ _)) =>
      rcases h with rfl | rfl
      · exact hstart
      · rfl
  | some (.loop (.running _ _)) => exact congrArg Phase.awaiting h
  | some (.loop (.failed _ _)) => exact congrArg Phase.awaiting h
  | some (.loop (.backoff _ _)) => exact congrArg Phase.awaiting h
  | some (.loop .terminate) => exact congrArg Phase.awaiting h
  | some (.loop .unwound) => exact h.elim
  | some .terminated => rcases h with rfl | rfl <;> rfl

variable {s : Sys M} {tr : List (Label M)} {a d w x : ActorId}

/-- Below an actor whose watchers have been taken nothing is left. -/
lemma LateRuns.descendants_done (h : LateRuns kind tr s) (ha : s.hub.registry a = none)
    (hd : s.hub.Descendant d a) : s.hub.done d = true := by
  have hclosed := (h.watching.closed a).mp ha
  exact Phase.done_iff.mpr (h.tree.descendants_finished (Phase.pastReplace_of_closed hclosed)
    (Phase.not_awaiting_of_closed hclosed) hd)

/-- Nor are children of an earlier generation, unless the actor waits for them. -/
lemma LateRuns.earlier_done {c : ActorId} {g : ℕ} (h : LateRuns kind tr s)
    (ha : (s.phase a).awaiting = false) (hc : s.hub.parent c = some (a, g))
    (hg : g < s.hub.generation a) : s.hub.done c = true := by
  rcases (h.tree.child c a g hc).gone hg with hfin | ⟨hawait, -⟩
  · exact Phase.done_iff.mpr hfin
  · rw [ha] at hawait
    cases hawait

/-- A watched actor has not been forgotten, at the head of `next_incoming!`. -/
lemma LateRuns.watched (h : LateRuns kind tr s) (hw : s.phase w = .idle)
    (hx : x ∈ s.hub.watched w) : s.hub.Registered w x ∨ .terminated x ∈ s.hub.queue w ∨
      s.hub.registry x = none ∧ s.hub.done x = false := by
  rcases h.watching.notified w x (by rw [hw]; rfl) hx with hnotified | ⟨cb, hcb⟩
  · rcases hnotified with hreg | ⟨todo, hsignal, -⟩ | hqueue | htaking
    · exact .inl hreg
    · refine .inr (.inr ⟨(h.watching.closed x).mpr (by rw [hsignal]; rfl), ?_⟩)
      exact congrArg Phase.done hsignal
    · exact .inr (.inl hqueue)
    · rw [hw] at htaking
      cases htaking
  · rw [hw] at hcb
    cases hcb

/-- Nor is a registration left behind there. -/
lemma LateRuns.registered (h : LateRuns kind tr s) (hw : s.phase w = .idle)
    (hx : s.hub.Registered w x) : x ∈ s.hub.watched w := by
  rcases h.registrations.tracked w x hx with hx | ⟨cb, hph⟩ | ⟨cb, hph⟩ | ⟨todo, hph, -⟩
  · exact hx
  · rw [hw] at hph
    cases hph
  · rw [hw] at hph
    cases hph
  · rw [hw] at hph
    cases hph

/-- **Death watch and stop propagation of the tasks.**  Whatever user code and stores do, no
destructor panicking outside of every catch, and in whatever order the small steps come: a task at
one of its places has no child of an earlier generation left, and below an actor whose watchers have
been taken, a root whose termination has been announced among them, no task is left at all; at the
head of `next_incoming!` a watched actor has the task in its registry, or its signal is in the
mailbox or about to be sent, and the task is in the registries of watched actors only; a signal has
all messages of its actor in front of it; and a task which has ended is in no registry. -/
theorem tasks_watch_and_stop (hscript : ∀ a, (script a).Spawned (kind a))
    (h : Running script rootId st) :
    (∀ a pt, st.task a = .ret ⟨a, pt⟩ → pt ≠ some (.loop .unwound) ∧
      ∀ c g, st.shared.parent c = some (a, g) → g < st.shared.generation a →
        st.shared.done c = true) ∧
    (∀ a d, st.shared.registry a = none → st.shared.Descendant d a → st.shared.done d = true) ∧
    (∀ r, st.shared.sink r = .resolved → st.shared.registry r = none) ∧
    (∀ w restarts held, st.task w = .ret ⟨w, some (.loop (.running restarts held))⟩ → ∀ x,
      (x ∈ st.shared.watched w → st.shared.Registered w x ∨ .terminated x ∈ st.shared.queue w ∨
        st.shared.registry x = none ∧ st.shared.done x = false) ∧
      (st.shared.Registered w x → x ∈ st.shared.watched w)) ∧
    (∀ w x m, ¬[.terminated x, .message (some x) m].Sublist (st.shared.queue w)) ∧
    ∀ w x, st.shared.done w = true → ¬st.shared.Registered w x := by
  obtain ⟨tr, s, hrun, hmatches⟩ := h.simulated hscript
  have hshared : st.shared = s.hub := hmatches.shared
  refine ⟨fun a pt hpt => ?_, fun a d => ?_, fun r => ?_, fun w restarts held hpt x => ?_,
    fun w x m => ?_, fun w x hdone => ?_⟩
  · obtain ⟨tr, t, hrun, ht, -, hplaced⟩ := h.placed hscript hpt
    refine ⟨?_, fun c g hc hg => ?_⟩
    · rintro rfl
      exact hplaced
    · rw [ht] at hc hg ⊢
      exact hrun.earlier_done hplaced.not_awaiting hc hg
  · rw [hshared]
    exact LateRuns.descendants_done hrun
  · rw [hshared]
    exact (LateRuns.closing hrun).resolved r
  · obtain ⟨tr, t, hrun, ht, -, hidle⟩ := h.placed hscript hpt
    rw [ht]
    exact ⟨hrun.watched hidle, hrun.registered hidle⟩
  · rw [hshared]
    exact (LateRuns.closing hrun).last w x m
  · rw [hshared] at hdone ⊢
    refine (LateRuns.registrations hrun).not_registered ?_
    rw [Phase.done_iff.mp hdone]
    rfl

/-- The lookout, which is in the registry of its child, watches it. -/
theorem lookout_watches : ∃ st, Running lookout watcherId st ∧
    st.shared.Registered parentId childId ∧ childId ∈ st.shared.watched parentId := by
  obtain ⟨st, h, htask, -, hreg⟩ := lookout_run
  have hwatch := (tasks_watch_and_stop lookout_spawned h).2.2.2.1
  exact ⟨st, h, hreg, (hwatch parentId 0 () htask childId).2 hreg⟩

end Tellus
