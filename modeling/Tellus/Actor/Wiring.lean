import Mathlib.Data.List.ReduceOption
import Mathlib.Tactic
import Tellus.Actor.Channels

/-!
The stop channels do what the generations of `Sys` say.

* `Wiring`: which ends an actor's context, task and owner hold, and what has been sent.
* `ready_iff`: a receiver finds the stop exactly once the parent has replaced the channel, or
  `ActorSystem::stop` has been called; no sender is ever missed.
* `received_iff`: `stop_children` ends exactly once the children it has stopped have finished.
* `stop_channels`: every run with channels is a run of `Sys`.
-/

namespace Tellus

open Concurrent

variable {M : Type} {kind : ActorId → Kind}

/-! ### What an actor has to do with channels -/

namespace Phase

/-- The context has not been dropped. -/
def hasContext : Phase M → Bool
  | .unborn => false
  | .terminating .dropActor => false
  | .terminating .takeWatchers => false
  | .terminating (.signal _) => false
  | .finished => false
  | _ => true

/-- The task has not ended. -/
def running : Phase M → Bool
  | .unborn => false
  | .finished => false
  | _ => true

/-- The task may still look whether the parent has stopped it. -/
def stoppable : Phase M → Bool
  | .unborn => false
  | .dropping false => false
  | .terminating _ => false
  | .finished => false
  | _ => true

end Phase

/-- The channel by which an actor is stopped. -/
def Sys.stopChannel (s : Sys M) (a : ActorId) : Channel :=
  match s.parent a with
  | some (p, g) => .children p g
  | none => .root a

/-- What there is of one actor. -/
structure View (M : Type) where
  phase : Phase M
  parent : Option (ActorId × ℕ)
  generation : ℕ
  stopped : Bool
  sink : Sink
  context : Option (Channel × Receiver)
  made : ℕ
  taken : Option Channel
  task : Option (Receiver × Receiver)
  system : Option Channel
  version : ℕ → ℕ
  rootVersion : ℕ
  stopChannel : Channel

/-- An actor, seen alone. -/
def Wired.view (w : Wired M) (a : ActorId) : View M where
  phase := w.sys.phase a
  parent := w.sys.parent a
  generation := w.sys.generation a
  stopped := w.sys.stopped a
  sink := w.sys.sink a
  context := w.channels.context a
  made := w.channels.made a
  taken := w.channels.taken a
  task := w.channels.task a
  system := w.channels.system a
  version := fun g => w.channels.version (.children a g)
  rootVersion := w.channels.version (.root a)
  stopChannel := w.sys.stopChannel a

/-- What an actor holds, and what has been sent on its channels. -/
structure Wiring (a : ActorId) (v : View M) : Prop where
  unborn : v.phase = .unborn → v.generation = 0 ∧ v.made = 0 ∧ v.parent = none ∧ v.stopped = false
  context : v.phase.hasContext = true → v.made = v.generation + 1 ∧
    v.context = some (.children a v.generation, ⟨.children a v.generation, 0⟩)
  noContext : v.phase.hasContext = false → v.context = none
  taken : v.phase.awaiting = true → ∃ g, v.generation = g + 1 ∧ v.taken = some (.children a g)
  notTaken : v.phase.awaiting = false → v.taken = none
  version : ∀ g, v.version g = if g < v.generation then 1 else 0
  root : v.parent = none → (v.rootVersion = 0 ↔ v.stopped = false)
  task : v.phase.running = true → ∃ n, v.task = some (⟨v.stopChannel, 0⟩, ⟨v.stopChannel, n⟩) ∧
    (v.phase.stoppable = true → n = 0)
  noTask : v.phase.running = false → v.task = none
  system : ∀ ch, v.system = some ch → ch = .root a ∧ v.phase ≠ .unborn ∧ v.parent = none
  owned : v.phase ≠ .unborn → v.parent = none → v.sink = .absent → v.system = some (.root a)

/-- So is every actor wired. -/
def Wired.Sound (w : Wired M) : Prop := ∀ a, Wiring a (w.view a)

lemma Wired.Sound.init : (Wired.init : Wired M).Sound := fun a => by
  constructor <;> simp [Wired.view, Wired.init, Sys.init, Channels.init, Phase.hasContext,
    Phase.awaiting, Phase.running]

variable {w w' : Wired M} {a : ActorId} {tr : List (Label M)}

/-! ### What the ends find -/

/-- An actor which can still spawn has its context. -/
lemma Phase.hasContext_of_not_pastReplace {p : Phase M} (hborn : p ≠ .unborn)
    (hpast : p.pastReplace = false) : p.hasContext = true := by
  cases p with
  | unborn => exact absurd rfl hborn
  | terminating t => cases t <;> first | rfl | cases hpast
  | finished => cases hpast
  | _ => rfl

lemma Phase.not_closed_of_stoppable {p : Phase M} (h : p.stoppable = true) :
    p.closed = false := by
  cases p with
  | terminating t => cases h
  | finished => cases h
  | _ => rfl

lemma Phase.born_of_stoppable {p : Phase M} (h : p.stoppable = true) : p ≠ .unborn := by
  rintro rfl
  cases h

/-- The sender of a child's channel is held as long as nothing has been sent on it. -/
lemma Wired.Sound.held_child (h : w.Sound) (hr : Tellus.Runs kind tr w.sys) {p : ActorId} {g : ℕ}
    (hp : w.sys.parent a = some (p, g)) (hg : w.sys.generation p ≤ g) :
    w.Held (.children p g) := by
  have hchild := hr.tree.child a p g hp
  obtain rfl : w.sys.generation p = g := le_antisymm hg hchild.bound
  have hpast : (w.sys.phase p).pastReplace = false := by
    cases hpast : (w.sys.phase p).pastReplace with
    | false => rfl
    | true => exact absurd (hchild.past hpast) (lt_irrefl _)
  have hcontext := ((h p).context (Phase.hasContext_of_not_pastReplace hchild.born hpast)).2
  exact .inl ⟨p, _, hcontext⟩

/-- The sender of a root's channel is held by its owner or by its own registry. -/
lemma Wired.Sound.held_root (h : w.Sound) (hr : Tellus.Runs kind tr w.sys)
    (ha : (w.sys.phase a).stoppable = true) (hp : w.sys.parent a = none) : w.Held (.root a) := by
  have honeshot := hr.oneshot a
  cases hsink : w.sys.sink a with
  | absent =>
      have hsystem := (h a).owned (Phase.born_of_stoppable ha) hp hsink
      exact .inr (.inr (.inl ⟨a, hsystem⟩))
  | armed => exact .inr (.inr (.inr ⟨a, rfl, honeshot.armed hsink⟩))
  | resolved =>
      have hclosed := honeshot.resolved hsink
      rw [Phase.not_closed_of_stoppable ha] at hclosed
      cases hclosed

/-- **`changed` is ready**, and `has_changed` says so, exactly once the actor has been stopped. -/
lemma ready_iff (h : w.Sound) (hr : Tellus.Runs kind tr w.sys)
    (ha : (w.sys.phase a).stoppable = true) :
    w.Ready ⟨w.sys.stopChannel a, 0⟩ ↔ w.sys.Signalled a := by
  rw [Wired.Ready, Sys.stopChannel, Sys.Signalled]
  cases hp : w.sys.parent a with
  | none =>
      have hheld := h.held_root hr ha hp
      have hroot : w.channels.version (.root a) = 0 ↔ w.sys.stopped a = false := (h a).root hp
      simp [hroot, hheld]
  | some pg =>
      obtain ⟨p, g⟩ := pg
      have hversion : w.channels.version (.children p g) =
          if g < w.sys.generation p then 1 else 0 := (h p).version g
      dsimp only
      rw [hversion]
      constructor
      · rintro (hsent | hheld)
        · by_contra hlt
          rw [if_neg hlt] at hsent
          exact hsent rfl
        · by_contra hlt
          exact hheld (h.held_child hr hp (not_lt.mp hlt))
      · intro hlt
        rw [if_pos hlt]
        exact .inl one_ne_zero

lemma Sys.stopChannel_eq_children {s : Sys M} {b : ActorId} {g : ℕ} :
    s.stopChannel b = .children a g ↔ s.parent b = some (a, g) := by
  rw [stopChannel]
  rcases hp : s.parent b with _ | ⟨p, g'⟩ <;> simp

/-- A task which holds a receiver has not ended. -/
lemma Wired.Sound.running (h : w.Sound) {b : ActorId} {rx clone : Receiver}
    (hb : w.channels.task b = some (rx, clone)) : (w.sys.phase b).running = true ∧
      rx.channel = w.sys.stopChannel b ∧ clone.channel = w.sys.stopChannel b := by
  cases hrun : (w.sys.phase b).running with
  | false =>
      have hnone : w.channels.task b = none := (h b).noTask hrun
      rw [hnone] at hb
      cases hb
  | true =>
      obtain ⟨n, htask, -⟩ := (h b).task hrun
      dsimp only [Wired.view] at htask
      rw [htask] at hb
      cases hb
      exact ⟨rfl, rfl, rfl⟩

/-- **`closed` is ready** exactly once the children of the replaced channel have finished. -/
lemma received_iff (h : w.Sound) (hr : Tellus.Runs kind tr w.sys)
    (ha : (w.sys.phase a).awaiting = true) {ch : Channel} (hch : w.channels.taken a = some ch) :
    ¬w.Received ch ↔ w.sys.ChildrenGone a := by
  obtain ⟨g, hgen, htaken⟩ := (h a).taken ha
  dsimp only [Wired.view] at hgen htaken
  obtain rfl : ch = .children a g := Option.some.inj (hch.symm.trans htaken)
  constructor
  · intro hclosed c g' hc hg'
    obtain rfl : g' = g := by omega
    by_contra hfin
    have hrun : (w.sys.phase c).running = true := by
      cases hphase : w.sys.phase c with
      | unborn =>
          rw [hr.tree.unborn c hphase] at hc
          cases hc
      | finished => exact absurd hphase hfin
      | _ => rfl
    obtain ⟨n, htask, -⟩ := (h c).task hrun
    refine hclosed (.inr ⟨c, _, _, htask, .inl ?_⟩)
    exact Sys.stopChannel_eq_children.mpr hc
  · rintro hgone (⟨b, tx, rx, hb, hrx⟩ | ⟨b, rx, clone, hb, hrx⟩)
    · -- the context of `a` has the channel of the next generation
      cases hctx : (w.sys.phase b).hasContext with
      | false =>
          have hnone : w.channels.context b = none := (h b).noContext hctx
          rw [hnone] at hb
          cases hb
      | true =>
          have hcontext := ((h b).context hctx).2
          dsimp only [Wired.view] at hcontext
          rw [hcontext] at hb
          cases hb
          obtain ⟨rfl, rfl⟩ := Channel.children.inj hrx
          omega
    · obtain ⟨hrun, hrx', hclone'⟩ := h.running hb
      have hparent : w.sys.parent b = some (a, g) := by
        refine Sys.stopChannel_eq_children.mp ?_
        rcases hrx with hrx | hrx
        · exact hrx'.symm.trans hrx
        · exact hclone'.symm.trans hrx
      rw [hgone b g hparent hgen.symm] at hrun
      cases hrun

/-! ### Steps without channels -/

/-- Two phases with the same ends. -/
structure Phase.Alike (p q : Phase M) : Prop where
  unborn : q = .unborn ↔ p = .unborn
  hasContext : q.hasContext = p.hasContext
  awaiting : q.awaiting = p.awaiting
  running : q.running = p.running
  stoppable : q.stoppable = true → p.stoppable = true

lemma Phase.Alike.refl (p : Phase M) : p.Alike p := ⟨Iff.rfl, rfl, rfl, rfl, fun h => h⟩

/-- Between such phases nothing has to change. -/
lemma Wiring.alike {v : View M} (h : Wiring a v) {p : Phase M} (hp : v.phase.Alike p) {k : Sink}
    (hk : k = .absent → v.sink = .absent) : Wiring a { v with phase := p, sink := k } where
  unborn := fun hborn => h.unborn (hp.unborn.mp hborn)
  context := fun hc => h.context (hp.hasContext ▸ hc)
  noContext := fun hc => h.noContext (hp.hasContext ▸ hc)
  taken := fun hw => h.taken (hp.awaiting ▸ hw)
  notTaken := fun hw => h.notTaken (hp.awaiting ▸ hw)
  version := h.version
  root := h.root
  task := fun hrun => by
    obtain ⟨n, htask, hn⟩ := h.task (hp.running ▸ hrun)
    exact ⟨n, htask, fun hs => hn (hp.stoppable hs)⟩
  noTask := fun hrun => h.noTask (hp.running ▸ hrun)
  system := fun ch hch => by
    obtain ⟨hroot, hborn, hparent⟩ := h.system ch hch
    exact ⟨hroot, fun hunborn => hborn (hp.unborn.mp hunborn), hparent⟩
  owned := fun hborn hparent hsink =>
    h.owned (fun hu => hborn (hp.unborn.mpr hu)) hparent (hk hsink)

lemma Move.alike {s : Sys M} {l : Label M} {p q : Phase M} (h : Move kind s a p l q)
    (hl : l.wired = false) (hpq : p.wired q = false) : p.Alike q := by
  cases h with
  | returned h =>
      rcases h.to with rfl | rfl | rfl | rfl | rfl <;> constructor <;>
        simp [Phase.hasContext, Phase.awaiting, Phase.running, Phase.stoppable]
  | dropped fails =>
      cases fails <;> constructor <;>
        simp [Phase.hasContext, Phase.awaiting, Phase.running, Phase.stoppable]
  | polled | stopped | recoverStopped | childrenStopped | backoffStopped | childrenTerminated
  | finished => cases hpq
  | restarted => cases hl
  | _ =>
      constructor <;>
        simp [Phase.hasContext, Phase.awaiting, Phase.running, Phase.stoppable]

/-- **A step which has nothing to do with stop channels** leaves an actor as it is, but for where
it is and its oneshot. -/
lemma Step.alike {s s' : Sys M} {l : Label M} (hs : Tellus.Step kind s l s')
    (hl : l.wired = false)
    (hphase : ∀ a, s'.phase a ≠ s.phase a → (s.phase a).wired (s'.phase a) = false)
    (b : ActorId) :
    (s.phase b).Alike (s'.phase b) ∧ s'.parent b = s.parent b ∧
      s'.generation b = s.generation b ∧ s'.stopped b = s.stopped b := by
  have keep : ∀ {a : ActorId} {p q : Phase M}, s.phase a = p →
      s'.phase = Function.update s.phase a q → (p.wired q = false → p.Alike q) →
      (s.phase b).Alike (s'.phase b) := by
    intro a p q ha hs' hpq
    by_cases hb : b = a
    · subst hb
      rw [hs', Function.update_self, ha]
      by_cases hne : q = p
      · rw [hne]
        exact .refl p
      · refine hpq ?_
        have := hphase b (by rw [hs', Function.update_self, ha]; exact hne)
        rwa [hs', Function.update_self, ha] at this
    · rw [hs', Function.update_of_ne hb]
      exact .refl _
  cases hs with
  | spawnRoot | spawn | watchRoot | stop => cases hl
  | watchRootLate | tell | tellOutside => exact ⟨.refl _, rfl, rfl, rfl⟩
  | move ha hm => exact ⟨keep ha rfl (hm.alike hl), rfl, rfl, rfl⟩
  | restart ha | stopChildren ha =>
      have := hphase _ (by rw [Sys.goto_phase, Function.update_self, ha]; simp)
      rw [Sys.goto_phase, Function.update_self, ha] at this
      cases this
  | watchMapped ha =>
      refine ⟨keep ha rfl fun _ => ?_, rfl, rfl, rfl⟩
      split <;> constructor <;>
        simp [Phase.hasContext, Phase.awaiting, Phase.running, Phase.stoppable]
  | watchAdded ha | watchSignals ha | unwatch ha | unwatchRemoved ha | take ha | handSignal ha
  | drain ha | takeWatched ha | deregister ha | takeWatchers ha | signal ha | signalRoot ha
  | signalRootAgain ha =>
      refine ⟨keep ha rfl fun _ => ?_, rfl, rfl, rfl⟩
      constructor <;> simp [Phase.hasContext, Phase.awaiting, Phase.running, Phase.stoppable]

/-! ### Steps with channels -/

/-- Only one actor's ends change. -/
lemma Wired.Sound.update (h : w.Sound) (hothers : ∀ b, b ≠ a → w'.view b = w.view b)
    (hself : Wiring a (w'.view a)) : w'.Sound := fun b => by
  by_cases hb : b = a
  · subst hb
    exact hself
  · rw [hothers b hb]
    exact h b

/-- An actor is spawned: its task gets a receiver of its stop channel, its context a channel. -/
lemma Wiring.spawned {v v' : View M} {k : Kind} (h : Wiring a v) (hv : v.phase = .unborn)
    (hphase : v'.phase = .start k) (hgeneration : v'.generation = v.generation)
    (hstopped : v'.stopped = v.stopped)
    (hcontext : v'.context = some (.children a v.made, ⟨.children a v.made, 0⟩))
    (hmade : v'.made = v.made + 1) (htaken : v'.taken = v.taken)
    (hversion : ∀ g, v'.version g = if g = v.made then 0 else v.version g)
    (htask : v'.task = some (⟨v'.stopChannel, 0⟩, ⟨v'.stopChannel, 0⟩))
    (hroot : v'.parent = none → v'.rootVersion = 0 ∧ v'.system = some (.root a))
    (hsystem : ∀ ch, v'.system = some ch → ch = .root a ∧ v'.parent = none) :
    Wiring a v' := by
  obtain ⟨hgen, hmade', -, hstop⟩ := h.unborn hv
  have hstart : v'.phase ≠ .unborn ∧ v'.phase.hasContext = true ∧ v'.phase.awaiting = false ∧
      v'.phase.running = true := by
    rw [hphase]
    rcases Phase.start_cases k with hk | hk <;> rw [hk] <;> simp [Phase.hasContext,
      Phase.awaiting, Phase.running]
  obtain ⟨hborn, hctx, hawait, hrun⟩ := hstart
  rw [hgen] at hgeneration
  rw [hmade'] at hmade hcontext
  refine ⟨fun hu => absurd hu hborn, fun _ => ⟨by rw [hmade, hgeneration], ?_⟩, fun hc => ?_,
    fun hw => ?_, fun _ => ?_, fun g => ?_, fun hp => ?_, fun _ => ⟨0, htask, fun _ => rfl⟩,
    fun hr => ?_, fun ch hch => ?_, fun _ hp _ => (hroot hp).2⟩
  · rw [hcontext, hgeneration]
  · rw [hctx] at hc
    cases hc
  · rw [hawait] at hw
    cases hw
  · rw [htaken]
    exact h.notTaken (by rw [hv]; rfl)
  · rw [hversion, hgeneration, h.version g, hgen]
    simp
  · rw [(hroot hp).1, hstopped, hstop]
    simp
  · rw [hrun] at hr
    cases hr
  · obtain ⟨hch, hp⟩ := hsystem ch hch
    exact ⟨hch, hborn, hp⟩

lemma Phase.of_awaiting {p : Phase M} (h : p.awaiting = true) :
    p ≠ .unborn ∧ p.hasContext = true ∧ p.running = true := by
  cases p with
  | restarting => exact ⟨by simp, rfl, rfl⟩
  | terminating t => cases t <;> first | exact ⟨by simp, rfl, rfl⟩ | cases h
  | _ => cases h

lemma Phase.born_of_hasContext {p : Phase M} (h : p.hasContext = true) : p ≠ .unborn := by
  rintro rfl
  cases h

lemma Phase.running_of_hasContext {p : Phase M} (h : p.hasContext = true) : p.running = true := by
  cases p <;> first | rfl | cases h

/-- **`stop_children` begins**: the channel it leaves behind has been sent on, since the context
itself has still held a receiver. -/
lemma Wired.Replaces.sound {c : Channels} (hc : w.Replaces a c) (h : w.Sound)
    (ha : (w.sys.phase a).hasContext = true) {p : Phase M} (hp : p.awaiting = true)
    (hstoppable : p.stoppable = true → (w.sys.phase a).stoppable = true) :
    Wired.Sound ⟨(w.sys.replaceChannel a).goto a p, c⟩ := by
  obtain ⟨hmade, hcontext⟩ := (h a).context ha
  dsimp only [Wired.view] at hmade hcontext
  cases hc with
  | unsent hctx hrx =>
      rw [hcontext] at hctx
      cases hctx
      exact absurd (.inl ⟨a, _, _, hcontext, rfl⟩) hrx
  | sent hctx hrx =>
      rw [hcontext] at hctx
      cases hctx
      refine h.update (a := a) (fun b hb => ?_) ?_
      · simp [Wired.view, Sys.stopChannel, hb]
      obtain ⟨hborn', hctx', hrun'⟩ := Phase.of_awaiting hp
      have hself := h a
      have hversion : ∀ g, w.channels.version (.children a g) =
          if g < w.sys.generation a then 1 else 0 := hself.version
      obtain ⟨n, htask, hn⟩ := hself.task (Phase.running_of_hasContext ha)
      refine ⟨fun hu => ?_, fun _ => ?_, fun hnone => ?_, fun _ => ⟨w.sys.generation a, ?_⟩,
        fun hnot => ?_, fun g => ?_, hself.root, fun _ => ⟨n, htask, fun hs => hn ?_⟩,
        fun hnot => ?_, fun ch hch => ?_, fun _ => hself.owned (Phase.born_of_hasContext ha)⟩
      · simp [Wired.view, hborn'] at hu
      · simp [Wired.view, Channels.fresh, hmade]
      · simp [Wired.view, hctx'] at hnone
      · simp [Wired.view]
      · simp [Wired.view, hp] at hnot
      · simp only [Wired.view, Channels.renew_children, Channels.send_made, Channels.take_made,
          Channels.send_version, Channels.take_version, Function.update_apply,
          Channel.children.injEq, Sys.goto_generation, Sys.replaceChannel_generation,
          hmade, hversion]
        split_ifs <;> simp_all <;> omega
      · exact hstoppable (by simpa [Wired.view] using hs)
      · simp [Wired.view, hrun'] at hnot
      · obtain ⟨hch, -, hparent⟩ := hself.system ch hch
        exact ⟨hch, by simpa [Wired.view] using hborn', hparent⟩

/-- A step which changes no end of a channel. -/
lemma Wired.Sound.alike (h : w.Sound) {s : Sys M}
    (hphase : ∀ b, (w.sys.phase b).Alike (s.phase b)) (hparent : ∀ b, s.parent b = w.sys.parent b)
    (hgeneration : ∀ b, s.generation b = w.sys.generation b)
    (hstopped : ∀ b, s.stopped b = w.sys.stopped b)
    (hsink : ∀ b, s.sink b = .absent → w.sys.sink b = .absent) :
    Wired.Sound ⟨s, w.channels⟩ := by
  intro b
  have hview : Wired.view ⟨s, w.channels⟩ b =
      { w.view b with phase := s.phase b, sink := s.sink b } := by
    simp [Wired.view, Sys.stopChannel, hparent, hgeneration, hstopped]
  rw [hview]
  exact (h b).alike (hphase b) (hsink b)

/-- The same if a task goes on to a phase with the same ends. -/
lemma Wired.Sound.goto (h : w.Sound) {p q : Phase M} (ha : w.sys.phase a = p) (hpq : p.Alike q) :
    Wired.Sound ⟨w.sys.goto a q, w.channels⟩ := by
  refine h.alike (fun b => ?_) (fun _ => rfl) (fun _ => rfl) (fun _ => rfl) fun _ hb => hb
  by_cases hb : b = a
  · subst hb
    rw [Sys.goto_phase, Function.update_self, ha]
    exact hpq
  · rw [Sys.goto_phase, Function.update_of_ne hb]
    exact .refl _

/-- A task goes on, and some of its ends are dropped. -/
lemma Wiring.moved {v : View M} (h : Wiring a v) (hv : v.phase ≠ .unborn) {q : Phase M}
    (hq : q ≠ .unborn) {context : Option (Channel × Receiver)} {taken : Option Channel}
    {task : Option (Receiver × Receiver)}
    (hcontext : q.hasContext = true → v.phase.hasContext = true ∧ context = v.context)
    (hnoContext : q.hasContext = false → context = none) (htaken : q.awaiting = false)
    (hnotTaken : taken = none)
    (htask : q.running = true → ∃ n, task = some (⟨v.stopChannel, 0⟩, ⟨v.stopChannel, n⟩) ∧
      (q.stoppable = true → n = 0))
    (hnoTask : q.running = false → task = none) :
    Wiring a { v with phase := q, context := context, taken := taken, task := task } where
  unborn := fun hu => absurd hu hq
  context := fun hc => by
    obtain ⟨hc, heq⟩ := hcontext hc
    dsimp only
    rw [heq]
    exact h.context hc
  noContext := hnoContext
  taken := fun hw => by
    dsimp only at hw
    rw [htaken] at hw
    cases hw
  notTaken := fun _ => hnotTaken
  version := h.version
  root := h.root
  task := htask
  noTask := hnoTask
  system := fun ch hch => by
    obtain ⟨hroot, -, hparent⟩ := h.system ch hch
    exact ⟨hroot, hq, hparent⟩
  owned := fun _ => h.owned hv

/-- What such a step leaves of the system. -/
lemma Wired.Sound.moved (h : w.Sound) {q : Phase M} {c : Channels}
    (hversion : c.version = w.channels.version) (hmade : c.made = w.channels.made)
    (hsystem : c.system = w.channels.system)
    (hcontexts : ∀ b, b ≠ a → c.context b = w.channels.context b)
    (htakens : ∀ b, b ≠ a → c.taken b = w.channels.taken b)
    (htasks : ∀ b, b ≠ a → c.task b = w.channels.task b)
    (hself : Wiring a { w.view a with
      phase := q, context := c.context a, taken := c.taken a, task := c.task a }) :
    Wired.Sound ⟨w.sys.goto a q, c⟩ := by
  refine h.update (a := a) (fun b hb => ?_) ?_
  · simp [Wired.view, Sys.stopChannel, hb, hversion, hmade, hsystem, hcontexts b hb, htakens b hb,
      htasks b hb]
  · have hview : Wired.view ⟨w.sys.goto a q, c⟩ a = { w.view a with
        phase := q, context := c.context a, taken := c.taken a, task := c.task a } := by
      simp [Wired.view, Sys.stopChannel, hversion, hmade, hsystem]
    rw [hview]
    exact hself

/-- A task has seen that it is stopped. -/
lemma Wired.Sound.observed (h : w.Sound) {p q : Phase M} {rx clone : Receiver}
    (ha : w.sys.phase a = p) (hrx : w.channels.task a = some (rx, clone))
    (hp : p.hasContext = true ∧ p.awaiting = false)
    (hq : q.hasContext = true ∧ q.awaiting = false ∧ q.stoppable = false) :
    Wired.Sound ⟨w.sys.goto a q, w.channels.observe a rx clone⟩ := by
  subst ha
  obtain ⟨hctx, hawait, hstop⟩ := hq
  obtain ⟨n, htask, -⟩ := (h a).task (Phase.running_of_hasContext hp.1)
  obtain ⟨rfl, rfl⟩ : rx = _ ∧ clone = _ := by simpa using hrx.symm.trans htask
  refine h.moved rfl rfl rfl (fun _ _ => rfl) (fun _ _ => rfl)
    (fun b hb => Function.update_of_ne hb ..) ?_
  refine (h a).moved (Phase.born_of_hasContext hp.1) (Phase.born_of_hasContext hctx)
    (fun _ => ⟨hp.1, rfl⟩) (fun hc => ?_) hawait ((h a).notTaken hp.2)
    (fun _ => ⟨_, Function.update_self .., fun hs => ?_⟩) fun hr => ?_
  · rw [hctx] at hc
    cases hc
  · rw [hstop] at hs
    cases hs
  · rw [Phase.running_of_hasContext hctx] at hr
    cases hr

/-- **Every step** keeps the actors wired. -/
lemma Wired.Step.sound {l : Option (Label M)} (h : w.Sound) (hs : Wired.Step kind w l w') :
    w'.Sound := by
  cases hs with
  | @spawnRoot r hr =>
      refine h.update (a := r) (fun b hb => ?_) ?_
      · simp [Wired.view, Sys.stopChannel, hb]
      · have hparent : w.sys.parent r = none := ((h r).unborn hr).2.2.1
        refine (h r).spawned (k := kind r) hr ?_ rfl rfl ?_ ?_ rfl (fun g => ?_) ?_ (fun _ => ?_)
          fun ch hch => ?_ <;> simp_all [Wired.view, Channels.fresh, Sys.stopChannel]
  | @watchRoot r ws hborn hroot hsink hreg =>
      refine h.alike (fun _ => .refl _) (fun _ => rfl) (fun _ => rfl) (fun _ => rfl) fun b hb => ?_
      by_cases hbr : b = r
      · subst hbr
        exact hsink
      · rwa [Sys.setSink_sink, Function.update_of_ne hbr] at hb
  | @stop r ch hsystem =>
      obtain ⟨rfl, hborn, hroot⟩ := (h r).system ch hsystem
      refine h.update (a := r) (fun b hb => ?_) ?_
      · simp [Wired.view, Sys.stopChannel, hb]
      · have hview : Wired.view ⟨w.sys.setStopped r, w.channels.send (.root r)⟩ r =
            { w.view r with stopped := true, rootVersion := w.channels.version (.root r) + 1 } := by
          simp [Wired.view, Sys.stopChannel]
        rw [hview]
        exact { h r with
          unborn := fun hu => absurd hu hborn
          root := fun _ => by simp }
  | @dropSystem r hsink =>
      refine h.update (a := r) (fun b hb => ?_) ?_
      · simp [Wired.view, Sys.stopChannel, hb]
      · have hview : Wired.view ⟨w.sys, w.channels.disown r⟩ r =
            { w.view r with system := none } := by
          simp [Wired.view]
        rw [hview]
        exact { h r with
          system := fun _ hch => by cases hch
          owned := fun _ _ habsent => absurd habsent hsink }
  | @spawn a c cb tx rx ha hc hctx =>
      have hrx : rx = ⟨.children a (w.sys.generation a), 0⟩ := by
        have hcontext := ((h a).context (by change (w.sys.phase a).hasContext = _; rw [ha]; rfl)).2
        rw [show (w.view a).context = w.channels.context a from rfl, hctx] at hcontext
        exact (Prod.mk.inj (Option.some.inj hcontext)).2
      have hsystem : ∀ ch, w.channels.system c ≠ some ch := fun ch hch =>
        ((h c).system ch hch).2.1 hc
      refine h.update (a := c) (fun b hb => ?_) ?_
      · simp [Wired.view, Sys.stopChannel, hb]
      · refine (h c).spawned (k := kind c) hc ?_ rfl rfl ?_ ?_ rfl (fun g => ?_) ?_ (fun _ => ?_)
          fun ch hch => ?_ <;> simp_all [Wired.view, Channels.fresh, Sys.stopChannel]
  | recoverStopped ha hrx | stopped ha hrx | backoffStopped ha hrx =>
      exact h.observed ha hrx ⟨rfl, rfl⟩ ⟨rfl, rfl, rfl⟩
  | polled ha | probedStopped ha =>
      refine h.goto ha ?_
      constructor <;> simp [Phase.hasContext, Phase.awaiting, Phase.running, Phase.stoppable]
  | restarted ha | restartedAtOnce ha =>
      refine h.goto ha ?_
      rcases Phase.start_cases (kind _) with hk | hk <;> rw [hk] <;> constructor <;>
        simp [Phase.hasContext, Phase.awaiting, Phase.running, Phase.stoppable]
  | restart ha hc => exact hc.sound h (by rw [ha]; rfl) rfl fun _ => by rw [ha]; rfl
  | stopChildren ha hc => exact hc.sound h (by rw [ha]; rfl) rfl fun hs => by cases hs
  | childrenStopped ha =>
      obtain ⟨n, htask, hn⟩ := (h _).task (by change (w.sys.phase _).running = _; rw [ha]; rfl)
      refine h.moved rfl rfl rfl (fun _ _ => rfl) (fun b hb => Function.update_of_ne hb ..)
        (fun _ _ => rfl) ?_
      refine (h _).moved (by simp [Wired.view, ha]) (by simp) (fun _ => ⟨?_, rfl⟩)
        (fun hc => by cases hc) rfl (Function.update_self ..) (fun _ => ⟨n, htask, fun _ => hn ?_⟩)
        fun hr => by cases hr
      all_goals simp [Wired.view, ha, Phase.hasContext, Phase.stoppable]
  | childrenTerminated ha =>
      obtain ⟨n, htask, -⟩ := (h _).task (by change (w.sys.phase _).running = _; rw [ha]; rfl)
      refine h.moved rfl rfl rfl (fun b hb => Function.update_of_ne hb ..)
        (fun b hb => Function.update_of_ne hb ..) (fun _ _ => rfl) ?_
      exact (h _).moved (by simp [Wired.view, ha]) (by simp) (fun hc => by cases hc)
        (fun _ => Function.update_self ..) rfl (Function.update_self ..)
        (fun _ => ⟨n, htask, fun hs => by cases hs⟩) fun hr => by cases hr
  | finished ha =>
      refine h.moved rfl rfl rfl (fun _ _ => rfl) (fun _ _ => rfl)
        (fun b hb => Function.update_of_ne hb ..) ?_
      exact (h _).moved (by simp [Wired.view, ha]) (by simp) (fun hc => by cases hc)
        (fun _ => (h _).noContext (by simp [Wired.view, ha, Phase.hasContext])) rfl
        ((h _).notTaken (by simp [Wired.view, ha, Phase.awaiting])) (fun hr => by cases hr)
        fun _ => Function.update_self ..
  | other hs hl hphase =>
      refine h.alike (fun b => (hs.alike hl hphase b).1) (fun b => (hs.alike hl hphase b).2.1)
        (fun b => (hs.alike hl hphase b).2.2.1) (fun b => (hs.alike hl hphase b).2.2.2)
        fun b hb => ?_
      rcases hs.sink b with ⟨hsame, -⟩ | ⟨hwas, -⟩ | ⟨-, hres, -⟩
      · exact hsame ▸ hb
      · exact hwas
      · rw [hres] at hb
        cases hb

/-! ### Runs -/

/-- What a task which may still be stopped holds. -/
lemma Wired.Sound.receivers (h : w.Sound) {rx clone : Receiver}
    (ha : (w.sys.phase a).stoppable = true) (hrx : w.channels.task a = some (rx, clone)) :
    rx = ⟨w.sys.stopChannel a, 0⟩ ∧ clone = ⟨w.sys.stopChannel a, 0⟩ := by
  obtain ⟨n, htask, hn⟩ := (h a).task (h.running hrx).1
  obtain ⟨rfl, rfl⟩ : rx = _ ∧ clone = _ := by simpa using hrx.symm.trans htask
  rw [hn ha]
  exact ⟨rfl, rfl⟩

/-- Both receivers find what the system of actors says. -/
lemma Wired.Sound.ready (h : w.Sound) (hr : Tellus.Runs kind tr w.sys) {rx clone : Receiver}
    (ha : (w.sys.phase a).stoppable = true) (hrx : w.channels.task a = some (rx, clone)) :
    (w.Ready rx ↔ w.sys.Signalled a) ∧ (w.Ready clone ↔ w.sys.Signalled a) := by
  obtain ⟨rfl, rfl⟩ := h.receivers ha hrx
  exact ⟨ready_iff h hr ha, ready_iff h hr ha⟩

/-- **Every step with channels** is a step of the system of actors, or an actor system is
dropped. -/
lemma Wired.Step.simulates {l : Option (Label M)} (h : w.Sound)
    (hr : Tellus.Runs kind tr w.sys) (hs : Wired.Step kind w l w') :
    (l = none ∧ w'.sys = w.sys) ∨ ∃ l', l = some l' ∧ Tellus.Step kind w.sys l' w'.sys := by
  have stoppable : ∀ {a : ActorId} {p : Phase M}, w.sys.phase a = p → p.stoppable = true →
      (w.sys.phase a).stoppable = true := by
    rintro a p rfl hp
    exact hp
  have awaiting : ∀ {a : ActorId} {p : Phase M}, w.sys.phase a = p → p.awaiting = true →
      (w.sys.phase a).awaiting = true := by
    rintro a p rfl hp
    exact hp
  cases hs with
  | dropSystem => exact .inl ⟨rfl, rfl⟩
  | spawnRoot hr => exact .inr ⟨_, rfl, .spawnRoot hr⟩
  | watchRoot hborn hroot hsink hreg => exact .inr ⟨_, rfl, .watchRoot hborn hroot hsink hreg⟩
  | stop hsystem =>
      obtain ⟨-, hborn, hroot⟩ := (h _).system _ hsystem
      exact .inr ⟨_, rfl, .stop hborn hroot⟩
  | spawn ha hc => exact .inr ⟨_, rfl, .spawn ha hc⟩
  | recoverStopped ha hrx hready =>
      have hsig := (h.ready hr (stoppable ha rfl) hrx).2.mp hready
      exact .inr ⟨_, rfl, .move ha (.recoverStopped hsig)⟩
  | polled ha hrx hready =>
      have hsig := mt (h.ready hr (stoppable ha rfl) hrx).2.mpr hready
      exact .inr ⟨_, rfl, .move ha (.polled hsig)⟩
  | stopped ha hrx hready =>
      have hsig := (h.ready hr (stoppable ha rfl) hrx).2.mp hready
      exact .inr ⟨_, rfl, .move ha (.stopped hsig)⟩
  | restart ha => exact .inr ⟨_, rfl, .restart ha⟩
  | childrenStopped ha hch hclosed =>
      have hgone := (received_iff h hr (awaiting ha rfl) hch).mp hclosed
      exact .inr ⟨_, rfl, .move ha (.childrenStopped hgone)⟩
  | backoffStopped ha hrx hready =>
      have hsig := (h.ready hr (stoppable ha rfl) hrx).2.mp hready
      exact .inr ⟨_, rfl, .move ha (.backoffStopped hsig)⟩
  | restarted ha hrx hready =>
      have hsig := mt (h.ready hr (stoppable ha rfl) hrx).2.mpr hready
      exact .inr ⟨_, rfl, .move ha (.restarted hsig)⟩
  | probedStopped ha hrx hready =>
      have hsig := (h.ready hr (stoppable ha rfl) hrx).1.mp hready
      exact .inr ⟨_, rfl, .move ha (.backoffStopped hsig)⟩
  | restartedAtOnce ha hrx hready =>
      have hsig := mt (h.ready hr (stoppable ha rfl) hrx).1.mpr hready
      exact .inr ⟨_, rfl, .move ha (.restarted hsig)⟩
  | stopChildren ha => exact .inr ⟨_, rfl, .stopChildren ha⟩
  | childrenTerminated ha hch hclosed =>
      have hgone := (received_iff h hr (awaiting ha rfl) hch).mp hclosed
      exact .inr ⟨_, rfl, .move ha (.childrenTerminated hgone)⟩
  | finished ha => exact .inr ⟨_, rfl, .move ha .finished⟩
  | other hs => exact .inr ⟨_, rfl, hs⟩

/-- A run with channels is a run without them, and the actors stay wired. -/
lemma Wired.Runs.sound {tr : List (Option (Label M))} (h : Wired.Runs kind tr w) :
    w.Sound ∧ Tellus.Runs kind tr.reduceOption w.sys := by
  induction h with
  | nil => exact ⟨.init, .nil⟩
  | snoc _ hs ih =>
      obtain ⟨hsound, hr⟩ := ih
      refine ⟨hs.sound hsound, ?_⟩
      rw [List.reduceOption_append]
      rcases hs.simulates hsound hr with ⟨rfl, hsame⟩ | ⟨l, rfl, hstep⟩
      · rw [hsame]
        simpa using hr
      · simpa using hr.snoc hstep

/-- **The stop channels do what they are for.**  Whatever actors are spawned, fail, restart and
stop, and whichever actor systems are dropped: a run with channels is a run of the system of
actors.  As long as an actor may look whether it is stopped, each of its two receivers finds so
exactly if its parent or `ActorSystem::stop` has stopped it, so that no stop is missed and nobody
is stopped by a sender which has merely gone.  And `stop_children`, while it waits, ends exactly
once all the children it has stopped have finished, never kept open by the actor's own receiver
and never ahead of a child. -/
theorem stop_channels {tr : List (Option (Label M))} (h : Wired.Runs kind tr w) :
    Tellus.Runs kind tr.reduceOption w.sys ∧
    (∀ a, (w.sys.phase a).stoppable = true → ∃ rx clone,
      w.channels.task a = some (rx, clone) ∧ (w.Ready rx ↔ w.sys.Signalled a) ∧
        (w.Ready clone ↔ w.sys.Signalled a)) ∧
    ∀ a, (w.sys.phase a).awaiting = true → ∃ ch,
      w.channels.taken a = some ch ∧ (¬w.Received ch ↔ w.sys.ChildrenGone a) := by
  obtain ⟨hsound, hr⟩ := h.sound
  refine ⟨hr, fun a ha => ?_, fun a ha => ?_⟩
  · have hrun : (w.sys.phase a).running = true := by
      cases hphase : w.sys.phase a <;> first | rfl | (rw [hphase] at ha; cases ha)
    obtain ⟨n, htask, -⟩ := (hsound a).task hrun
    exact ⟨_, _, htask, hsound.ready hr ha htask⟩
  · obtain ⟨g, -, htaken⟩ := (hsound a).taken ha
    exact ⟨_, htaken, received_iff hsound hr ha htaken⟩

/-- Dropping an actor system stops nothing: its root is idle, and its receiver finds no stop,
although nobody is left who could call `ActorSystem::stop`. -/
theorem stop_channels_dropped : ∃ tr w, Wired.Runs (M := Unit) (fun _ => .plain) tr w ∧
    w.channels.system parentId = none ∧ w.sys.phase parentId = .idle ∧
    ∃ rx clone, w.channels.task parentId = some (rx, clone) ∧ ¬w.Ready rx ∧ ¬w.Ready clone := by
  have h : Wired.Runs (M := Unit) (fun _ => .plain) [] Wired.init := .nil
  have h := h.snoc (.spawnRoot (r := parentId) rfl)
  have h := h.snoc (.watchRoot (r := parentId) (by simp [Phase.start]) rfl rfl rfl)
  have h := h.snoc (.dropSystem (r := parentId) (by simp))
  have h := h.snoc (.other (.move (a := parentId) rfl (.returned (.initialised _))) rfl
    fun a ha => by
      obtain rfl : a = parentId := by
        by_contra hne
        simp [hne] at ha
      rfl)
  obtain ⟨rx, clone, htask, hrx, hclone⟩ := (stop_channels h).2.1 parentId rfl
  exact ⟨_, _, h, rfl, rfl, rx, clone, htask, mt hrx.mp (Sys.not_signalled_root rfl rfl),
    mt hclone.mp (Sys.not_signalled_root rfl rfl)⟩

end Tellus
