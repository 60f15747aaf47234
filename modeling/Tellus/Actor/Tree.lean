import Mathlib.Tactic
import Tellus.Actor.Conversation

/-!
Termination is bottom-up: the stop channels of `stop_children`, the order of signals along the
tree, and the oneshot behind `ActorSystem::terminated`.

A child holds a receiver of the stop channel of the generation it was spawned in.  `Tree` says
which generations can still have a child: the current one, and while its actor waits in
`stop_children` the one just replaced.

* `Tree.descendants_finished`: once an actor is past `stop_children`, nothing below it is left.
* `signals_bottom_up`: a watcher of both is handed the signal of a descendant before that of its
  ancestor.
* `termination_bottom_up`: all of this, and what it means for restarts and for the oneshot.
-/

namespace Tellus

open Concurrent

variable {M : Type} {kind : ActorId → Kind} {s s' t : Sys M} {l : Label M} {w x a : ActorId}
  {tr tr' : List (Label M)} {p q : Phase M}

/-! ### What a step does to the tree -/

/-- Past the point where `stop_children` replaces the stop channel, and before the next callback
which could spawn. -/
def Phase.pastReplace : Phase M → Bool
  | .restarting => true
  | .backoff => true
  | .terminating .awaitChildren => true
  | .terminating .dropActor => true
  | .terminating .takeWatchers => true
  | .terminating (.signal _) => true
  | .finished => true
  | _ => false

lemma Phase.pastReplace_of_closed (h : p.closed = true) : p.pastReplace = true := by
  cases p with
  | terminating t => cases t <;> simp_all [closed, pastReplace]
  | _ => simp_all [closed, pastReplace]

lemma Phase.not_awaiting_of_closed (h : p.closed = true) : p.awaiting = false := by
  cases p with
  | terminating t => cases t <;> simp_all [closed, awaiting]
  | _ => simp_all [closed, awaiting]

/-- A move gets past the replacement only from past it, and leaves `stop_children` only once the
children are gone. -/
lemma Move.pastReplace (h : Move kind s a p l q) :
    (q.pastReplace = true → p.pastReplace = true) ∧
      (p.awaiting = true → q.awaiting = true ∨ s.ChildrenGone a) ∧ p ≠ .finished := by
  cases h with
  | returned h =>
      rcases h.to with rfl | rfl | rfl | rfl | rfl <;> simp [Phase.pastReplace, Phase.awaiting]
  | dropped fails => cases fails <;> simp [Phase.pastReplace, Phase.awaiting]
  | restarted =>
      rcases Phase.start_cases (kind a) with h | h <;> rw [h] <;>
        simp [Phase.pastReplace, Phase.awaiting]
  | childrenStopped h => exact ⟨fun _ => rfl, fun _ => .inr h, by simp⟩
  | childrenTerminated h => exact ⟨fun _ => rfl, fun _ => .inr h, by simp⟩
  | _ => simp [Phase.pastReplace, Phase.awaiting]

/-- **What a step does to the parents**: nothing, or a callback spawns a child of its actor's
current generation. -/
lemma Step.parent (hs : Step kind s l s') :
    s'.parent = s.parent ∨
      ∃ a c cb, s.phase a = .calling cb .none ∧ s.phase c = .unborn ∧
        s'.phase c = .start (kind c) ∧ s'.phase a = s.phase a ∧
        s'.parent = Function.update s.parent c (some (a, s.generation a)) ∧
        s'.generation = s.generation := by
  cases hs with
  | @spawn a c cb ha hc =>
      have hne : a ≠ c := by
        rintro rfl
        rw [ha] at hc
        cases hc
      exact .inr ⟨a, c, cb, ha, hc, by simp, by simp [Function.update_of_ne hne], rfl, rfl⟩
  | _ => exact .inl rfl

/-- What a callback which spawns finds and leaves. -/
lemma Step.spawned {c : ActorId} (hs : Step kind s (.spawn a c) s') :
    s.phase c = .unborn ∧ s'.phase c = .start (kind c) ∧ ∃ g, s'.parent c = some (a, g) := by
  cases hs with
  | move _ hm => cases hm
  | spawn ha hc => exact ⟨hc, by simp, s.generation a, by simp⟩

/-- **What a step does to the stop channel of `a`**: nothing, or `stop_children` replaces it. -/
lemma Step.generation (hs : Step kind s l s') (a : ActorId) :
    s'.generation a = s.generation a ∨
      s'.generation a = s.generation a + 1 ∧ (s.phase a).awaiting = false ∧
        (s'.phase a).awaiting = true := by
  cases hs with
  | @restart b hb | @stopChildren b hb =>
      by_cases ha : a = b
      · subst ha
        exact .inr ⟨by simp, by rw [hb]; rfl, by simp [Phase.awaiting]⟩
      · exact .inl (by simp [Function.update_of_ne ha])
  | _ => exact .inl rfl

/-- A finished actor stays finished. -/
lemma Step.finished (hs : Step kind s l s') (h : s.phase x = .finished) : s'.phase x = .finished := by
  cases hs with
  | move ha hm =>
      refine phase_update_of_ne h ha fun hp => ?_
      exact hm.pastReplace.2.2 hp
  | spawnRoot ha | spawn _ ha | watchAdded ha | watchMapped ha | watchSignals ha | unwatch ha
  | unwatchRemoved ha | take ha | handSignal ha | restart ha | stopChildren ha | drain ha
  | takeWatched ha | deregister ha | takeWatchers ha | signal ha | signalRoot ha
  | signalRootAgain ha => exact phase_update_of_ne h ha (by simp)
  | _ => exact h

/-- An actor leaves `stop_children` only once its children are gone. -/
lemma Step.awaiting (hs : Step kind s l s') (h : (s.phase a).awaiting = true) :
    (s'.phase a).awaiting = true ∧ s'.generation a = s.generation a ∨ s.ChildrenGone a := by
  -- another actor goes on, because this one is not where the step starts
  have keep : ∀ {b : ActorId} {p q : Phase M}, s.phase b = p → p.awaiting = false →
      (Function.update s.phase b q a).awaiting = true ∧ a ≠ b := by
    intro b p q hb hp
    have hne : a ≠ b := by
      rintro rfl
      rw [hb, hp] at h
      cases h
    rw [Function.update_of_ne hne]
    exact ⟨h, hne⟩
  cases hs with
  | @move b l p q hb hm =>
      by_cases hab : a = b
      · subst hab
        rw [hb] at h
        rcases hm.pastReplace.2.1 h with hq | hgone
        · exact .inl ⟨by simpa using hq, rfl⟩
        · exact .inr hgone
      · exact .inl ⟨by simpa [Function.update_of_ne hab] using h, rfl⟩
  | restart hb | stopChildren hb =>
      obtain ⟨hawait, hne⟩ := keep hb rfl
      exact .inl ⟨hawait, by simp [Function.update_of_ne hne]⟩
  | spawnRoot hb | spawn _ hb | watchAdded hb | watchMapped hb | watchSignals hb | unwatch hb
  | unwatchRemoved hb | take hb | handSignal hb | drain hb | takeWatched hb | deregister hb
  | takeWatchers hb | signal hb | signalRoot hb | signalRootAgain hb =>
      exact .inl ⟨(keep hb rfl).1, rfl⟩
  | _ => exact .inl ⟨h, rfl⟩

/-- An actor gets past the replacement of its stop channel by replacing it. -/
lemma Step.pastReplace (hs : Step kind s l s') (h : (s'.phase a).pastReplace = true) :
    (s.phase a).pastReplace = true ∨ s'.generation a = s.generation a + 1 := by
  have back : ∀ {b : ActorId} {p q : Phase M}, s.phase b = p →
      (q.pastReplace = true → p.pastReplace = true) →
      (Function.update s.phase b q a).pastReplace = true → (s.phase a).pastReplace = true := by
    intro b p q hb hq h
    by_cases hab : a = b
    · subst hab
      rw [Function.update_self] at h
      rw [hb]
      exact hq h
    · rwa [Function.update_of_ne hab] at h
  cases hs with
  | move hb hm => exact .inl (back hb hm.pastReplace.1 h)
  | spawnRoot hb | spawn _ hb =>
      refine .inl (back hb (fun hq => ?_) h)
      rcases Phase.start_cases (kind _) with hk | hk <;> rw [hk] at hq <;> cases hq
  | @restart b hb | @stopChildren b hb =>
      by_cases hab : a = b
      · subst hab
        exact .inr (by simp)
      · exact .inl (by simpa [Function.update_of_ne hab] using h)
  | watchAdded hb | watchMapped hb | watchSignals hb | unwatch hb | unwatchRemoved hb | take hb
  | handSignal hb | drain hb | takeWatched hb | deregister hb =>
      exact .inl (back hb (fun hq => by cases hq) h)
  | takeWatchers hb | signal hb | signalRoot hb | signalRootAgain hb =>
      exact .inl (back hb (fun _ => rfl) h)
  | _ => exact .inl h

/-! ### The invariant -/

/-- What holds between an actor `a` and a child `c` of its generation `g`. -/
structure ChildOf (s : Sys M) (c a : ActorId) (g : ℕ) : Prop where
  born : s.phase a ≠ .unborn
  bound : g ≤ s.generation a
  past : (s.phase a).pastReplace = true → g < s.generation a
  /-- The children of a replaced channel are gone, except for those being waited for. -/
  gone : g < s.generation a →
    s.phase c = .finished ∨ (s.phase a).awaiting = true ∧ g + 1 = s.generation a

/-- What holds of parents and children. -/
structure Tree (s : Sys M) : Prop where
  unborn : ∀ c, s.phase c = .unborn → s.parent c = none
  child : ∀ c a g, s.parent c = some (a, g) → ChildOf s c a g

lemma Tree.init : Tree (Sys.init : Sys M) where
  unborn := fun _ _ => rfl
  child := fun _ _ _ h => by cases h

/-- **Every step keeps an actor and its child in order.** -/
lemma ChildOf.step {c : ActorId} {g : ℕ} (h : ChildOf s c a g) (hc : s.parent c = some (a, g))
    (hs : Step kind s l s') : ChildOf s' c a g where
  born := hs.born h.born
  bound := by
    have := h.bound
    rcases hs.generation a with hg | ⟨hg, -⟩ <;> omega
  past := fun hpast => by
    have := h.bound
    rcases hs.pastReplace hpast with hpast | hg
    · have := h.past hpast
      rcases hs.generation a with hg | ⟨hg, -⟩ <;> omega
    · omega
  gone := fun hlt => by
    have hbound := h.bound
    rcases hs.generation a with hg | ⟨hg, hnot, hawait⟩
    · rw [hg] at hlt ⊢
      rcases h.gone hlt with hfin | ⟨hawait, hg'⟩
      · exact .inl (hs.finished hfin)
      · rcases hs.awaiting hawait with ⟨hawait', -⟩ | hgone
        · exact .inr ⟨hawait', hg'⟩
        · exact .inl (hs.finished (hgone c g hc hg'))
    · -- the channel is replaced now: its own generation is waited for, the earlier ones are gone
      rcases Nat.lt_or_ge g (s.generation a) with hlt' | hge
      · rcases h.gone hlt' with hfin | ⟨hawait', -⟩
        · exact .inl (hs.finished hfin)
        · rw [hnot] at hawait'
          cases hawait'
      · exact .inr ⟨hawait, by omega⟩

/-- A child just spawned is of the current generation. -/
lemma ChildOf.spawned {c : ActorId} {cb : Callback} (ha : s'.phase a = .calling cb .none) :
    ChildOf s' c a (s'.generation a) where
  born := by rw [ha]; simp
  bound := le_refl _
  past := fun hpast => by
    rw [ha] at hpast
    cases hpast
  gone := fun hlt => absurd hlt (lt_irrefl _)

/-- **Every step keeps the tree.** -/
lemma Tree.step (h : Tree s) (hs : Step kind s l s') : Tree s' := by
  have hunborn : ∀ c, s'.phase c = .unborn → s.parent c = none := by
    intro c hc
    refine h.unborn c ?_
    by_contra hborn
    exact hs.born hborn hc
  rcases hs.parent with hp | ⟨a, c, cb, ha, -, hc, ha', hp, hg⟩
  · refine ⟨fun c hc => hp ▸ hunborn c hc, fun c a g hc => ?_⟩
    rw [hp] at hc
    exact (h.child c a g hc).step hc hs
  · refine ⟨fun d hd => ?_, fun d b g hd => ?_⟩
    · have hne : d ≠ c := by
        rintro rfl
        rw [hd] at hc
        rcases Phase.start_cases (kind d) with hk | hk <;> rw [hk] at hc <;> cases hc
      rw [hp, Function.update_of_ne hne]
      exact hunborn d hd
    · by_cases hdc : d = c
      · rw [hp, hdc, Function.update_self, Option.some.injEq, Prod.mk.injEq] at hd
        obtain ⟨rfl, rfl⟩ := hd
        rw [← hg]
        exact .spawned (ha'.trans ha)
      · rw [hp, Function.update_of_ne hdc] at hd
        exact (h.child d b g hd).step hd hs

/-- The tree of every run. -/
lemma Runs.tree (h : Runs kind tr s) : Tree s :=
  Run.invariant h Tree.init fun _ _ _ ht hs => ht.step hs

/-! ### Descendants -/

/-- `d` is below `a` in the tree. -/
def Sys.Descendant (s : Sys M) (d a : ActorId) : Prop :=
  Relation.TransGen (fun c b => ∃ g, s.parent c = some (b, g)) d a

/-- The children of an actor past `stop_children` have finished. -/
lemma Tree.child_finished (h : Tree s) {c : ActorId} {g : ℕ} (hc : s.parent c = some (a, g))
    (hpast : (s.phase a).pastReplace = true) (hdone : (s.phase a).awaiting = false) :
    s.phase c = .finished := by
  have hchild := h.child c a g hc
  rcases hchild.gone (hchild.past hpast) with hfin | ⟨hawait, -⟩
  · exact hfin
  · rw [hdone] at hawait
    cases hawait

/-- **Nothing is left below an actor past `stop_children`.** -/
lemma Tree.descendants_finished (h : Tree s) (hpast : (s.phase a).pastReplace = true)
    (hdone : (s.phase a).awaiting = false) {d : ActorId} (hd : s.Descendant d a) :
    s.phase d = .finished := by
  induction hd using Relation.TransGen.head_induction_on with
  | single hc =>
      obtain ⟨g, hc⟩ := hc
      exact h.child_finished hc hpast hdone
  | head hc _ ih =>
      obtain ⟨g, hc⟩ := hc
      exact h.child_finished hc (by rw [ih]; rfl) (by rw [ih]; rfl)

/-- Nothing is left below an actor which leaves `stop_children`. -/
lemma Tree.descendants_finished_of_gone (h : Tree s) (hawait : (s.phase a).awaiting = true)
    (hgone : s.ChildrenGone a) {d : ActorId} (hd : s.Descendant d a) :
    s.phase d = .finished := by
  have hpast : (s.phase a).pastReplace = true := by
    cases hp : s.phase a with
    | terminating t => cases t <;> simp_all [Phase.awaiting, Phase.pastReplace]
    | _ => simp_all [Phase.awaiting, Phase.pastReplace]
  induction hd using Relation.TransGen.head_induction_on with
  | single hc =>
      obtain ⟨g, hc⟩ := hc
      have hchild := h.child _ a g hc
      rcases hchild.gone (hchild.past hpast) with hfin | ⟨-, hg⟩
      · exact hfin
      · exact hgone _ g hc hg
  | head hc _ ih =>
      obtain ⟨g, hc⟩ := hc
      exact h.child_finished hc (by rw [ih]; rfl) (by rw [ih]; rfl)

/-- A descendant stays one. -/
lemma Tree.descendant_step (h : Tree s) (hs : Step kind s l s') {d : ActorId}
    (hd : s.Descendant d a) : s'.Descendant d a := by
  refine Relation.TransGen.mono (fun c b hc => ?_) d a hd
  obtain ⟨g, hc⟩ := hc
  refine ⟨g, ?_⟩
  rcases hs.parent with hp | ⟨a', c', cb, -, hunborn, -, -, hp, -⟩
  · rwa [hp]
  · have hne : c ≠ c' := by
      rintro rfl
      rw [h.unborn c hunborn] at hc
      cases hc
    rwa [hp, Function.update_of_ne hne]

/-! ### The order of signals -/

/-- `w` watches `d` and is notified of it before it is notified of `a`. -/
structure Ahead (s : Sys M) (w d a : ActorId) : Prop where
  watched : d ∈ s.watched w
  notified : Notified s w d
  first : ∀ before after, s.inbox w = before ++ .terminated a :: after → .terminated d ∈ before

/-- The signal of a finished actor is in the mailbox of whoever is notified of it. -/
lemma Notified.inbox {d : ActorId} (h : Notified s w d) (hinv : Watching s)
    (hfin : s.phase d = .finished) : .terminated d ∈ s.inbox w := by
  have hclosed : s.registry d = none := (hinv.closed d).mpr (by rw [hfin]; rfl)
  rcases h with ⟨ws, hreg, -⟩ | ⟨todo, hph, -⟩ | hq | ht
  · rw [hclosed] at hreg
    cases hreg
  · rw [hfin] at hph
    cases hph
  · exact List.mem_append_right _ hq
  · rw [Sys.inbox, ht]
    exact List.mem_cons_self

/-- A signal enters a mailbox only once the registry of its actor is closed. -/
lemma Step.sent_closed (hs : Step kind s (.send w (.terminated x)) s') (hinv : Watching s) :
    (s.phase x).closed = true := by
  obtain ⟨-, -, hwhy⟩ := hs.sent
  rcases hwhy with ⟨m, hm⟩ | ⟨b, m, hm, -⟩ | ⟨y, todo, hy, hsig⟩ | ⟨y, cb, hy, hmap⟩
  · cases hm
  · cases hm
  · cases hy
    rw [hsig]
    rfl
  · cases hy
    exact hinv.mapped w cb x hmap

/-- **The signal of a descendant stays ahead** until it is handed over or suppressed. -/
lemma Ahead.step {d : ActorId} (h : Ahead s w d a) (hinv : Watching s) (htree : Tree s)
    (hd : s.Descendant d a) (hs : Step kind s l s') (hlive : (s.phase w).live = true)
    (hlive' : (s'.phase w).live = true) (hunwatch : l ≠ .unwatch w d)
    (hhand : l ≠ .hand w (.terminated d)) : Ahead s' w d a where
  watched := by
    rcases hs.watched w with hsame | ⟨cb, y, ok, -, -, hins⟩ | ⟨y, herase, hl⟩ | ⟨-, -, hph⟩
    · rw [hsame]
      exact h.watched
    · rw [hins]
      exact Finset.mem_insert_of_mem h.watched
    · rw [herase]
      refine Finset.mem_erase.mpr ⟨fun hdy => ?_, h.watched⟩
      subst hdy
      rcases hl with hl | hl
      · exact hunwatch hl
      · exact hhand hl
    · rw [hph] at hlive'
      cases hlive'
  notified := by
    refine h.notified.step hs hlive hlive' hhand (fun hl => ?_) fun cb hcb => ?_
    · subst hl
      exact hs.discarded.2.1 h.watched
    · exact hinv.unmapped w cb d hcb h.watched
  first := fun before after hsplit => by
    have hbox := hs.inbox (.inl hlive')
    rw [hsplit] at hbox
    rcases sends_single w l with hnil | ⟨item, rfl, hone, hnone⟩
    · -- nothing enters the mailbox, and neither signal leaves it
      rw [hnil, List.append_nil, ← List.append_assoc] at hbox
      rcases List.mem_append.mp (h.first _ _ hbox) with hmem | hmem
      · rcases mem_consumed_single hmem with hl | ⟨y, hy, rfl⟩
        · exact absurd hl hhand
        · cases hy
          exact absurd h.watched hs.discarded.2.1
      · exact hmem
    · rw [hone, hnone, List.nil_append] at hbox
      rcases List.eq_nil_or_concat after with rfl | ⟨after', last, rfl⟩
      · -- the ancestor is signalled for: everything below it has finished before
        obtain ⟨rfl, hitem⟩ := List.append_inj' hbox rfl
        obtain rfl := List.singleton_inj.mp hitem
        have hclosed := hs.sent_closed hinv
        exact h.notified.inbox hinv (htree.descendants_finished
          (Phase.pastReplace_of_closed hclosed) (Phase.not_awaiting_of_closed hclosed) hd)
      · rw [List.concat_eq_append, ← List.cons_append, ← List.append_assoc] at hbox
        obtain ⟨hbox, -⟩ := List.append_inj' hbox rfl
        exact h.first before after' hbox

/-- `w` is registered with `x`: its `watch` has returned, and it has not called `unwatch`. -/
def Sys.Registered (s : Sys M) (w x : ActorId) : Prop :=
  (∃ ws, s.registry x = some ws ∧ .actor w ∈ ws) ∧ x ∈ s.watched w

/-- As long as it is not handed over, the signal of a descendant is ahead of that of its
ancestor. -/
lemma Ahead.run {d : ActorId} (h : Runs kind tr s) (hd : s.Descendant d a)
    (hregd : s.Registered w d) (hrega : s.Registered w a) (hrun : Run (Step kind) s tr' t)
    (hunwatch : .unwatch w d ∉ tr') :
    t.Descendant d a ∧ t.phase w ≠ .unborn ∧
      (.hand w (.terminated d) ∈ tr' ∨ ((t.phase w).live = true → Ahead t w d a)) := by
  induction hrun with
  | nil =>
      refine ⟨hd, fun hunborn => ?_,
        .inr fun _ => ⟨hregd.2, .inl hregd.1, fun before after hsplit => ?_⟩⟩
      · have := hregd.2
        rw [(Runs.watching h).unborn w hunborn] at this
        cases this
      · have hclosed := (Runs.watching h).inbox (w := w) (x := a) (by rw [hsplit]; simp)
        obtain ⟨ws, hreg, -⟩ := hrega.1
        rw [((Runs.watching h).closed a).mpr hclosed] at hreg
        cases hreg
  | @snoc tr' l t u hrun hs ih =>
      obtain ⟨hd, hborn, ih⟩ := ih fun hmem => hunwatch (List.mem_append_left _ hmem)
      have ht := Run.trans h hrun
      refine ⟨(Runs.tree ht).descendant_step hs hd, hs.born hborn, ?_⟩
      rcases ih with hmem | hahead
      · exact .inl (List.mem_append_left _ hmem)
      by_cases hhand : l = .hand w (.terminated d)
      · exact .inl (by rw [hhand]; simp)
      refine .inr fun hlive' => ?_
      have hlive : (t.phase w).live = true :=
        (hs.live hlive').resolve_right fun ⟨hunborn, _⟩ => hborn hunborn
      exact (hahead hlive).step (Runs.watching ht) (Runs.tree ht) hd hs hlive hlive'
        (fun hl => hunwatch (by rw [hl]; simp)) hhand

/-- **A watcher of both is handed the signal of a descendant before that of its ancestor**, unless
it stops watching the descendant. -/
lemma signals_bottom_up {d : ActorId} {before after : List (Label M)} (h : Runs kind tr s)
    (hd : s.Descendant d a) (hregd : s.Registered w d) (hrega : s.Registered w a)
    (hrun : Run (Step kind) s (before ++ .hand w (.terminated a) :: after) t) :
    .hand w (.terminated d) ∈ before ∨ .unwatch w d ∈ before := by
  by_cases hunwatch : .unwatch w d ∈ before
  · exact .inr hunwatch
  obtain ⟨u, u', hbefore, hs, -⟩ := hrun.split
  obtain ⟨-, -, hmem | hahead⟩ := Ahead.run h hd hregd hrega hbefore hunwatch
  · exact .inl hmem
  · have htaking := hs.handed.1
    have hfirst := (hahead (by rw [htaking]; rfl)).first [] (u.queue w)
      (by rw [Sys.inbox, htaking]; rfl)
    cases hfirst

/-! ### The oneshot -/

/-- **What a step does to a oneshot**: nothing, or `watch_root` registers it, or it is resolved
by whoever finds the registry closed. -/
lemma Step.sink (hs : Step kind s l s') (r : ActorId) :
    (s'.sink r = s.sink r ∧ l ≠ .resolve r) ∨
      (s.sink r = .absent ∧ s'.sink r = .armed ∧ l ≠ .resolve r ∧
        ∃ ws, s'.registry r = some ws ∧ .root ∈ ws) ∨
      s.sink r ≠ .resolved ∧ s'.sink r = .resolved ∧ l = .resolve r ∧
        (s.registry r = none ∨ (s.phase r).closed = true) := by
  cases hs with
  | @watchRoot r' ws hborn hroot hsink h =>
      by_cases hr : r = r'
      · subst hr
        exact .inr (.inl ⟨hsink, by simp, by simp, insert .root ws, by simp, by simp⟩)
      · exact .inl ⟨by simp [Function.update_of_ne hr], by simp⟩
  | @watchRootLate r' hborn hroot hsink h =>
      by_cases hr : r = r'
      · subst hr
        exact .inr (.inr ⟨by rw [hsink]; simp, by simp, rfl, .inl h⟩)
      · have hr' : r' ≠ r := fun h => hr h.symm
        exact .inl ⟨by simp [Function.update_of_ne hr], by simpa using hr'⟩
  | @signalRoot a todo ha h hsink =>
      by_cases hr : r = a
      · subst hr
        exact .inr (.inr ⟨by rw [hsink]; simp, by simp, rfl, .inr (by rw [ha]; rfl)⟩)
      · have hr' : a ≠ r := fun h => hr h.symm
        exact .inl ⟨by simp [Function.update_of_ne hr], by simpa using hr'⟩
  | move _ hm => exact .inl ⟨rfl, by rintro rfl; cases hm⟩
  | _ => exact .inl ⟨rfl, by simp⟩

/-- The oneshot of `r` is resolved. -/
def Label.resolves (r : ActorId) : Label M → Bool
  | .resolve r' => r' = r
  | _ => false

lemma Label.resolves_iff {r : ActorId} : l.resolves r = true ↔ l = .resolve r := by
  cases l <;> simp [resolves]

/-- The oneshot is registered, or about to be resolved. -/
def Armed (s : Sys M) (r : ActorId) : Prop :=
  (∃ ws, s.registry r = some ws ∧ .root ∈ ws) ∨
    ∃ todo, s.phase r = .terminating (.signal todo) ∧ .root ∈ todo

/-- What holds of the oneshot of a root. -/
structure Oneshot (tr : List (Label M)) (s : Sys M) (r : ActorId) : Prop where
  count : tr.countP (Label.resolves r) = if s.sink r = .resolved then 1 else 0
  armed : s.sink r = .armed → Armed s r
  resolved : s.sink r = .resolved → (s.phase r).closed = true

/-- A registered oneshot stays registered until it is resolved. -/
lemma Armed.step {r : ActorId} (h : Armed s r) (hs : Step kind s l s') (hl : l ≠ .resolve r)
    (hsink : s.sink r = .armed) : Armed s' r := by
  rcases h with ⟨ws, hreg, hroot⟩ | ⟨todo, hphase, hroot⟩
  · rcases hs.registry r with hsame | ⟨v, ws', hws', hadd, -⟩ | ⟨a, hrem, -⟩ | ⟨-, htake, -⟩
    · exact .inl ⟨ws, hsame.trans hreg, hroot⟩
    · obtain rfl : ws = ws' := by simpa using hreg.symm.trans hws'
      exact .inl ⟨_, hadd, Finset.mem_insert_of_mem hroot⟩
    · refine .inl ⟨ws.erase (.actor a), ?_, Finset.mem_erase.mpr ⟨by simp, hroot⟩⟩
      rw [hrem, Sys.removed, hreg, Option.map_some]
    · refine .inr ⟨_, htake, ?_⟩
      rw [hreg]
      exact hroot
  · rcases hs.signalling hphase with hsame | ⟨rfl, -⟩ | ⟨v, -, herase, -, hwhy⟩
    · exact .inr ⟨todo, hsame, hroot⟩
    · exact absurd hroot (Finset.notMem_empty _)
    · refine .inr ⟨_, herase, Finset.mem_erase.mpr ⟨fun hv => ?_, hroot⟩⟩
      rcases hwhy hv.symm with hl' | hne
      · exact hl hl'
      · exact hne hsink

/-- **Every step keeps a oneshot in order.** -/
lemma Oneshot.step {r : ActorId} (h : Oneshot tr s r) (hinv : Watching s)
    (hs : Step kind s l s') : Oneshot (tr ++ [l]) s' r := by
  rcases hs.sink r with ⟨hsame, hl⟩ | ⟨habsent, harmed, hl, hreg⟩ | ⟨hnot, hres, rfl, hwhy⟩
  · have hcount : l.resolves r ≠ true := fun h => hl (Label.resolves_iff.mp h)
    refine ⟨?_, fun harmed => ?_, fun hres => ?_⟩
    · rw [List.countP_append, List.countP_singleton, hsame, h.count, if_neg hcount, Nat.add_zero]
    · rw [hsame] at harmed
      exact (h.armed harmed).step hs hl harmed
    · rw [hsame] at hres
      exact hs.closed (h.resolved hres)
  · have hcount : l.resolves r ≠ true := fun h => hl (Label.resolves_iff.mp h)
    refine ⟨?_, fun _ => .inl hreg, fun hres => ?_⟩
    · rw [List.countP_append, List.countP_singleton, h.count, habsent, harmed, if_neg hcount]
      simp
    · rw [harmed] at hres
      cases hres
  · have hclosed : (s.phase r).closed = true := hwhy.elim (hinv.closed r).mp id
    refine ⟨?_, fun harmed => ?_, fun _ => hs.closed hclosed⟩
    · rw [List.countP_append, List.countP_singleton, h.count, hres, if_neg hnot]
      simp [Label.resolves]
    · rw [hres] at harmed
      cases harmed

/-- The oneshots of every run. -/
lemma Runs.oneshot (h : Runs kind tr s) (r : ActorId) : Oneshot tr s r := by
  refine Run.induction (P := fun tr s => Oneshot tr s r) h ?_
    fun _ _ _ _ hrun ht hs => ht.step (Runs.watching hrun) hs
  exact ⟨rfl, fun h => (by cases h), fun h => (by cases h)⟩

/-- A oneshot is resolved by the time its root has finished. -/
lemma Oneshot.finished {r : ActorId} (h : Oneshot tr s r) (hinv : Watching s)
    (hfin : s.phase r = .finished) (hsink : s.sink r ≠ .absent) : s.sink r = .resolved := by
  cases hk : s.sink r with
  | absent => exact absurd hk hsink
  | resolved => rfl
  | armed =>
      have hclosed : s.registry r = none := (hinv.closed r).mpr (by rw [hfin]; rfl)
      rcases h.armed hk with ⟨ws, hreg, -⟩ | ⟨todo, hph, -⟩
      · rw [hclosed] at hreg
        cases hreg
      · rw [hfin] at hph
        cases hph

/-! ### Bottom-up termination -/

/-- Past `stop_children`, before a restart or inside of `terminate`. -/
def Phase.pastStopChildren (p : Phase M) : Bool := p.pastReplace && !p.awaiting

/-- A root of another system, which watches. -/
def watcherId : ActorId := ⟨2⟩

/-- A run in which a root and its child are watched by an actor of another system, until the
owner stops the root: its child has finished, and of its watchers the oneshot comes first. -/
lemma tree_run : ∃ tr s, Runs (M := Unit) (fun _ => .plain) tr s ∧ .resolve parentId ∈ tr ∧
    s.phase parentId = .terminating (.signal {.actor watcherId}) ∧
    s.Descendant childId parentId := by
  have h : Runs (M := Unit) (fun _ => .plain) [] Sys.init := .nil
  have h := h.snoc (.spawnRoot (r := parentId) rfl)
  have h := h.snoc (.watchRoot (r := parentId) (by decide) rfl rfl rfl)
  have h := h.snoc (.spawn (a := parentId) (c := childId) rfl rfl)
  have h := h.snoc (.move (a := parentId) rfl (.returned (.initialised _)))
  have h := h.snoc (.move (a := childId) rfl (.returned (.initialised _)))
  have h := h.snoc (.spawnRoot (r := watcherId) rfl)
  have h := h.snoc (.watchAdded (a := watcherId) (x := childId) rfl (by decide) rfl)
  have h := h.snoc (.watchMapped (a := watcherId) rfl)
  have h := h.snoc (.watchAdded (a := watcherId) (x := parentId) rfl (by decide) rfl)
  have h := h.snoc (.stop (r := parentId) (by decide) rfl)
  have h := h.snoc (.move (a := parentId) rfl (.stopped rfl))
  have h := h.snoc (.move (a := parentId) rfl (.dropped false))
  have h := h.snoc (.drain (a := parentId) rfl)
  have h := h.snoc (.move (a := parentId) rfl .disconnected)
  have h := h.snoc (.takeWatched (a := parentId) rfl)
  have h := h.snoc (.move (a := parentId) rfl .deregistered)
  have h := h.snoc (.stopChildren (a := parentId) rfl)
  have h := h.snoc (.move (a := childId) rfl (.stopped Nat.zero_lt_one))
  have h := h.snoc (.move (a := childId) rfl (.dropped false))
  have h := h.snoc (.drain (a := childId) rfl)
  have h := h.snoc (.move (a := childId) rfl .disconnected)
  have h := h.snoc (.takeWatched (a := childId) rfl)
  have h := h.snoc (.move (a := childId) rfl .deregistered)
  have h := h.snoc (.stopChildren (a := childId) rfl)
  have h := h.snoc (.move (a := childId) rfl (.childrenTerminated fun c g hc => by
    have hne : parentId ≠ childId := by decide
    by_cases hc' : c = childId <;> simp [hc', hne, Sys.init] at hc))
  have h := h.snoc (.move (a := childId) rfl .actorDropped)
  have h := h.snoc (.takeWatchers (a := childId) rfl)
  have h := h.snoc (.signal (a := childId) (b := watcherId) rfl (by decide) rfl)
  have h := h.snoc (.move (a := childId) rfl .finished)
  have h := h.snoc (.move (a := parentId) rfl (.childrenTerminated fun c g hc _ => by
    by_cases hc' : c = childId
    · rw [hc']
      rfl
    · simp [hc', Sys.init] at hc))
  have h := h.snoc (.move (a := parentId) rfl .actorDropped)
  have h := h.snoc (.takeWatchers (a := parentId) rfl)
  have h := h.snoc (.signalRoot (a := parentId) rfl (by decide) rfl)
  exact ⟨_, _, h, by simp, rfl, .single ⟨0, rfl⟩⟩

/-- **Termination is bottom-up, across restarts too.**  Past `stop_children` nothing below an actor
is left, in whichever generation it was spawned, so no re-initialisation overlaps an old child; a
watcher registered with a descendant and its ancestor is handed the signal of the descendant
first, unless it stops watching it; and the oneshot behind `ActorSystem::terminated` is resolved
once, when everything below the root has finished and the root itself has only watchers left to
signal. -/
theorem termination_bottom_up (h : Runs kind tr s) :
    (∀ a d, (s.phase a).pastStopChildren = true → s.Descendant d a → s.phase d = .finished) ∧
      (∀ a d l s', Step kind s l s' → (s.phase a).awaiting = true →
        (s'.phase a).awaiting = false → s.Descendant d a → s.phase d = .finished) ∧
      (∀ a d s', Step kind s (.restart a) s' → s.Descendant d a → s.phase d = .finished) ∧
      (∀ c a g, s.parent c = some (a, g) → g < s.generation a →
        (s.phase a).awaiting = false → s.phase c = .finished) ∧
      (∀ w d a before after t, s.Descendant d a → s.Registered w d → s.Registered w a →
        Run (Step kind) s (before ++ .hand w (.terminated a) :: after) t →
        .hand w (.terminated d) ∈ before ∨ .unwatch w d ∈ before) ∧
      ∀ r, tr.countP (Label.resolves r) ≤ 1 ∧
        (.resolve r ∈ tr → (s.phase r).closed = true ∧
          ∀ d, s.Descendant d r → s.phase d = .finished) ∧
        (s.phase r = .finished → s.sink r ≠ .absent → .resolve r ∈ tr) := by
  have htree := Runs.tree h
  have hinv := Runs.watching h
  refine ⟨fun a d hpast hd => ?_, fun a d l s' hs hawait hnot hd => ?_, fun a d s' hs hd => ?_,
    fun c a g hc hg hdone => ?_, fun w d a before after t hd hregd hrega hrun => ?_, fun r => ?_⟩
  · rw [Phase.pastStopChildren, Bool.and_eq_true, Bool.not_eq_true'] at hpast
    exact htree.descendants_finished hpast.1 hpast.2 hd
  · rcases hs.awaiting hawait with ⟨hawait', -⟩ | hgone
    · rw [hnot] at hawait'
      cases hawait'
    · exact htree.descendants_finished_of_gone hawait hgone hd
  · have hbackoff : s.phase a = .backoff := by
      cases hs with
      | move ha hm =>
          cases hm
          exact ha
    exact htree.descendants_finished (by rw [hbackoff]; rfl) (by rw [hbackoff]; rfl) hd
  · rcases (htree.child c a g hc).gone hg with hfin | ⟨hawait, -⟩
    · exact hfin
    · rw [hdone] at hawait
      cases hawait
  · exact signals_bottom_up h hd hregd hrega hrun
  · have hone := Runs.oneshot h r
    have hres : .resolve r ∈ tr ↔ s.sink r = .resolved := by
      have hcount : 0 < tr.countP (Label.resolves r) ↔ s.sink r = .resolved := by
        rw [hone.count]
        split <;> simp_all
      rw [← hcount, List.countP_pos_iff]
      simp [Label.resolves_iff]
    refine ⟨?_, fun hmem => ?_, fun hfin hsink => ?_⟩
    · rw [hone.count]
      split <;> simp
    · have hclosed := hone.resolved (hres.mp hmem)
      exact ⟨hclosed, fun d hd => htree.descendants_finished
        (Phase.pastReplace_of_closed hclosed) (Phase.not_awaiting_of_closed hclosed) hd⟩
    · exact hres.mpr (hone.finished hinv hfin hsink)

/-- The child has finished by the time the oneshot of its parent is resolved. -/
theorem child_finishes_first : ∃ tr s, Runs (M := Unit) (fun _ => .plain) tr s ∧
    .resolve parentId ∈ tr ∧ s.phase childId = .finished := by
  obtain ⟨tr, s, h, hres, -, hd⟩ := tree_run
  obtain ⟨-, -, -, -, -, hone⟩ := termination_bottom_up h
  exact ⟨tr, s, h, hres, ((hone parentId).2.1 hres).2 childId hd⟩

/-- The oneshot does not wait for the root itself: it is one of the watchers of the root, and
others may come after it. -/
theorem oneshot_before_other_watchers : ¬∀ (tr : List (Label Unit)) (s : Sys Unit) (r : ActorId),
    Runs (fun _ => .plain) tr s → .resolve r ∈ tr → s.phase r = .finished := by
  intro hall
  obtain ⟨tr, s, h, hres, hparent, -⟩ := tree_run
  have hfin := hall tr s parentId h hres
  rw [hparent] at hfin
  cases hfin

end Tellus
