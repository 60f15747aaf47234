import Mathlib.Tactic
import Tellus.Actor.Tree
import Tellus.Lib.Descent

/-!
A stopped actor winds down, together with everything below it.

What remains once a parent or the owner of a system has stopped an actor is the framework's own
work and whatever callbacks are still running.  Nothing in it goes round in circles: a stopped
actor does not poll its mailbox again and is not restarted, so each of its steps takes it further
(`Phase.stage`), down to its watchers, whose number is finite.  And nothing in it gets stuck: an
actor waits for its children only, these have been stopped too, and a tree has leaves.

* `Winds`: the steps of stopped actors below `a` which are not decisions of user code.
* `Sys.weight`: what such a step lowers.
* `Sys.Awaits`: whoever waits, waits for a child.
* `stopped_winds_down`: these steps cannot go on for ever, and cannot end before `a` and all of
  its descendants have finished.
-/

namespace Tellus

open Concurrent

variable {M : Type} {kind : ActorId → Kind} {s s' t : Sys M} {l : Label M} {a b c : ActorId}
  {tr tr' : List (Label M)} {p q : Phase M}

/-! ### The steps of stopped actors -/

/-- A step which user code has not decided on: it sends no message, spawns nothing and begins no
call of `watch` or `unwatch`.  That a callback returns is one of these steps. -/
def Label.framework : Label M → Bool
  | .resolve _ => true
  | .send _ (.terminated _) => true
  | .hand _ _ => true
  | .discard _ _ => true
  | .returned _ => true
  | .restart _ => true
  | .internal _ => true
  | _ => false

/-- `b` is `a` or below it. -/
def Sys.Within (s : Sys M) (b a : ActorId) : Prop :=
  Relation.ReflTransGen (fun c b => ∃ g, s.parent c = some (b, g)) b a

/-- The winding down of `a`: a stopped actor within `a` goes on. -/
def Winds (kind : ActorId → Kind) (a : ActorId) (s : Sys M) (l : Label M) (s' : Sys M) : Prop :=
  Step kind s l s' ∧ l.framework = true ∧
    ∃ b, s.Within b a ∧ s.Signalled b ∧ s'.phase b ≠ s.phase b

/-! ### Getting further -/

/-- How far a stopped actor is from its end, apart from what it holds. -/
def Phase.stage : Phase M → ℕ
  | .unborn => 0
  | .receiving => 21
  | .taking _ => 20
  | .recovering => 20
  | .calling _ (.watchAdded _ _) => 19
  | .calling _ (.watchMapped _) => 17
  | .calling _ (.unwatchMapped _) => 17
  | .calling _ .none => 16
  | .settling => 15
  | .idle => 14
  | .dropping _ => 13
  | .failed => 12
  | .restarting => 11
  | .backoff => 10
  | .terminating .drain => 9
  | .terminating .disconnect => 8
  | .terminating .dropMessages => 7
  | .terminating (.deregister todo) => 6 + todo.card
  | .terminating .stopChildren => 5
  | .terminating .awaitChildren => 4
  | .terminating .dropActor => 3
  | .terminating .takeWatchers => 2
  | .terminating (.signal todo) => 1 + todo.card
  | .finished => 0

/-- How far an actor is from its end, with whom it watches and who watches it. -/
def Sys.weight (s : Sys M) (b : ActorId) : ℕ :=
  (s.phase b).stage + (s.watched b).card + ((s.registry b).getD ∅).card

/-- A stopped actor does not go back. -/
lemma Move.stage_lt (h : Move kind s a p l q) (hstop : s.Signalled a)
    (hl : l.framework = true) : q.stage < p.stage := by
  cases h with
  | returned h => rcases h.to with rfl | rfl | rfl | rfl | rfl <;> simp [Phase.stage]
  | dropped fails => cases fails <;> simp [Phase.stage]
  | restarted hnot => exact absurd hstop hnot
  | polled hnot => exact absurd hstop hnot
  | watchRefused => cases hl
  | unwatchNothing => cases hl
  | signalLost hb =>
      have := Finset.card_erase_lt_of_mem hb
      simp only [Phase.stage]
      omega
  | _ => simp [Phase.stage]

/-- Removing a watcher makes no registry larger. -/
lemma Sys.card_removed_le (s : Sys M) (x c : ActorId) (w : Watcher) :
    ((Function.update s.registry x (s.removed x w) c).getD ∅).card
      ≤ ((s.registry c).getD ∅).card := by
  by_cases hc : c = x
  · subst hc
    rw [Function.update_self, Sys.removed]
    cases s.registry c with
    | none => exact le_rfl
    | some ws => exact Finset.card_erase_le
  · rw [Function.update_of_ne hc]

/-- Only the actor which goes on changes its phase. -/
lemma eq_of_update_ne {r : Phase M} (h : Function.update s.phase a r b ≠ s.phase b) : b = a := by
  by_contra hne
  exact h (Function.update_of_ne hne ..)

/-- One actor goes on, and nobody else gets heavier. -/
lemma weight_lowered (hphase : s'.phase = Function.update s.phase a q)
    (hwatched : ∀ c, c ≠ a → s'.watched c = s.watched c)
    (hregistry : ∀ c, c ≠ a →
      ((s'.registry c).getD ∅).card ≤ ((s.registry c).getD ∅).card)
    (hlt : s'.weight a < s.weight a) :
    s'.weight a < s.weight a ∧ ∀ c, s'.weight c ≤ s.weight c := by
  refine ⟨hlt, fun c => ?_⟩
  by_cases hc : c = a
  · subst hc
    exact hlt.le
  · have := hregistry c hc
    rw [Sys.weight, Sys.weight, hphase, Function.update_of_ne hc, hwatched c hc]
    omega

/-- **Every step of a stopped actor lowers its weight**, and nobody else's goes up. -/
lemma Step.weight_lt (hs : Step kind s l s') (hl : l.framework = true) (hstop : s.Signalled b)
    (hb : s'.phase b ≠ s.phase b) :
    s'.weight b < s.weight b ∧ ∀ c, s'.weight c ≤ s.weight c := by
  cases hs with
  | spawnRoot => cases hl
  | spawn => cases hl
  | watchRoot => cases hl
  | stop => cases hl
  | tell => cases hl
  | tellOutside => cases hl
  | watchAdded => cases hl
  | unwatch => cases hl
  | watchRootLate => exact absurd rfl hb
  | move ha h =>
      obtain rfl := eq_of_update_ne hb
      refine weight_lowered rfl (fun _ _ => rfl) (fun _ _ => le_rfl) ?_
      have := h.stage_lt hstop hl
      simp only [Sys.weight, Sys.goto_phase, Function.update_self, ha, Sys.goto_watched,
        Sys.goto_registry]
      omega
  | @watchMapped a x cb ok ha =>
      obtain rfl := eq_of_update_ne hb
      refine weight_lowered rfl (fun c hc => by simp [Function.update_of_ne hc])
        (fun _ _ => le_rfl) ?_
      have := Finset.card_insert_le x (s.watched b)
      cases ok <;> simp [Sys.weight, ha, Phase.stage] <;> omega
  | watchSignals ha | take ha | restart ha | stopChildren ha | drain ha =>
      obtain rfl := eq_of_update_ne hb
      refine weight_lowered rfl (fun _ _ => rfl) (fun _ _ => le_rfl) ?_
      simp [Sys.weight, ha, Phase.stage]
  | @unwatchRemoved a x cb ha =>
      obtain rfl := eq_of_update_ne hb
      refine weight_lowered rfl (fun _ _ => rfl) (fun c _ => s.card_removed_le x c _) ?_
      have := s.card_removed_le x b (.actor b)
      simp [Sys.weight, ha, Phase.stage]
      omega
  | @handSignal a x ha h =>
      obtain rfl := eq_of_update_ne hb
      refine weight_lowered rfl (fun c hc => by simp [Function.update_of_ne hc])
        (fun _ _ => le_rfl) ?_
      have := Finset.card_erase_lt_of_mem h
      simp [Sys.weight, ha, Phase.stage]
      omega
  | takeWatched ha =>
      obtain rfl := eq_of_update_ne hb
      refine weight_lowered rfl (fun c hc => by simp [Function.update_of_ne hc])
        (fun _ _ => le_rfl) ?_
      simp [Sys.weight, ha, Phase.stage]
  | @deregister a x todo ha hx =>
      obtain rfl := eq_of_update_ne hb
      refine weight_lowered rfl (fun _ _ => rfl) (fun c _ => s.card_removed_le x c _) ?_
      have := s.card_removed_le x b (.actor b)
      have := Finset.card_erase_lt_of_mem hx
      simp only [Sys.weight, ha, Phase.stage, Sys.goto_phase, Function.update_self,
        Sys.goto_watched, Sys.setRegistry_watched, Sys.goto_registry, Sys.setRegistry_registry]
      omega
  | takeWatchers ha =>
      obtain rfl := eq_of_update_ne hb
      refine weight_lowered rfl (fun _ _ => rfl)
        (fun c hc => by simp [Function.update_of_ne hc]) ?_
      simp [Sys.weight, ha, Phase.stage]
      omega
  | signal ha h | signalRoot ha h | signalRootAgain ha h =>
      obtain rfl := eq_of_update_ne hb
      refine weight_lowered rfl (fun _ _ => rfl) (fun _ _ => le_rfl) ?_
      have := Finset.card_erase_lt_of_mem h
      simp only [Sys.weight, ha, Phase.stage, Sys.goto_phase, Function.update_self,
        Sys.goto_watched, Sys.push_watched, Sys.setSink_watched, Sys.goto_registry,
        Sys.push_registry, Sys.setSink_registry]
      omega

/-! ### Not getting stuck -/

/-- `b` is in `stop_children`, waiting for its child `c` among others. -/
def Sys.Awaits (s : Sys M) (b c : ActorId) : Prop :=
  (s.phase b).awaiting = true ∧ s.phase c ≠ .finished ∧
    ∃ g, s.parent c = some (b, g) ∧ g + 1 = s.generation b

/-- The children an actor waits for have been stopped. -/
lemma Sys.Awaits.signalled (h : s.Awaits b c) : s.Signalled c := by
  obtain ⟨-, -, g, hparent, hg⟩ := h
  rw [Sys.Signalled, hparent]
  show g < s.generation b
  omega

/-- Who waits for nobody is done waiting. -/
lemma childrenGone_of_not_awaits (hawait : (s.phase b).awaiting = true)
    (h : ∀ c, ¬s.Awaits b c) : s.ChildrenGone b := by
  intro c g hparent hg
  by_contra hfin
  exact h c ⟨hawait, hfin, g, hparent, hg⟩

/-- A callback may return. -/
lemma exists_returns (k : Kind) (cb : Callback) :
    ∃ p : Phase M, Returns k cb p ∧ ∀ c, p ≠ .calling cb c := by
  cases cb with
  | init => exact ⟨.idle, .initialised k, by simp⟩
  | receive =>
      cases k with
      | plain => exact ⟨.idle, .continues, by simp⟩
      | eventSourced => exact ⟨.settling, .decides, by simp⟩

/-- **A stopped actor which waits for nobody can go on.** -/
lemma exists_step (hstop : s.Signalled b) (hborn : s.phase b ≠ .unborn)
    (hfin : s.phase b ≠ .finished) (hfree : ∀ c, ¬s.Awaits b c) :
    ∃ l s', Step kind s l s' ∧ l.framework = true ∧ s'.phase b ≠ s.phase b := by
  have go : ∀ {l : Label M} {p q : Phase M}, s.phase b = p → Move kind s b p l q →
      l.framework = true → q ≠ p → ∃ l s', Step kind s l s' ∧ l.framework = true ∧ s'.phase b ≠ p :=
    fun hp hm hl hq => ⟨_, _, .move hp hm, hl, by simpa using hq⟩
  cases hp : s.phase b with
  | unborn => exact absurd hp hborn
  | finished => exact absurd hp hfin
  | recovering => exact go hp (.recoverStopped hstop) rfl (by simp)
  | calling cb c =>
      cases c with
      | none =>
          obtain ⟨p, hr, hne⟩ := exists_returns (M := M) (kind b) cb
          exact go hp (.returned hr) rfl (hne _)
      | watchAdded x ok => exact ⟨_, _, .watchMapped hp, rfl, by cases ok <;> simp⟩
      | watchMapped x => exact ⟨_, _, .watchSignals hp, rfl, by simp⟩
      | unwatchMapped x => exact ⟨_, _, .unwatchRemoved hp, rfl, by simp⟩
  | settling => exact go hp .settled rfl (by simp)
  | idle => exact go hp (.stopped hstop) rfl (by simp)
  | receiving =>
      cases hq : s.queue b with
      | nil => exact go hp (.pending hq) rfl (by simp)
      | cons item rest => exact ⟨_, _, .take hp hq, rfl, by simp⟩
  | taking item =>
      cases item with
      | message o m => exact go hp .handMessage rfl (by simp)
      | terminated x =>
          by_cases hx : x ∈ s.watched b
          · exact ⟨_, _, .handSignal hp hx, rfl, by simp⟩
          · exact go hp (.discard hx) rfl (by simp)
  | dropping fails => exact go hp (.dropped fails) rfl (by cases fails <;> simp)
  | failed => exact go hp .notRestarted rfl (by simp)
  | restarting =>
      have hgone := childrenGone_of_not_awaits (by rw [hp]; rfl) hfree
      exact go hp (.childrenStopped hgone) rfl (by simp)
  | backoff => exact go hp (.backoffStopped hstop) rfl (by simp)
  | terminating t =>
      cases t with
      | drain => exact ⟨_, _, .drain hp, rfl, by simp⟩
      | disconnect => exact go hp .disconnected rfl (by simp)
      | dropMessages => exact ⟨_, _, .takeWatched hp, rfl, by simp⟩
      | deregister todo =>
          rcases todo.eq_empty_or_nonempty with rfl | ⟨x, hx⟩
          · exact go hp .deregistered rfl (by simp)
          · exact ⟨_, _, .deregister hp hx, rfl, by simpa using hx⟩
      | stopChildren => exact ⟨_, _, .stopChildren hp, rfl, by simp⟩
      | awaitChildren =>
          have hgone := childrenGone_of_not_awaits (by rw [hp]; rfl) hfree
          exact go hp (.childrenTerminated hgone) rfl (by simp)
      | dropActor => exact go hp .actorDropped rfl (by simp)
      | takeWatchers => exact ⟨_, _, .takeWatchers hp, rfl, by simp⟩
      | signal todo =>
          rcases todo.eq_empty_or_nonempty with rfl | ⟨w, hw⟩
          · exact go hp .finished rfl (by simp)
          cases w with
          | actor x =>
              cases hx : (s.phase x).connected with
              | true => exact ⟨_, _, .signal hp hw hx, rfl, by simpa using hw⟩
              | false => exact go hp (.signalLost hw hx) rfl (by simpa using hw)
          | root =>
              by_cases hsink : s.sink b = .armed
              · exact ⟨_, _, .signalRoot hp hw hsink, rfl, by simpa using hw⟩
              · exact ⟨_, _, .signalRootAgain hp hw hsink, rfl, by simpa using hw⟩

/-! ### The tree is finite -/

/-- There are finitely many actors, and a parent comes before its children. -/
structure Forest (s : Sys M) (actors : Finset ActorId) (rank : ActorId → ℕ) : Prop where
  mem : ∀ c, s.phase c ≠ .unborn → c ∈ actors
  rank : ∀ c a g, s.parent c = some (a, g) → rank a < rank c

/-- The forest of every run: whoever is spawned comes after its parent. -/
lemma Runs.forest (h : Runs kind tr s) : ∃ actors rank, Forest s actors rank := by
  refine Run.induction (P := fun _ s => ∃ actors rank, Forest s actors rank) h
    ⟨∅, fun _ => 0, fun _ hc => absurd rfl hc, nofun⟩ ?_
  rintro tr l s s' hrun ⟨actors, rank, hf⟩ hs
  have hmem : ∃ actors' : Finset ActorId, ∀ c, s'.phase c ≠ .unborn → c ∈ actors' := by
    rcases hs.phase with hsame | ⟨c, -, hnew⟩ | ⟨b, q, hforward, hgo⟩
    · exact ⟨actors, fun c hc => hf.mem c (hsame ▸ hc)⟩
    · refine ⟨insert c actors, fun d hd => ?_⟩
      by_cases hdc : d = c
      · exact Finset.mem_insert.mpr (.inl hdc)
      · rw [hnew, Function.update_of_ne hdc] at hd
        exact Finset.mem_insert_of_mem (hf.mem d hd)
    · refine ⟨actors, fun d hd => hf.mem d ?_⟩
      by_cases hdb : d = b
      · rw [hdb]
        exact hforward.born
      · rwa [hgo, Function.update_of_ne hdb] at hd
  have hrank : ∃ rank' : ActorId → ℕ, ∀ c a g, s'.parent c = some (a, g) → rank' a < rank' c := by
    rcases hs.parent with hsame | ⟨a, c, cb, ha, hc, -, -, hnew, -⟩
    · exact ⟨rank, fun d b g hd => hf.rank d b g (hsame ▸ hd)⟩
    · have hne : a ≠ c := by
        rintro rfl
        rw [ha] at hc
        cases hc
      refine ⟨Function.update rank c (rank a + 1), fun d b g hd => ?_⟩
      by_cases hdc : d = c
      · rw [hdc, hnew, Function.update_self] at hd
        obtain ⟨rfl, -⟩ : a = b ∧ _ := by simpa using hd
        rw [hdc, Function.update_self, Function.update_of_ne hne]
        omega
      · rw [hnew, Function.update_of_ne hdc] at hd
        -- nobody is a child of the actor just spawned
        have hbc : b ≠ c := by
          rintro rfl
          exact ((Runs.tree hrun).child d b g hd).born hc
        rw [Function.update_of_ne hdc, Function.update_of_ne hbc]
        exact hf.rank d b g hd
  obtain ⟨actors', hmem⟩ := hmem
  obtain ⟨rank', hrank⟩ := hrank
  exact ⟨actors', rank', hmem, hrank⟩

/-- Nobody is spawned while an actor winds down. -/
lemma Step.stays_unborn (hs : Step kind s l s') (hl : l.framework = true)
    (h : s.phase c = .unborn) : s'.phase c = .unborn := by
  cases hs with
  | spawnRoot => cases hl
  | spawn => cases hl
  | move ha hm => exact phase_update_of_ne h ha hm.forward.born
  | watchAdded ha | watchMapped ha | watchSignals ha | unwatch ha | unwatchRemoved ha | take ha
  | handSignal ha | restart ha | stopChildren ha | drain ha | takeWatched ha | deregister ha
  | takeWatchers ha | signal ha | signalRoot ha | signalRootAgain ha =>
      exact phase_update_of_ne h ha (by simp)
  | _ => exact h

/-- A stop is not taken back. -/
lemma Step.signalled (hs : Step kind s l s') (hborn : s.phase b ≠ .unborn)
    (h : s.Signalled b) : s'.Signalled b := by
  have hparent : s'.parent b = s.parent b := by
    rcases hs.parent with hsame | ⟨a, c, cb, -, hc, -, -, hnew, -⟩
    · rw [hsame]
    · have hne : b ≠ c := by
        rintro rfl
        exact hborn hc
      rw [hnew, Function.update_of_ne hne]
  have hstopped : s.stopped b = true → s'.stopped b = true := by
    intro hb
    cases hs with
    | @stop r =>
        by_cases hr : b = r
        · subst hr
          simp
        · simpa [Function.update_of_ne hr] using hb
    | _ => exact hb
  rw [Sys.Signalled, hparent]
  rw [Sys.Signalled] at h
  cases hp : s.parent b with
  | none =>
      rw [hp] at h
      exact hstopped h
  | some pg =>
      obtain ⟨p, g⟩ := pg
      rw [hp] at h
      have hlt : g < s.generation p := h
      show g < s'.generation p
      rcases hs.generation p with hsame | ⟨hnext, -⟩ <;> omega

/-! ### The end -/

/-- A state in which `a` has been stopped, all actors being among the given ones. -/
structure Stopped (kind : ActorId → Kind) (actors : Finset ActorId) (a : ActorId)
    (s : Sys M) : Prop where
  runs : ∃ tr, Runs kind tr s
  born : s.phase a ≠ .unborn
  signalled : s.Signalled a
  mem : ∀ c, s.phase c ≠ .unborn → c ∈ actors

/-- **A step of winding down** keeps `a` stopped and makes the actors lighter. -/
lemma Stopped.step {actors : Finset ActorId} (h : Stopped kind actors a s)
    (hs : Winds kind a s l s') :
    Stopped kind actors a s' ∧ ∑ c ∈ actors, s'.weight c < ∑ c ∈ actors, s.weight c := by
  obtain ⟨hs, hl, b, -, hstop, hb⟩ := hs
  obtain ⟨tr, hrun⟩ := h.runs
  have hborn : ∀ c, s'.phase c ≠ .unborn → s.phase c ≠ .unborn :=
    fun c hc hunborn => hc (hs.stays_unborn hl hunborn)
  have hmem : b ∈ actors := by
    refine h.mem b fun hunborn => hb ?_
    rw [hs.stays_unborn hl hunborn, hunborn]
  obtain ⟨hlt, hle⟩ := hs.weight_lt hl hstop hb
  exact ⟨⟨⟨_, hrun.snoc hs⟩, hs.born h.born, hs.signalled h.born h.signalled,
    fun c hc => h.mem c (hborn c hc)⟩, Finset.sum_lt_sum (fun c _ => hle c) ⟨b, hmem, hlt⟩⟩

/-- **Winding down does not get stuck** before `a` has finished. -/
lemma Stopped.exists_step {actors : Finset ActorId} (h : Stopped kind actors a s)
    (hfin : s.phase a ≠ .finished) : ∃ l s', Winds kind a s l s' := by
  obtain ⟨tr, hrun⟩ := h.runs
  obtain ⟨born, rank, hforest⟩ := Runs.forest hrun
  have htree := Runs.tree hrun
  -- Follow those who wait down to somebody who does not.
  obtain ⟨b, ⟨hborn, hnot, hwithin, hstop⟩, -, hfree⟩ := exists_not_waiting s.Awaits rank
    (P := fun b => s.phase b ≠ .unborn ∧ s.phase b ≠ .finished ∧ s.Within b a ∧ s.Signalled b)
    (n := born.sup rank)
    (fun b hb => Finset.le_sup (hforest.mem b hb.1)) (a := a) (by
      rintro b c ⟨-, -, hwithin, -⟩ hwait
      obtain ⟨-, hnot, g, hparent, -⟩ := id hwait
      refine ⟨⟨fun hunborn => ?_, hnot, .head ⟨g, hparent⟩ hwithin, hwait.signalled⟩,
        hforest.rank c b g hparent⟩
      rw [htree.unborn c hunborn] at hparent
      cases hparent) ⟨h.born, hfin, .refl, h.signalled⟩
  obtain ⟨l, s', hs, hl, hb⟩ := Tellus.exists_step hstop hborn hnot hfree
  exact ⟨l, s', hs, hl, b, hwithin, hstop, hb⟩

/-- **A stopped actor winds down.**  Whatever state it is in when its parent or the owner of the
system stops it, and wherever its descendants are: the steps of the stopped actors from there on
cannot go on for ever, they cannot get stuck before it has finished, and when it has finished so
have all of its descendants, with the oneshot behind `ActorSystem::terminated` resolved. -/
theorem stopped_winds_down (h : Runs kind tr s) (hborn : s.phase a ≠ .unborn)
    (hstop : s.Signalled a) :
    ∃ bound, (∀ tr' t, Run (Winds kind a) s tr' t → tr'.length ≤ bound ∧
        (t.phase a ≠ .finished → ∃ l u, Winds kind a t l u) ∧
        (t.phase a = .finished → (∀ d, t.Descendant d a → t.phase d = .finished) ∧
          (t.sink a ≠ .absent → t.sink a = .resolved))) ∧
      ∃ tr' t, Run (Winds kind a) s tr' t ∧ t.phase a = .finished := by
  obtain ⟨actors, rank, hforest⟩ := Runs.forest h
  have hs : Stopped kind actors a s := ⟨⟨tr, h⟩, hborn, hstop, hforest.mem⟩
  have hall : ∀ tr' t, Run (Winds kind a) s tr' t →
      Stopped kind actors a t ∧ tr'.length ≤ ∑ c ∈ actors, s.weight c := by
    intro tr' t hrun
    obtain ⟨ht, hle⟩ := hrun.length_add_le (fun t => ∑ c ∈ actors, t.weight c)
      (fun _ _ _ ht hl => ht.step hl) hs
    exact ⟨ht, le_of_add_le_left hle⟩
  refine ⟨∑ c ∈ actors, s.weight c, fun tr' t hrun => ?_, ?_⟩
  · obtain ⟨ht, hle⟩ := hall tr' t hrun
    refine ⟨hle, ht.exists_step, fun hfin => ?_⟩
    obtain ⟨tr'', ht⟩ := ht.runs
    refine ⟨fun d hd => (Runs.tree ht).descendants_finished (by rw [hfin]; rfl)
      (by rw [hfin]; rfl) hd, fun hsink => ?_⟩
    exact (Runs.oneshot ht a).finished (Runs.watching ht) hfin hsink
  · exact Run.exists_goal (fun t => t.phase a = .finished)
      (fun tr' t hrun => (hall tr' t hrun).2)
      fun tr' t hrun hfin => (hall tr' t hrun).1.exists_step hfin

/-- A root which is stopped while its child is in `init` finishes, and its child before it. -/
theorem stopped_root_winds_down : ∃ tr s tr' t, Runs (M := Unit) (fun _ => .plain) tr s ∧
    s.phase childId = .calling .init .none ∧
    Run (Winds (fun _ => .plain) parentId) s tr' t ∧ t.phase parentId = .finished := by
  have h : Runs (M := Unit) (fun _ => .plain) [] Sys.init := .nil
  have h := h.snoc (.spawnRoot (r := parentId) rfl)
  have h := h.snoc (.spawn (a := parentId) (c := childId) rfl rfl)
  have h := h.snoc (.stop (r := parentId) (by decide) rfl)
  obtain ⟨-, -, tr', t, hrun, hfin⟩ := stopped_winds_down (a := parentId) h (by decide) rfl
  exact ⟨_, _, tr', t, h, rfl, hrun, hfin⟩

end Tellus
