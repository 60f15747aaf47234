import Mathlib.Tactic
import Tellus.Actor.Watching

/-!
Registrations: no registry holds a watcher which does not know of it.

A registration has two sides, as in `Watching`: here the question is the converse, whether an
entry of a registry can outlive what the watcher remembers of it.  `Tracked` lists what the
watcher can remember it by; of the four operations which forget, only the hand-over of a signal
leaves the registry alone, and there the registry is closed.

* `Tracked.step`: a registration stays tracked until it is removed.
* `Registrations`: the invariant, with the watched map empty once `terminate` has taken it.
* `WatcherMap`: a registry as the code has it, the watchers under their IDs; `WatcherMap.Holds`
  says that its watchers are those of the system's registry.
* `registrations_tracked`: the watched map covers the registries, a watcher which has
  deregistered is in none of them for good, and a signal means a closed registry.
-/

namespace Tellus

open Concurrent

variable {M : Type} {kind : ActorId → Kind} {s s' : Sys M} {l : Label M} {w x : ActorId}
  {tr : List (Label M)}

/-! ### What a watcher remembers -/

/-- The registry of `x` is open and contains `w`. -/
def Registered (s : Sys M) (w x : ActorId) : Prop :=
  ∃ ws, s.registry x = some ws ∧ .actor w ∈ ws

/-- The watcher remembers the registration: in its watched map, inside of a call of `watch` or
`unwatch`, or among those it still has to deregister from. -/
def Tracked (s : Sys M) (w x : ActorId) : Prop :=
  x ∈ s.watched w ∨ (∃ cb, s.phase w = .calling cb (.watchAdded x true)) ∨
    (∃ cb, s.phase w = .calling cb (.unwatchMapped x)) ∨
    ∃ todo, s.phase w = .terminating (.deregister todo) ∧ x ∈ todo

/-- Inside of a call of `watch` or `unwatch`. -/
def Phase.inCall : Phase M → Bool
  | .calling _ .none => false
  | .calling _ _ => true
  | _ => false

/-- The watched map has been taken. -/
def Phase.cleared : Phase M → Bool
  | .terminating (.deregister _) => true
  | .terminating .stopChildren => true
  | .terminating .awaitChildren => true
  | .terminating .dropActor => true
  | .terminating .takeWatchers => true
  | .terminating (.signal _) => true
  | .finished => true
  | _ => false

/-- Every registration has been removed. -/
def Phase.deregistered : Phase M → Bool
  | .terminating (.deregister _) => false
  | p => p.cleared

/-! ### Steps of a watcher -/

/-- A call of `watch` which adds to a registry knows so. -/
lemma Step.added {ws : Finset Watcher} (hs : Step kind s (.watch w x) s')
    (h : s.registry x = some ws) : ∃ cb, s'.phase w = .calling cb (.watchAdded x true) := by
  cases hs with
  | move ha hm =>
      cases hm with
      | watchRefused _ hnone =>
          rw [h] at hnone
          cases hnone
  | @watchAdded _ _ cb => exact ⟨cb, by simp⟩

/-- A call of `unwatch` which finds the other actor watched goes on to its registry. -/
lemma Step.unmaps (hs : Step kind s (.unwatch w x) s') (h : x ∈ s.watched w) :
    ∃ cb, s'.phase w = .calling cb (.unwatchMapped x) := by
  cases hs with
  | move ha hm =>
      cases hm with
      | unwatchNothing hx => exact absurd h hx
  | @unwatch _ _ cb => exact ⟨cb, by simp⟩

/-- Removing an actor from a registry leaves it unregistered. -/
lemma not_registered_removed (h : s'.registry x = s.removed x (.actor w)) :
    ¬ Registered s' w x := by
  rintro ⟨ws, hreg, hmem⟩
  rw [h, Sys.removed, Option.map_eq_some_iff] at hreg
  obtain ⟨ws, -, rfl⟩ := hreg
  exact Finset.notMem_erase _ _ hmem

/-- Inside of `terminate`, the registrations taken from the watched map are removed one by one. -/
lemma Step.deregisters (hs : Step kind s l s') {todo : Finset ActorId}
    (h : s.phase w = .terminating (.deregister todo)) (hx : x ∈ todo) :
    (∃ todo', s'.phase w = .terminating (.deregister todo') ∧ x ∈ todo')
      ∨ ¬ Registered s' w x := by
  cases hs with
  | @deregister a y todo' ha hy =>
      by_cases hw : w = a
      · subst hw
        obtain rfl : todo = todo' := by simpa using h.symm.trans ha
        by_cases hxy : x = y
        · subst hxy
          exact .inr (not_registered_removed (s := s) (by simp))
        · exact .inl ⟨todo.erase y, by simp, Finset.mem_erase.mpr ⟨hxy, hx⟩⟩
      · exact .inl ⟨todo, by simp [Function.update_of_ne hw, h], hx⟩
  | @move a l p q ha hm =>
      refine .inl ⟨todo, phase_update_of_ne h ha fun hp => ?_, hx⟩
      subst hp
      cases hm
      cases hx
  | spawnRoot ha | spawn _ ha | watchAdded ha | watchMapped ha | watchSignals ha | unwatch ha
  | unwatchRemoved ha | take ha | handSignal ha | restart ha | stopChildren ha | drain ha
  | takeWatched ha | takeWatchers ha | signal ha | signalRoot ha | signalRootAgain ha =>
      exact .inl ⟨todo, phase_update_of_ne h ha (by simp), hx⟩
  | _ => exact .inl ⟨todo, h, hx⟩

/-! ### The invariant -/

/-- **A registration stays tracked.**  The signal which is handed over is the only reason to
forget it without removing it, and then the registry is closed. -/
lemma Tracked.step (hw : Watching s) (hs : Step kind s l s') (h : Tracked s w x)
    (hreg : Registered s w x) (hreg' : Registered s' w x) : Tracked s' w x := by
  rcases h with hx | ⟨cb, hadded⟩ | ⟨cb, hunmapped⟩ | ⟨todo, hderegister, hx⟩
  · rcases hs.watched w with hsame | ⟨-, y, -, -, -, hinsert⟩ | ⟨y, herase, hl⟩ | ⟨-, -, htaken⟩
    · exact .inl (hsame ▸ hx)
    · rw [Tracked, hinsert]
      exact .inl (Finset.mem_insert_of_mem hx)
    · by_cases hxy : x = y
      · subst hxy
        rcases hl with rfl | rfl
        · exact .inr (.inr (.inl (hs.unmaps hx)))
        · -- The signal has been taken from the mailbox, so the registry is closed.
          have hclosed := (hw.closed x).mpr (hw.taking w x hs.handed.1)
          obtain ⟨ws, hopen, -⟩ := hreg
          rw [hclosed] at hopen
          cases hopen
      · rw [Tracked, herase]
        exact .inl (Finset.mem_erase.mpr ⟨hxy, hx⟩)
    · exact .inr (.inr (.inr ⟨_, htaken, hx⟩))
  · rcases hs.leaves hadded with hsame | hx
    · exact .inr (.inl ⟨cb, hsame⟩)
    · exact .inl hx
  · rcases hs.leaves hunmapped with hsame | hremoved
    · exact .inr (.inr (.inl ⟨cb, hsame⟩))
    · exact absurd hreg' (not_registered_removed hremoved)
  · rcases hs.deregisters hderegister hx with hkept | hgone
    · exact .inr (.inr (.inr hkept))
    · exact absurd hreg' hgone

/-- What holds of the registries, seen from the watchers. -/
structure Registrations (s : Sys M) : Prop where
  tracked : ∀ w x, Registered s w x → Tracked s w x
  cleared : ∀ w, (s.phase w).cleared = true → s.watched w = ∅
  born : ∀ w x, Registered s w x → s.phase w ≠ .unborn

lemma Registrations.init : Registrations (Sys.init : Sys M) where
  tracked := fun w x ⟨ws, hreg, hmem⟩ => by
    cases hreg
    cases hmem
  cleared := fun _ _ => rfl
  born := fun w x ⟨ws, hreg, hmem⟩ => by
    cases hreg
    cases hmem

/-- Where a registration comes from: it was there before, or `watch` has just made it. -/
lemma Step.registered (hs : Step kind s l s') (h : Registered s' w x) :
    Registered s w x ∨ ∃ cb, s'.phase w = .calling cb (.watchAdded x true) := by
  obtain ⟨ws', hreg', hmem⟩ := h
  rcases hs.registry x with hsame | ⟨v, ws, hws, hadd, hwhy⟩ | ⟨a, hrem, -⟩ | ⟨-, -, hnone⟩
  · exact .inl ⟨ws', hsame ▸ hreg', hmem⟩
  · obtain rfl : insert v ws = ws' := by simpa using hadd.symm.trans hreg'
    rcases Finset.mem_insert.mp hmem with rfl | hmem
    · rcases hwhy with hroot | ⟨a, ha, rfl⟩
      · cases hroot
      · cases ha
        exact .inr (hs.added hws)
    · exact .inl ⟨ws, hws, hmem⟩
  · rw [hrem, Sys.removed, Option.map_eq_some_iff] at hreg'
    obtain ⟨ws, hws, rfl⟩ := hreg'
    exact .inl ⟨ws, hws, Finset.mem_of_mem_erase hmem⟩
  · rw [hnone] at hreg'
    cases hreg'

/-- Whatever is kept where an actor goes on is kept everywhere. -/
lemma phase_update_rel {R : Phase M → Phase M → Prop} (hR : ∀ p, R p p) {a b : ActorId}
    {p q : Phase M} (ha : s.phase a = p) (h : R p q) :
    R (s.phase b) (Function.update s.phase a q b) := by
  by_cases hb : b = a
  · subst hb
    rw [Function.update_self, ha]
    exact h
  · rw [Function.update_of_ne hb]
    exact hR _

lemma Move.cleared {a : ActorId} {p q : Phase M} (h : Move kind s a p l q) :
    q.cleared = p.cleared := by
  cases h with
  | returned h => rcases h.to with rfl | rfl | rfl | rfl | rfl <;> rfl
  | dropped fails => cases fails <;> rfl
  | restarted => rcases Phase.start_cases (kind a) with h | h <;> rw [h] <;> rfl
  | _ => rfl

lemma Move.deregistered_mono {a : ActorId} {p q : Phase M} (h : Move kind s a p l q)
    (hp : p.deregistered = true) : q.deregistered = true := by
  cases h <;> first | rfl | cases hp

/-- The watched map is taken once, and is empty from then on. -/
lemma Step.cleared (hs : Step kind s l s') (w : ActorId) :
    (s'.phase w).cleared = (s.phase w).cleared ∨ s'.watched w = ∅ := by
  have keep : ∀ {a : ActorId} {p q : Phase M}, s.phase a = p → q.cleared = p.cleared →
      (Function.update s.phase a q w).cleared = (s.phase w).cleared := fun ha h =>
    phase_update_rel (R := fun p q => q.cleared = p.cleared) (fun _ => rfl) ha h
  have start : ∀ k, (Phase.start k : Phase M).cleared = false := fun k => by
    rcases Phase.start_cases (M := M) k with h | h <;> rw [h] <;> rfl
  cases hs with
  | @takeWatched a ha =>
      by_cases hw : w = a
      · subst hw
        exact .inr (by simp)
      · exact .inl (by simp [Function.update_of_ne hw])
  | @move a l p q ha hm => exact .inl (keep ha hm.cleared)
  | spawnRoot ha | spawn _ ha => exact .inl (keep ha (start _))
  | @watchMapped a x cb ok ha => exact .inl (keep ha (by cases ok <;> rfl))
  | watchAdded ha | watchSignals ha | unwatch ha | unwatchRemoved ha | take ha | handSignal ha
  | restart ha | stopChildren ha | drain ha | deregister ha | takeWatchers ha | signal ha
  | signalRoot ha | signalRootAgain ha => exact .inl (keep ha rfl)
  | _ => exact .inl rfl

/-- Deregistration is not undone. -/
lemma Step.deregistered (hs : Step kind s l s') (h : (s.phase w).deregistered = true) :
    (s'.phase w).deregistered = true := by
  have keep : ∀ {a : ActorId} {p q : Phase M}, s.phase a = p →
      (p.deregistered = true → q.deregistered = true) →
      (Function.update s.phase a q w).deregistered = true := fun ha hpq =>
    phase_update_rel (R := fun p q => p.deregistered = true → q.deregistered = true)
      (fun _ h => h) ha hpq h
  cases hs with
  | move ha hm => exact keep ha hm.deregistered_mono
  | spawnRoot ha | spawn _ ha | watchAdded ha | watchMapped ha | watchSignals ha | unwatch ha
  | unwatchRemoved ha | take ha | handSignal ha | restart ha | stopChildren ha | drain ha
  | takeWatched ha | deregister ha | takeWatchers ha | signal ha | signalRoot ha
  | signalRootAgain ha => exact keep ha (fun hp => by first | rfl | cases hp)
  | _ => exact h

/-- **Every step keeps the invariant.** -/
lemma Registrations.step (h : Registrations s) (hw : Watching s) (hs : Step kind s l s') :
    Registrations s' where
  tracked := fun w x hreg' => by
    rcases hs.registered hreg' with hreg | hadded
    · exact (h.tracked w x hreg).step hw hs hreg hreg'
    · exact .inr (.inl hadded)
  cleared := fun w hcleared => by
    rcases hs.cleared w with hsame | hempty
    · have hnone := h.cleared w (hsame ▸ hcleared)
      rcases hs.watched w with hsame' | ⟨cb, y, ok, -, hph, -⟩ | ⟨y, herase, -⟩ | ⟨-, hempty, -⟩
      · exact hsame'.trans hnone
      · rw [hph] at hcleared
        cases ok <;> cases hcleared
      · rw [herase, hnone, Finset.erase_empty]
      · exact hempty
    · exact hempty
  born := fun w x hreg' => by
    rcases hs.registered hreg' with hreg | ⟨cb, hph⟩
    · exact hs.born (h.born w x hreg)
    · rw [hph]
      exact nofun

/-- The invariant holds in every run. -/
lemma Runs.registrations (h : Runs kind tr s) : Registrations s :=
  Run.induction h (P := fun _ => Registrations) .init fun _ _ _ _ hr ht hs =>
    ht.step (Runs.watching hr) hs

/-! ### Registries as maps -/

/-- The ID a watcher is registered under: that of the actor, or the one made for the oneshot. -/
def Watcher.watcherId (rootId : ActorId) : Watcher → ActorId
  | .actor id => id
  | .root => rootId

/-- The watchers of an open registry, each of them under its own ID. -/
structure WatcherMap (rootId : ActorId) where
  entry : ActorId → Option Watcher
  keyed : ∀ {id v}, entry id = some v → v.watcherId rootId = id

namespace WatcherMap

variable {rootId : ActorId} {m : WatcherMap rootId} {v v' : Watcher} {ws : Finset Watcher}

/-- No watchers. -/
def empty : WatcherMap rootId := ⟨fun _ => none, nofun⟩

/-- `WatcherRegistry::add`: a watcher which is there already is kept. -/
def add (m : WatcherMap rootId) (v : Watcher) : WatcherMap rootId where
  entry := fun id =>
    if id = v.watcherId rootId then some ((m.entry id).getD v) else m.entry id
  keyed := fun {id u} h => by
    by_cases hid : id = v.watcherId rootId
    · rw [if_pos hid, Option.some.injEq] at h
      cases hentry : m.entry id with
      | none =>
          rw [hentry] at h
          rw [← h, hid, Option.getD_none]
      | some u' =>
          rw [hentry] at h
          exact m.keyed (hentry.trans (congrArg some h))
    · rw [if_neg hid] at h
      exact m.keyed h

/-- `WatcherRegistry::remove`. -/
def remove (m : WatcherMap rootId) (id : ActorId) : WatcherMap rootId where
  entry := Function.update m.entry id none
  keyed := fun {id' u} h => by
    by_cases hid : id' = id
    · subst hid
      rw [Function.update_self] at h
      cases h
    · rw [Function.update_of_ne hid] at h
      exact m.keyed h

/-- The maps which calls of `add` and `remove` make. -/
inductive Made : WatcherMap rootId → Prop
  | empty : Made empty
  | add {m : WatcherMap rootId} (h : Made m) (v : Watcher) : Made (m.add v)
  | remove {m : WatcherMap rootId} (h : Made m) (id : ActorId) : Made (m.remove id)

/-- The watchers of the map are these. -/
def Holds (m : WatcherMap rootId) (ws : Finset Watcher) : Prop :=
  ∀ v, v ∈ ws ↔ m.entry (v.watcherId rootId) = some v

/-- One watcher for each ID. -/
lemma Holds.unique (h : m.Holds ws) (hv : v ∈ ws) (hv' : v' ∈ ws)
    (hid : v.watcherId rootId = v'.watcherId rootId) : v = v' := by
  have hentry := (h v).mp hv
  rw [hid, (h v').mp hv'] at hentry
  exact (Option.some.inj hentry).symm

/-- The IDs of two watchers differ where no actor has the ID of the oneshot. -/
lemma watcherId_inj (hv : v ≠ .actor rootId) (hv' : v' ≠ .actor rootId)
    (h : v.watcherId rootId = v'.watcherId rootId) : v = v' := by
  cases v with
  | actor a =>
      cases v' with
      | actor a' => exact congrArg Watcher.actor h
      | root => exact absurd (congrArg Watcher.actor h) hv
  | root =>
      cases v' with
      | actor a' => exact absurd (congrArg Watcher.actor h.symm) hv'
      | root => rfl

/-- Adding keeps the watchers, if a watcher under the same ID is the same one. -/
lemma Holds.add (h : m.Holds ws) (hv : v ≠ .actor rootId) (hws : .actor rootId ∉ ws) :
    (m.add v).Holds (insert v ws) := by
  intro u
  change _ ↔ (if _ then _ else _) = some u
  by_cases hid : u.watcherId rootId = v.watcherId rootId
  · rw [if_pos hid, Option.some.injEq, Finset.mem_insert]
    cases hentry : m.entry (u.watcherId rootId) with
    | none =>
        have hu : u ∉ ws := fun hu => by
          rw [(h u).mp hu] at hentry
          cases hentry
        rw [Option.getD_none, or_iff_left hu]
        exact eq_comm
    | some u' =>
        have hu' : u' ∈ ws := (h u').mpr (by rw [m.keyed hentry, hentry])
        have hv' : u' = v :=
          watcherId_inj (fun hr => hws (hr ▸ hu')) hv ((m.keyed hentry).trans hid)
        subst hv'
        rw [Option.getD_some]
        constructor
        · rintro (rfl | hu)
          · rfl
          · exact Option.some.inj (hentry.symm.trans ((h u).mp hu))
        · exact fun heq => .inl heq.symm
  · have hne : u ≠ v := fun heq => hid (by rw [heq])
    rw [if_neg hid, Finset.mem_insert, or_iff_right hne]
    exact h u

lemma Holds.remove {a : ActorId} (h : m.Holds ws) (ha : a ≠ rootId) :
    (m.remove a).Holds (ws.erase (.actor a)) := by
  intro u
  change _ ↔ Function.update m.entry a none _ = some u
  rw [Finset.mem_erase]
  by_cases hid : u.watcherId rootId = a
  · have hu : u = .actor a := by
      cases u with
      | actor b => exact congrArg Watcher.actor hid
      | root => exact absurd hid.symm ha
    subst hu
    simp [Watcher.watcherId]
  · have hne : u ≠ .actor a := fun heq => hid (by rw [heq]; rfl)
    rw [Function.update_of_ne hid, and_iff_right hne]
    exact h u

end WatcherMap

/-- In every run the watchers of an open registry are those of a map made by its calls, if the
ID of the oneshot is not one of the actors'. -/
lemma Runs.watcherMap (h : Runs kind tr s) (rootId x : ActorId) :
    ∀ ws, s.phase rootId = .unborn → s.registry x = some ws →
      ∃ m : WatcherMap rootId, m.Made ∧ m.Holds ws := by
  refine Run.induction h (P := fun _ s => ∀ ws, s.phase rootId = .unborn →
    s.registry x = some ws → ∃ m : WatcherMap rootId, m.Made ∧ m.Holds ws) ?_ ?_
  · intro ws _ hreg
    cases hreg
    exact ⟨.empty, .empty, fun v => by simp [WatcherMap.empty]⟩
  · intro tr l t u hr ih hs ws' hfresh' hreg'
    have hfresh : t.phase rootId = .unborn := by
      by_contra hborn
      exact hs.born hborn hfresh'
    rcases hs.registry x with hsame | ⟨v, ws, hws, hadd, hwhy⟩ | ⟨a, hrem, hwhy⟩ | ⟨-, -, hnone⟩
    · exact ih ws' hfresh (hsame ▸ hreg')
    · obtain ⟨m, hmade, hholds⟩ := ih ws hfresh hws
      obtain rfl : insert v ws = ws' := by simpa using hadd.symm.trans hreg'
      have hnot : .actor rootId ∉ insert v ws := fun hmem =>
        ((Runs.registrations (hr.snoc hs)).born rootId x ⟨_, hadd, hmem⟩) hfresh'
      exact ⟨m.add v, hmade.add v, hholds.add (fun hv => hnot (by simp [hv]))
        fun hmem => hnot (Finset.mem_insert_of_mem hmem)⟩
    · rw [hrem, Sys.removed, Option.map_eq_some_iff] at hreg'
      obtain ⟨ws, hws, rfl⟩ := hreg'
      obtain ⟨m, hmade, hholds⟩ := ih ws hfresh hws
      have ha : a ≠ rootId := by
        rintro rfl
        rcases hwhy with ⟨cb, hph⟩ | ⟨todo, hph, -⟩
        · cases hfresh.symm.trans hph
        · cases hfresh.symm.trans hph
      exact ⟨m.remove a, hmade.remove a, hholds.remove ha⟩
    · rw [hnone] at hreg'
      cases hreg'

/-! ### No dead watchers -/

/-- A closed registry stays closed. -/
lemma Runs.closed_for_good {tr' : List (Label M)} (h : Runs kind tr s)
    (hclosed : s.registry x = none) (h' : Run (Step kind) s tr' s') : s'.registry x = none := by
  have hphase := ((Runs.watching h).closed x).mp hclosed
  have hphase' : (s'.phase x).closed = true :=
    Run.invariant (P := fun s => (s.phase x).closed = true) h' hphase fun _ _ _ ht hs =>
      hs.closed ht
  exact ((Runs.watching (h.trans h')).closed x).mpr hphase'

lemma Registered.not_closed (h : Registered s w x) : s.registry x ≠ none := by
  obtain ⟨ws, hreg, -⟩ := h
  rw [hreg]
  exact nofun

/-- A watcher which is past deregistration is in no registry. -/
lemma Registrations.not_registered (h : Registrations s) (hw : (s.phase w).deregistered = true) :
    ¬ Registered s w x := by
  intro hreg
  rcases h.tracked w x hreg with hx | ⟨cb, hph⟩ | ⟨cb, hph⟩ | ⟨todo, hph, -⟩
  · have hcleared : (s.phase w).cleared = true := by
      revert hw
      generalize s.phase w = p
      intro hw
      unfold Phase.deregistered at hw
      split at hw
      · cases hw
      · exact hw
    rw [h.cleared w hcleared] at hx
    cases hx
  · rw [hph] at hw
    cases hw
  · rw [hph] at hw
    cases hw
  · rw [hph] at hw
    cases hw

/-- **Dead watchers never accumulate.**  Outside of a call of `watch` or `unwatch` and of the
deregistration, whoever is in a registry has its actor in the watched map.  A registry is a map
with one watcher for each ID, the ID of the oneshot being nobody else's.  A watcher which has
deregistered is in no registry any more, and never will be.  The signal of an actor, in a mailbox
or handed over, means that its registry is closed for good. -/
theorem registrations_tracked (h : Runs kind tr s) :
    (∀ w x, (s.phase w).inCall = false → (∀ todo, s.phase w ≠ .terminating (.deregister todo)) →
      Registered s w x → x ∈ s.watched w) ∧
    (∀ rootId x ws, s.phase rootId = .unborn → s.registry x = some ws →
      (∃ m : WatcherMap rootId, m.Made ∧ m.Holds ws) ∧
        ∀ v ∈ ws, ∀ v' ∈ ws, v.watcherId rootId = v'.watcherId rootId → v = v') ∧
    (∀ w, (s.phase w).deregistered = true →
      ∀ tr' s', Run (Step kind) s tr' s' → ∀ x, ¬ Registered s' w x) ∧
    (∀ w x, .terminated x ∈ s.queue w →
      ∀ tr' s', Run (Step kind) s tr' s' → s'.registry x = none) ∧
    ∀ w x s', Step kind s (.hand w (.terminated x)) s' →
      ∀ tr' s'', Run (Step kind) s' tr' s'' → ¬ Registered s'' w x := by
  have hw := Runs.watching h
  have hinv := Runs.registrations h
  refine ⟨fun w x hcall hterm hreg => ?_, fun rootId x ws hfresh hreg => ?_,
    fun w hph tr' s' h' x => ?_, fun w x hq tr' s' h' => ?_, fun w x s' hs tr' s'' h' hreg => ?_⟩
  · rcases hinv.tracked w x hreg with hx | ⟨cb, hph⟩ | ⟨cb, hph⟩ | ⟨todo, hph, -⟩
    · exact hx
    · rw [hph] at hcall
      cases hcall
    · rw [hph] at hcall
      cases hcall
    · exact absurd hph (hterm todo)
  · obtain ⟨m, hmade, hholds⟩ := Runs.watcherMap h rootId x ws hfresh hreg
    exact ⟨⟨m, hmade, hholds⟩, fun v hv v' hv' => hholds.unique hv hv'⟩
  · have hph' : (s'.phase w).deregistered = true :=
      Run.invariant (P := fun s => (s.phase w).deregistered = true) h' hph fun _ _ _ ht hs =>
        hs.deregistered ht
    exact (Runs.registrations (h.trans h')).not_registered hph'
  · exact Runs.closed_for_good h ((hw.closed x).mpr (hw.queued w x hq)) h'
  · have hclosed := (hw.closed x).mpr (hw.taking w x hs.handed.1)
    have hrun : Run (Step kind) s ([.hand w (.terminated x)] ++ tr') s'' :=
      (Run.nil.snoc hs).trans h'
    exact hreg.not_closed (Runs.closed_for_good h hclosed hrun)

/-- A parent which watches its child is in its registry, and has it in its watched map. -/
theorem registrations_tracked_parent : ∃ tr s, Runs (M := Unit) (fun _ => .plain) tr s ∧
    Registered s parentId childId ∧ childId ∈ s.watched parentId := by
  have h : Runs (M := Unit) (fun _ => .plain) [] Sys.init := .nil
  have h := h.snoc (.spawnRoot (r := parentId) rfl)
  have h := h.snoc (.spawn (a := parentId) (c := childId) rfl rfl)
  have h := h.snoc (.watchAdded (a := parentId) (x := childId) rfl (by simp [Phase.start]) rfl)
  have h := h.snoc (.watchMapped (a := parentId) rfl)
  refine ⟨_, _, h, ⟨_, rfl, Finset.mem_insert_self _ _⟩, ?_⟩
  exact (registrations_tracked h).1 _ _ rfl (by simp) ⟨_, rfl, Finset.mem_insert_self _ _⟩

end Tellus
