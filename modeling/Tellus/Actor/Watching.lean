import Mathlib.Tactic
import Tellus.Actor.Steps

/-!
Watching: no terminated signal is lost, and none is handed over twice.

A registration lives on two sides, in the registry of the watched actor and in the watched map
of the watcher, and the signal travels between them.  `Notified` lists where it can be;
`Watching` is the invariant which keeps it there, through every call of `watch` and `unwatch`
and every step of `terminate` in between.

* `Notified.step`: a signal on its way stays on its way until it is handed over or dropped.
* `no_signal_lost`: an actor which watches another is registered, about to be signalled, or has
  the signal in its mailbox.
* `handed_only_while_watched`: a signal is handed over only for the latest watch, and once.
-/

namespace Tellus

open Concurrent

variable {M : Type} {kind : ActorId → Kind} {s s' : Sys M} {l : Label M} {w x : ActorId}
  {tr : List (Label M)}

/-! ### Where a signal can be -/

/-- The signal of `x` is on its way to `w`: `w` is registered, or still to be sent to, or the
signal is in the mailbox or just taken out of it. -/
def Notified (s : Sys M) (w x : ActorId) : Prop :=
  (∃ ws, s.registry x = some ws ∧ .actor w ∈ ws) ∨
    (∃ todo, s.phase x = .terminating (.signal todo) ∧ .actor w ∈ todo) ∨
    .terminated x ∈ s.queue w ∨ s.phase w = .taking (.terminated x)

/-- What holds of registries, watched maps and signals. -/
structure Watching (s : Sys M) : Prop where
  closed : ∀ x, s.registry x = none ↔ (s.phase x).closed = true
  unborn : ∀ w, s.phase w = .unborn → s.watched w = ∅
  queued : ∀ w x, .terminated x ∈ s.queue w → (s.phase x).closed = true
  taking : ∀ w x, s.phase w = .taking (.terminated x) → (s.phase x).closed = true
  refused : ∀ w cb x, s.phase w = .calling cb (.watchAdded x false) →
    (s.phase x).closed = true
  mapped : ∀ w cb x, s.phase w = .calling cb (.watchMapped x) → (s.phase x).closed = true
  unmapped : ∀ w cb x, s.phase w = .calling cb (.unwatchMapped x) → x ∉ s.watched w
  added : ∀ w cb x, s.phase w = .calling cb (.watchAdded x true) → Notified s w x
  notified : ∀ w x, (s.phase w).live = true → x ∈ s.watched w →
    Notified s w x ∨ ∃ cb, s.phase w = .calling cb (.watchMapped x)

/-- **A signal stays on its way** until it is handed over or dropped, or the watcher goes. -/
lemma Notified.step (hs : Step kind s l s') (h : Notified s w x)
    (hlive : (s.phase w).live = true) (hlive' : (s'.phase w).live = true)
    (hhand : l ≠ .hand w (.terminated x)) (hdiscard : l ≠ .discard w x)
    (hcall : ∀ cb, s.phase w ≠ .calling cb (.unwatchMapped x)) : Notified s' w x := by
  rcases h with ⟨ws, hreg, hw⟩ | ⟨todo, hphase, hw⟩ | hq | ht
  · rcases hs.registry x with hsame | ⟨v, ws', hws', hadd, -⟩ | ⟨a, hrem, hwhy⟩ | ⟨-, htake, -⟩
    · exact .inl ⟨ws, hsame.trans hreg, hw⟩
    · obtain rfl : ws = ws' := by simpa using hreg.symm.trans hws'
      exact .inl ⟨_, hadd, Finset.mem_insert_of_mem hw⟩
    · have hne : a ≠ w := by
        rintro rfl
        rcases hwhy with ⟨cb, hcb⟩ | ⟨todo, -, -, hph⟩
        · exact hcall cb hcb
        · rw [hph] at hlive'
          cases hlive'
      refine .inl ⟨ws.erase (.actor a), ?_, ?_⟩
      · rw [hrem, Sys.removed, hreg, Option.map_some]
      · exact Finset.mem_erase.mpr ⟨fun h => hne (Watcher.actor.inj h).symm, hw⟩
    · refine .inr (.inl ⟨_, htake, ?_⟩)
      rw [hreg]
      exact hw
  · rcases hs.signalling hphase with hsame | ⟨rfl, -⟩ | ⟨v, -, herase, hsend, -⟩
    · exact .inr (.inl ⟨todo, hsame, hw⟩)
    · exact absurd hw (Finset.notMem_empty _)
    · by_cases hv : v = .actor w
      · -- it is this watcher's turn, and its mailbox is there
        have hl := hsend w hv (Phase.connected_of_live hlive)
        subst hl
        obtain ⟨-, hqueue, -⟩ := hs.sent
        exact .inr (.inr (.inl (by rw [hqueue]; simp)))
      · exact .inr (.inl ⟨_, herase, Finset.mem_erase.mpr ⟨fun h => hv h.symm, hw⟩⟩)
  · rcases hs.queue w with hsame | ⟨item, -, happ⟩ | ⟨item, -, htake, hhead⟩ | ⟨-, hdrain, -⟩
    · exact .inr (.inr (.inl (hsame ▸ hq)))
    · exact .inr (.inr (.inl (by rw [happ]; exact List.mem_append_left _ hq)))
    · rw [hhead] at hq
      rcases List.mem_cons.mp hq with rfl | hq
      · exact .inr (.inr (.inr htake))
      · exact .inr (.inr (.inl hq))
    · rw [hdrain] at hlive'
      cases hlive'
  · rcases hs.taking ht with hsame | hl | ⟨y, hy, hl⟩
    · exact .inr (.inr (.inr hsame))
    · exact absurd hl hhand
    · cases hy
      exact absurd hl hdiscard

/-! ### The invariant -/

lemma Watching.init : Watching (Sys.init : Sys M) where
  closed := fun x => by simp [Sys.init, Phase.closed]
  unborn := fun _ _ => rfl
  queued := fun _ _ h => by cases h
  taking := fun _ _ h => by cases h
  refused := fun _ _ _ h => by cases h
  mapped := fun _ _ _ h => by cases h
  unmapped := fun _ _ _ h => by cases h
  added := fun _ _ _ h => by cases h
  notified := fun _ _ h => by cases h

/-- A step which hands an item over or drops a signal finds its actor with the item taken. -/
lemma Step.taking_of_label (hs : Step kind s l s')
    (h : l = .hand w (.terminated x) ∨ l = .discard w x) :
    s.phase w = .taking (.terminated x) := by
  rcases h with rfl | rfl
  · exact hs.handed.1
  · exact hs.discarded.1

/-- A signal stays on its way while the watcher is inside of its call of `watch`. -/
lemma Notified.step_watching {y : ActorId} {cb : Callback} {ok : Bool} (hs : Step kind s l s')
    (h : Notified s w x) (hph : s.phase w = .calling cb (.watchAdded y ok))
    (hlive' : (s'.phase w).live = true) : Notified s' w x := by
  have hnot : s.phase w ≠ .taking (.terminated x) := by rw [hph]; exact nofun
  exact h.step hs (by rw [hph]; rfl) hlive' (fun hl => hnot (hs.taking_of_label (.inl hl)))
    (fun hl => hnot (hs.taking_of_label (.inr hl))) fun cb' => by rw [hph]; exact nofun

/-- A registry stays closed. -/
lemma Watching.step_closed (h : Watching s) (hs : Step kind s l s') (x : ActorId) :
    s'.registry x = none ↔ (s'.phase x).closed = true := by
  constructor
  · intro hnone
    rcases hs.registry x with hsame | ⟨v, ws, -, hadd, -⟩ | ⟨a, hrem, -⟩ | ⟨-, htake, -⟩
    · exact hs.closed ((h.closed x).mp (hsame ▸ hnone))
    · rw [hadd] at hnone
      cases hnone
    · rw [hrem, Sys.removed, Option.map_eq_none_iff] at hnone
      exact hs.closed ((h.closed x).mp hnone)
    · rw [htake]
      rfl
  · intro hclosed
    rcases hs.closes hclosed with hc | hnone
    · have hnone := (h.closed x).mpr hc
      rcases hs.registry x with hsame | ⟨v, ws, hws, -⟩ | ⟨a, hrem, -⟩ | ⟨-, -, hnone'⟩
      · exact hsame.trans hnone
      · rw [hnone] at hws
        cases hws
      · rw [hrem, Sys.removed, hnone, Option.map_none]
      · exact hnone'
    · exact hnone

/-- A signal in a mailbox is that of an actor whose registry is closed. -/
lemma Watching.step_queued (h : Watching s) (hs : Step kind s l s')
    (hq : .terminated x ∈ s'.queue w) : (s'.phase x).closed = true := by
  rcases hs.queue w with hsame | ⟨item, rfl, happ⟩ | ⟨item, -, -, hhead⟩ | ⟨-, -, hnil⟩
  · exact hs.closed (h.queued w x (hsame ▸ hq))
  · rw [happ, List.mem_append, List.mem_singleton] at hq
    rcases hq with hq | rfl
    · exact hs.closed (h.queued w x hq)
    · obtain ⟨-, -, hwhy⟩ := hs.sent
      rcases hwhy with ⟨m, hm⟩ | ⟨a, m, hm, -⟩ | ⟨y, todo, hy, hsig⟩ | ⟨y, cb, hy, hmap⟩
      · cases hm
      · cases hm
      · cases hy
        exact hs.closed (by rw [hsig]; rfl)
      · cases hy
        exact hs.closed (h.mapped w cb x hmap)
  · exact hs.closed (h.queued w x (by rw [hhead]; exact List.mem_cons_of_mem _ hq))
  · rw [hnil] at hq
    cases hq

/-- Whoever watches after a step is notified, or about to send itself the signal. -/
lemma Watching.step_notified (h : Watching s) (hs : Step kind s l s')
    (hlive' : (s'.phase w).live = true) (hx : x ∈ s'.watched w) :
    Notified s' w x ∨ ∃ cb, s'.phase w = .calling cb (.watchMapped x) := by
  have hlive : (s.phase w).live = true := by
    refine (hs.live hlive').resolve_right fun ⟨hunborn, _⟩ => ?_
    have hempty := h.unborn w hunborn
    rcases hs.watched w with hsame | ⟨cb, y, ok, hph, -⟩ | ⟨y, herase, -⟩ | ⟨hph, -⟩
    · rw [hsame, hempty] at hx
      cases hx
    · rw [hunborn] at hph
      cases hph
    · rw [herase, hempty] at hx
      cases hx
    · rw [hunborn] at hph
      cases hph
  -- a watched actor whose signal is neither handed over nor dropped by this step
  have keep : x ∈ s.watched w → l ≠ .hand w (.terminated x) →
      Notified s' w x ∨ ∃ cb, s'.phase w = .calling cb (.watchMapped x) := by
    intro hx hhand
    rcases h.notified w x hlive hx with hn | ⟨cb, hph⟩
    · refine .inl (hn.step hs hlive hlive' hhand (fun hl => ?_) fun cb hcb => ?_)
      · subst hl
        exact hs.discarded.2.1 hx
      · exact h.unmapped w cb x hcb hx
    · rcases hs.leaves hph with hsame | hl
      · exact .inr ⟨cb, hsame⟩
      · obtain rfl : l = .send w (.terminated x) := hl
        exact .inl (.inr (.inr (.inl (by rw [hs.sent.2.1]; simp))))
  rcases hs.watched w with hsame | ⟨cb, y, ok, hph, hph', hins⟩ | ⟨y, herase, hl⟩ | ⟨-, -, hph'⟩
  · rw [hsame] at hx
    refine keep hx fun hl => ?_
    subst hl
    have := (hs.handed.2.2.2 x rfl).2
    rw [hsame] at this
    rw [this] at hx
    exact Finset.notMem_erase x _ hx
  · have hlabel : ∀ z, l ≠ .hand w (.terminated z) := fun z hl => by
      have := hs.taking_of_label (.inl hl)
      rw [hph] at this
      cases this
    rw [hins] at hx
    rcases Finset.mem_insert.mp hx with rfl | hx
    · cases ok with
      | false => exact .inr ⟨cb, hph'⟩
      | true => exact .inl ((h.added w cb x hph).step_watching hs hph hlive')
    · exact keep hx (hlabel x)
  · rw [herase] at hx
    obtain ⟨hne, hx⟩ := Finset.mem_erase.mp hx
    refine keep hx fun hl' => ?_
    rcases hl with hl | hl
    · rw [hl'] at hl
      cases hl
    · rw [hl'] at hl
      cases hl
      exact hne rfl
  · rw [hph'] at hlive'
    cases hlive'

/-- **Every step keeps the invariant.** -/
lemma Watching.step (h : Watching s) (hs : Step kind s l s') : Watching s' where
  closed := h.step_closed hs
  queued := fun w x hq => h.step_queued hs hq
  notified := fun w x hlive hx => h.step_notified hs hlive hx
  unborn := fun w hunborn => by
    have hunborn : s.phase w = .unborn := by
      by_contra hborn
      exact hs.born hborn hunborn
    have hempty := h.unborn w hunborn
    rcases hs.watched w with hsame | ⟨cb, y, ok, hph, -⟩ | ⟨y, herase, -⟩ | ⟨-, hclear, -⟩
    · exact hsame.trans hempty
    · rw [hunborn] at hph
      cases hph
    · rw [herase, hempty, Finset.erase_empty]
    · exact hclear
  taking := fun w x ht => by
    rcases hs.takes ht with hsame | ⟨-, hhead⟩
    · exact hs.closed (h.taking w x hsame)
    · exact hs.closed (h.queued w x (by rw [hhead]; exact List.mem_cons_self))
  refused := fun w cb x hph => by
    rcases hs.calls hph with hsame | ⟨-, hreg⟩
    · exact hs.closed (h.refused w cb x hsame)
    · exact hs.closed ((h.closed x).mp hreg)
  mapped := fun w cb x hph => by
    rcases hs.calls hph with hsame | hadded
    · exact hs.closed (h.mapped w cb x hsame)
    · exact hs.closed (h.refused w cb x hadded)
  unmapped := fun w cb x hph => by
    rcases hs.calls hph with hsame | ⟨-, herase⟩
    · have hx := h.unmapped w cb x hsame
      rcases hs.watched w with hw | ⟨cb', y, ok, hph', -⟩ | ⟨y, hw, -⟩ | ⟨hph', -⟩
      · rwa [hw]
      · rw [hsame] at hph'
        cases hph'
      · rw [hw]
        exact fun h => hx (Finset.mem_of_mem_erase h)
      · rw [hsame] at hph'
        cases hph'
    · rw [herase]
      exact Finset.notMem_erase x _
  added := fun w cb x hph => by
    rcases hs.calls hph with hsame | ⟨-, ws, -, hreg⟩
    · exact (h.added w cb x hsame).step_watching hs hsame (by rw [hph]; rfl)
    · exact .inl ⟨_, hreg, Finset.mem_insert_self _ _⟩

/-- The invariant holds in every run. -/
lemma Runs.watching (h : Runs kind tr s) : Watching s :=
  Run.invariant h Watching.init fun _ _ _ ht hs => ht.step hs

/-! ### No signal is lost -/

/-- Inside of a call of `watch`. -/
def Phase.inWatch : Phase M → Bool
  | .calling _ (.watchAdded _ _) => true
  | .calling _ (.watchMapped _) => true
  | _ => false

/-- An actor which watches its child. -/
def parentId : ActorId := ⟨0⟩

/-- The child. -/
def childId : ActorId := ⟨1⟩

/-- A run in which a parent watches its child, and the child sends to its parent and stops. -/
lemma watch_run : ∃ tr s, Runs (M := Unit) (fun _ => .plain) tr s ∧
    .send parentId (.message (some childId) ()) ∈ tr ∧ s.phase parentId = .idle ∧
    s.phase childId = .finished ∧ s.watched parentId = {childId} ∧
    s.queue parentId = [.message (some childId) (), .terminated childId] ∧
    ¬s.Signalled parentId := by
  have h : Runs (M := Unit) (fun _ => .plain) [] Sys.init := .nil
  have h := h.snoc (.spawnRoot (r := parentId) rfl)
  have h := h.snoc (.spawn (a := parentId) (c := childId) rfl rfl)
  have h := h.snoc (.watchAdded (a := parentId) (x := childId) rfl (by simp [Phase.start]) rfl)
  have h := h.snoc (.watchMapped (a := parentId) rfl)
  have h := h.snoc (.move (a := parentId) rfl (.returned (.initialised _)))
  have h := h.snoc (.move (a := childId) rfl (.returned (.initialised _)))
  have h := h.snoc (.tellOutside (b := childId) () rfl)
  have h := h.snoc (.move (a := childId) rfl (.polled (Sys.not_signalled_child rfl rfl)))
  have h := h.snoc (.take (a := childId) rfl rfl)
  have h := h.snoc (.move (a := childId) rfl .handMessage)
  have h := h.snoc (.tell (a := childId) (b := parentId) () rfl rfl)
  have h := h.snoc (.move (a := childId) rfl (.returned .stops))
  have h := h.snoc (.drain (a := childId) rfl)
  have h := h.snoc (.move (a := childId) rfl .disconnected)
  have h := h.snoc (.takeWatched (a := childId) rfl)
  have h := h.snoc (.move (a := childId) rfl .deregistered)
  have h := h.snoc (.stopChildren (a := childId) rfl)
  have h := h.snoc (.move (a := childId) rfl (.childrenTerminated fun c g hc => by
    have hne : parentId ≠ childId := by decide
    by_cases hc' : c = childId <;> simp [hc', hne, Sys.init] at hc))
  have h := h.snoc (.move (a := childId) rfl .actorDropped)
  have h := h.snoc (.takeWatchers (a := childId) rfl)
  have h := h.snoc (.signal (a := childId) (b := parentId) rfl (by decide) rfl)
  have h := h.snoc (.move (a := childId) rfl .finished)
  exact ⟨_, _, h, by simp, rfl, rfl, rfl, rfl, Sys.not_signalled_root rfl rfl⟩

/-- **No terminated signal is lost.**  While a live actor outside of a `watch` call watches
another, it is registered with it or still to be signalled by it, or the signal is in its mailbox
or just being taken from there; once the other one has finished, only the last two are left. -/
theorem no_signal_lost (h : Runs kind tr s) (hlive : (s.phase w).live = true)
    (hcall : (s.phase w).inWatch = false) (hx : x ∈ s.watched w) :
    Notified s w x ∧ (s.phase x = .finished →
      .terminated x ∈ s.queue w ∨ s.phase w = .taking (.terminated x)) := by
  have hinv := Runs.watching h
  have hn : Notified s w x := by
    rcases hinv.notified w x hlive hx with hn | ⟨cb, hph⟩
    · exact hn
    · rw [hph] at hcall
      cases hcall
  refine ⟨hn, fun hfin => ?_⟩
  have hclosed : s.registry x = none := (hinv.closed x).mpr (by rw [hfin]; rfl)
  rcases hn with ⟨ws, hreg, -⟩ | ⟨todo, hph, -⟩ | hq
  · rw [hclosed] at hreg
    cases hreg
  · rw [hfin] at hph
    cases hph
  · exact hq

/-- The parent finds the signal of its child in its mailbox. -/
theorem parent_is_signalled : ∃ tr s, Runs (M := Unit) (fun _ => .plain) tr s ∧
    s.phase childId = .finished ∧ childId ∈ s.watched parentId ∧
    (.terminated childId ∈ s.queue parentId ∨
      s.phase parentId = .taking (.terminated childId)) := by
  obtain ⟨tr, s, h, -, hparent, hchild, hwatched, -⟩ := watch_run
  have hx : childId ∈ s.watched parentId := by rw [hwatched]; exact Finset.mem_singleton_self _
  exact ⟨tr, s, h, hchild, hx,
    (no_signal_lost h (by rw [hparent]; rfl) (by rw [hparent]; rfl) hx).2 hchild⟩

/-! ### One signal for each watch -/

/-- What has happened between a watcher and another actor. -/
inductive WatchEvent where
  | watch
  | unwatch
  | handed
  deriving DecidableEq

/-- The calls of `watch` and `unwatch` by `w` on `x`, and the signals of `x` handed to `w`, in the
order of the run. -/
def watchEvents (w x : ActorId) (tr : List (Label M)) : List WatchEvent :=
  tr.filterMap fun
    | .watch a y => if a = w ∧ y = x then some .watch else none
    | .unwatch a y => if a = w ∧ y = x then some .unwatch else none
    | .hand a (.terminated y) => if a = w ∧ y = x then some .handed else none
    | _ => none

/-- What is watched was last the subject of a `watch`. -/
def LastWatched (tr : List (Label M)) (s : Sys M) : Prop :=
  ∀ w x, (x ∈ s.watched w ∨ ∃ cb ok, s.phase w = .calling cb (.watchAdded x ok)) →
    (watchEvents w x tr).getLast? = some .watch

lemma watchEvents_snoc (w x : ActorId) (tr : List (Label M)) (l : Label M) :
    watchEvents w x (tr ++ [l]) = watchEvents w x tr ++ watchEvents w x [l] :=
  List.filterMap_append ..

/-- A label which is not between `w` and `x`. -/
lemma watchEvents_other (h : l ≠ .watch w x) (h' : l ≠ .unwatch w x)
    (h'' : l ≠ .hand w (.terminated x)) : watchEvents w x [l] = [] := by
  cases l with
  | watch a y =>
      have : ¬(a = w ∧ y = x) := fun ⟨ha, hy⟩ => h (by rw [ha, hy])
      simp [watchEvents, this]
  | unwatch a y =>
      have : ¬(a = w ∧ y = x) := fun ⟨ha, hy⟩ => h' (by rw [ha, hy])
      simp [watchEvents, this]
  | hand a item =>
      cases item with
      | message o m => rfl
      | terminated y =>
          have : ¬(a = w ∧ y = x) := fun ⟨ha, hy⟩ => h'' (by rw [ha, hy])
          simp [watchEvents, this]
  | _ => rfl

/-- **Every step keeps what is watched last watched.** -/
lemma LastWatched.step (h : LastWatched tr s) (hs : Step kind s l s') :
    LastWatched (tr ++ [l]) s' := by
  intro w x hx
  rw [watchEvents_snoc]
  by_cases hw : l = .watch w x
  · subst hw
    simp [watchEvents]
  by_cases hu : l = .unwatch w x
  · subst hu
    obtain ⟨hnot, hcall⟩ := hs.unwatched
    rcases hx with hx | ⟨cb, ok, hph⟩
    · exact absurd hx hnot
    · exact absurd hph (hcall cb x ok)
  by_cases hh : l = .hand w (.terminated x)
  · subst hh
    obtain ⟨-, hph', -, herase⟩ := hs.handed
    rcases hx with hx | ⟨cb, ok, hph⟩
    · rw [(herase x rfl).2] at hx
      exact absurd hx (Finset.notMem_erase x _)
    · rw [hph'] at hph
      cases hph
  rw [watchEvents_other hw hu hh, List.append_nil]
  refine h w x ?_
  rcases hx with hx | ⟨cb, ok, hph⟩
  · rcases hs.watched w with hsame | ⟨cb, y, ok, hph, -, hins⟩ | ⟨y, herase, -⟩ | ⟨-, hclear, -⟩
    · exact .inl (hsame ▸ hx)
    · rw [hins] at hx
      rcases Finset.mem_insert.mp hx with rfl | hx
      · exact .inr ⟨cb, ok, hph⟩
      · exact .inl hx
    · rw [herase] at hx
      exact .inl (Finset.mem_of_mem_erase hx)
    · rw [hclear] at hx
      cases hx
  · rcases hs.calls hph with hsame | hentered
    · exact .inr ⟨cb, ok, hsame⟩
    · cases ok with
      | true => exact absurd hentered.1 hw
      | false => exact absurd hentered.1 hw

/-- What is watched was last the subject of a `watch`, in every run. -/
lemma Runs.lastWatched (h : Runs kind tr s) : LastWatched tr s := by
  refine Run.induction h ?_ fun _ _ _ _ _ ht hs => ht.step hs
  rintro w x (hx | ⟨cb, ok, hph⟩)
  · cases hx
  · cases hph

/-- The block of equal events a history ends with. -/
lemma exists_last_block {e : WatchEvent} {es : List WatchEvent} (h : es.getLast? = some e) :
    ∃ earlier since, es = earlier ++ e :: since ∧ (∀ e' ∈ since, e' = e) ∧
      earlier.getLast? ≠ some e := by
  induction es using List.reverseRecOn with
  | nil => cases h
  | append_singleton es e' ih =>
      obtain rfl : e' = e := by simpa using h
      by_cases hlast : es.getLast? = some e'
      · obtain ⟨earlier, since, rfl, hsince, hearlier⟩ := ih hlast
        refine ⟨earlier, since ++ [e'], by simp, fun e'' he => ?_, hearlier⟩
        rcases List.mem_append.mp he with he | he
        · exact hsince e'' he
        · exact List.mem_singleton.mp he
      · exact ⟨es, [], rfl, fun _ h => (by cases h), hlast⟩

/-- An event is followed by another one which is the last. -/
lemma mem_of_getLast? {e e' : WatchEvent} {before after : List WatchEvent} (hne : e' ≠ e)
    (h : (before ++ e' :: after).getLast? = some e) : e ∈ after := by
  cases after with
  | nil => exact absurd (by simpa using h) hne
  | cons a as => exact List.mem_of_getLast? (by simpa using h)

/-- The parent's run goes on: it is handed the message and the signal of its child. -/
lemma hand_run : ∃ tr s s', Runs (M := Unit) (fun _ => .plain) tr s ∧
    .send parentId (.message (some childId) ()) ∈ tr ∧
    Step (fun _ => .plain) s (.hand parentId (.terminated childId)) s' := by
  obtain ⟨tr, s, h, hsent, hparent, -, hwatched, hqueue, hsignalled⟩ := watch_run
  have h := h.snoc (.move (a := parentId) hparent (.polled hsignalled))
  have h := h.snoc (.take (a := parentId) rfl hqueue)
  have h := h.snoc (.move (a := parentId) rfl .handMessage)
  have h := h.snoc (.move (a := parentId) rfl (.returned .continues))
  have h := h.snoc (.move (a := parentId) rfl (.polled hsignalled))
  have h := h.snoc (.take (a := parentId) rfl rfl)
  exact ⟨_, _, _, h, by simp [hsent], .handSignal rfl (by simp [hwatched])⟩

/-- **One signal for each watch, and none after an unwatch.**  When the signal of `x` is handed to
`w`, the latest call of `w` on `x` was a `watch`, and since the one which made `x` watched nothing
but further `watch` calls has happened between the two; so after an `unwatch`, and after a signal
handed over, there has been a `watch` again. -/
theorem handed_only_while_watched (h : Runs kind tr s)
    (hs : Step kind s (.hand w (.terminated x)) s') :
    (∃ earlier since, watchEvents w x tr = earlier ++ .watch :: since ∧
        (∀ e ∈ since, e = .watch) ∧ earlier.getLast? ≠ some .watch) ∧
      (∀ before after, watchEvents w x tr = before ++ .unwatch :: after → .watch ∈ after) ∧
      ∀ before after, watchEvents w x tr = before ++ .handed :: after → .watch ∈ after := by
  have hlast : (watchEvents w x tr).getLast? = some .watch :=
    Runs.lastWatched h w x (.inl (hs.handed.2.2.2 x rfl).1)
  refine ⟨exists_last_block hlast, fun before after heq => ?_, fun before after heq => ?_⟩
  · exact mem_of_getLast? (by simp) (heq ▸ hlast)
  · exact mem_of_getLast? (by simp) (heq ▸ hlast)

/-- The parent has watched its child by the time its signal is handed over. -/
theorem parent_is_handed : ∃ tr s s', Runs (M := Unit) (fun _ => .plain) tr s ∧
    Step (fun _ => .plain) s (.hand parentId (.terminated childId)) s' ∧
    ∃ earlier since, watchEvents parentId childId tr = earlier ++ .watch :: since ∧
      (∀ e ∈ since, e = .watch) ∧ earlier.getLast? ≠ some .watch := by
  obtain ⟨tr, s, s', h, -, hs⟩ := hand_run
  exact ⟨tr, s, s', h, hs, (handed_only_while_watched h hs).1⟩

end Tellus
