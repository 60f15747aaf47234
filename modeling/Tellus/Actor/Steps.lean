import Mathlib.Tactic
import Tellus.Actor.System

/-!
What a step of a system of actors can do, component by component.

Each lemma takes one component of the state and lists everything a step can have done to it, so
that the invariants of the later modules follow from these lists and not from the steps
themselves.

* `Step.phase_of_born`, `Step.closed`, `Step.live`: how phases come and go.
* `Step.registry`, `Step.signalling`: the registry of an actor, and its watchers once taken.
* `Step.queue`, `Step.taking`: what enters and leaves a mailbox.
* `Step.watched`: the watched map of an actor.
-/

namespace Tellus

open Concurrent

variable {M : Type} {kind : ActorId → Kind} {s s' : Sys M} {l : Label M} {a : ActorId}
  {p p' : Phase M}

/-! ### Phases -/

/-- The two heads of a run loop. -/
lemma Phase.start_cases (k : Kind) :
    (start k : Phase M) = .calling .init .none ∨ (start k : Phase M) = .recovering := by
  cases k
  · exact .inl rfl
  · exact .inr rfl

lemma Phase.live_start (k : Kind) : (start k : Phase M).live = true := by
  rcases start_cases k with h | h <;> rw [h] <;> rfl

lemma Phase.start_ne_unborn (k : Kind) : (start k : Phase M) ≠ .unborn := by
  rcases start_cases k with h | h <;> rw [h] <;> simp

lemma Phase.connected_of_live (h : p.live = true) : p.connected = true := by
  unfold connected
  split
  · rfl
  · exact h

/-- Where user code runs, registration is still open. -/
lemma Phase.not_closed_of_active (h : p.active = true) : p.closed = false := by
  cases p with
  | terminating t => cases t <;> simp_all [active, closed]
  | _ => simp_all [active, closed]

/-- A live actor has not taken its watchers. -/
lemma Phase.not_closed_of_live (h : p.live = true) : p.closed = false := by
  cases p with
  | terminating t => cases t <;> simp_all [live, closed]
  | _ => simp_all [live, closed]

/-- Where callbacks return to. -/
lemma Returns.to {k : Kind} {cb : Callback} (h : Returns k cb p) :
    p = .idle ∨ p = .failed ∨ p = .settling ∨ p = .dropping true ∨ p = .terminating .drain := by
  cases h <;> simp

/-- The way an actor goes through its phases: `unborn` is left for good, the watchers are taken
and the mailbox is drained at most once. -/
structure Forward (p p' : Phase M) : Prop where
  born : p ≠ .unborn
  stays_born : p' ≠ .unborn
  stays_closed : p.closed = true → p'.closed = true
  closes : p'.closed = true → p.closed = true ∨ p = .terminating .takeWatchers
  was_live : p'.live = true → p.live = true

lemma Move.forward (h : Move kind s a p l p') : Forward p p' := by
  cases h with
  | returned h =>
      rcases h.to with rfl | rfl | rfl | rfl | rfl <;> constructor <;>
        simp [Phase.live, Phase.closed]
  | dropped fails => cases fails <;> constructor <;> simp [Phase.live, Phase.closed]
  | restarted =>
      rcases Phase.start_cases (kind a) with h | h <;> rw [h] <;> constructor <;>
        simp [Phase.live, Phase.closed]
  | _ => constructor <;> simp [Phase.live, Phase.closed]

/-- **What a step does to the phases**: nothing, or an actor is spawned, or one actor goes
forward. -/
lemma Step.phase (hs : Step kind s l s') :
    s'.phase = s.phase ∨
      (∃ c, s.phase c = .unborn ∧ s'.phase = Function.update s.phase c (.start (kind c))) ∨
      ∃ a p, Forward (s.phase a) p ∧ s'.phase = Function.update s.phase a p := by
  cases hs with
  | spawnRoot h => exact .inr (.inl ⟨_, h, rfl⟩)
  | spawn _ h => exact .inr (.inl ⟨_, h, rfl⟩)
  | watchRoot => exact .inl rfl
  | watchRootLate => exact .inl rfl
  | stop => exact .inl rfl
  | tell => exact .inl rfl
  | tellOutside => exact .inl rfl
  | move ha h => exact .inr (.inr ⟨_, _, ha ▸ h.forward, rfl⟩)
  | watchMapped ha =>
      refine .inr (.inr ⟨_, _, ?_, rfl⟩)
      rw [ha]
      split <;> constructor <;> simp [Phase.live, Phase.closed]
  | watchAdded ha | watchSignals ha | unwatch ha | unwatchRemoved ha | take ha | handSignal ha
  | restart ha | stopChildren ha | drain ha | takeWatched ha | deregister ha | takeWatchers ha
  | signal ha | signalRoot ha | signalRootAgain ha =>
      refine .inr (.inr ⟨_, _, ?_, rfl⟩)
      rw [ha]
      constructor <;> simp [Phase.live, Phase.closed]

/-- The phase of one actor after a step. -/
lemma Step.phase_at (hs : Step kind s l s') (b : ActorId) :
    s'.phase b = s.phase b ∨ (s.phase b = .unborn ∧ s'.phase b = .start (kind b)) ∨
      Forward (s.phase b) (s'.phase b) := by
  rcases hs.phase with h | ⟨c, hc, h⟩ | ⟨a, p, hp, h⟩
  · exact .inl (congrFun h b)
  · by_cases hb : b = c
    · subst hb
      exact .inr (.inl ⟨hc, by rw [h, Function.update_self]⟩)
    · exact .inl (by rw [h, Function.update_of_ne hb])
  · by_cases hb : b = a
    · subst hb
      refine .inr (.inr ?_)
      rw [h, Function.update_self]
      exact hp
    · exact .inl (by rw [h, Function.update_of_ne hb])

lemma Step.born (hs : Step kind s l s') {b : ActorId} (h : s.phase b ≠ .unborn) :
    s'.phase b ≠ .unborn := by
  rcases hs.phase_at b with h' | ⟨h', -⟩ | h'
  · rwa [h']
  · exact absurd h' h
  · exact h'.stays_born

lemma Step.closed (hs : Step kind s l s') {b : ActorId} (h : (s.phase b).closed = true) :
    (s'.phase b).closed = true := by
  rcases hs.phase_at b with h' | ⟨h', -⟩ | h'
  · rwa [h']
  · rw [h'] at h
    cases h
  · exact h'.stays_closed h

lemma Step.live (hs : Step kind s l s') {b : ActorId} (h : (s'.phase b).live = true) :
    (s.phase b).live = true ∨ s.phase b = .unborn ∧ s'.phase b = .start (kind b) := by
  rcases hs.phase_at b with h' | h' | h'
  · exact .inl (h' ▸ h)
  · exact .inr h'
  · exact .inl (h'.was_live h)

/-! ### Registries -/

/-- **What a step does to a registry**: a watcher is added, an actor is removed by itself, or the
watchers are taken. -/
lemma Step.registry (hs : Step kind s l s') (x : ActorId) :
    s'.registry x = s.registry x ∨
      (∃ w ws, s.registry x = some ws ∧ s'.registry x = some (insert w ws) ∧
        (w = .root ∨ ∃ a, w = .actor a ∧ l = .watch a x)) ∨
      (∃ a, s'.registry x = s.removed x (.actor a) ∧
        ((∃ cb, s.phase a = .calling cb (.unwatchMapped x)) ∨
          ∃ todo, s.phase a = .terminating (.deregister todo) ∧ x ∈ todo ∧
            s'.phase a = .terminating (.deregister (todo.erase x)))) ∨
      s.phase x = .terminating .takeWatchers ∧
        s'.phase x = .terminating (.signal ((s.registry x).getD ∅)) ∧ s'.registry x = none := by
  cases hs with
  | @watchRoot r ws hborn hroot hsink h =>
      by_cases hx : x = r
      · subst hx
        exact .inr (.inl ⟨.root, ws, h, by simp, .inl rfl⟩)
      · exact .inl (by simp [Function.update_of_ne hx])
  | @watchAdded a y cb ws ha hy h =>
      by_cases hx : x = y
      · subst hx
        exact .inr (.inl ⟨.actor a, ws, h, by simp, .inr ⟨a, rfl, rfl⟩⟩)
      · exact .inl (by simp [Function.update_of_ne hx])
  | @unwatchRemoved a y cb ha =>
      by_cases hx : x = y
      · subst hx
        exact .inr (.inr (.inl ⟨a, by simp, .inl ⟨cb, ha⟩⟩))
      · exact .inl (by simp [Function.update_of_ne hx])
  | @deregister a y todo ha hy =>
      by_cases hx : x = y
      · subst hx
        exact .inr (.inr (.inl ⟨a, by simp, .inr ⟨todo, ha, hy, by simp⟩⟩))
      · exact .inl (by simp [Function.update_of_ne hx])
  | @takeWatchers a ha =>
      by_cases hx : x = a
      · subst hx
        exact .inr (.inr (.inr ⟨ha, by simp, by simp⟩))
      · exact .inl (by simp [Function.update_of_ne hx])
  | _ => exact .inl rfl

/-- The phase of an actor other than the one which goes on. -/
lemma phase_update_of_ne {a b : ActorId} {p q r : Phase M} (hb : s.phase b = q)
    (ha : s.phase a = p) (h : p ≠ q) : Function.update s.phase a r b = q := by
  have hne : b ≠ a := fun hab => h (by rw [← ha, ← hb, hab])
  rw [Function.update_of_ne hne]
  exact hb

/-- The watchers are taken in one step, which closes the registry. -/
lemma Step.takesWatchers (hs : Step kind s l s') {x : ActorId}
    (h : s.phase x = .terminating .takeWatchers) :
    s'.phase x = .terminating .takeWatchers ∨ s'.registry x = none := by
  cases hs with
  | @takeWatchers a ha =>
      by_cases hx : x = a
      · subst hx
        exact .inr (by simp)
      · exact .inl (by simp [Function.update_of_ne hx, h])
  | @move a l p q ha hm =>
      refine .inl (phase_update_of_ne h ha fun hp => ?_)
      subst hp
      cases hm
  | spawnRoot ha | spawn _ ha | watchAdded ha | watchMapped ha | watchSignals ha | unwatch ha
  | unwatchRemoved ha | take ha | handSignal ha | restart ha | stopChildren ha | drain ha
  | takeWatched ha | deregister ha | signal ha | signalRoot ha | signalRootAgain ha =>
      exact .inl (phase_update_of_ne h ha (by simp))
  | _ => exact .inl h

/-- A registry is closed by taking its watchers. -/
lemma Step.closes (hs : Step kind s l s') {x : ActorId} (h : (s'.phase x).closed = true) :
    (s.phase x).closed = true ∨ s'.registry x = none := by
  rcases hs.phase_at x with h' | ⟨-, h'⟩ | h'
  · exact .inl (h' ▸ h)
  · rw [h', Phase.not_closed_of_live (Phase.live_start _)] at h
    cases h
  · rcases h'.closes h with hc | ht
    · exact .inl hc
    · refine .inr ((hs.takesWatchers ht).resolve_left fun ht' => ?_)
      rw [ht'] at h
      cases h

/-- **What a step does to the watchers taken**: one of them is dealt with, or all of them have
been. -/
lemma Step.signalling (hs : Step kind s l s') {x : ActorId} {todo : Finset Watcher}
    (h : s.phase x = .terminating (.signal todo)) :
    s'.phase x = .terminating (.signal todo) ∨ (todo = ∅ ∧ s'.phase x = .finished) ∨
      ∃ w ∈ todo, s'.phase x = .terminating (.signal (todo.erase w)) ∧
        (∀ b, w = .actor b → (s.phase b).connected = true → l = .send b (.terminated x)) ∧
        (w = .root → l = .resolve x ∨ s.sink x ≠ .armed) := by
  cases hs with
  | @move a l p q ha hm =>
      by_cases hx : x = a
      · subst hx
        obtain rfl := h.symm.trans ha
        cases hm with
        | signalLost hb hlost =>
            refine .inr (.inr ⟨_, hb, by simp, fun b hb' hconn => ?_, fun hw => by cases hw⟩)
            cases hb'
            rw [hlost] at hconn
            cases hconn
        | finished => exact .inr (.inl ⟨rfl, by simp⟩)
      · exact .inl (by simp [Function.update_of_ne hx, h])
  | @signal a b todo' ha hb hconn =>
      by_cases hx : x = a
      · subst hx
        obtain rfl : todo = todo' := by simpa using h.symm.trans ha
        refine .inr (.inr ⟨_, hb, by simp, fun b' hb' _ => ?_, fun hw => by cases hw⟩)
        cases hb'
        rfl
      · exact .inl (by simp [Function.update_of_ne hx, h])
  | @signalRoot a todo' ha hroot hsink =>
      by_cases hx : x = a
      · subst hx
        obtain rfl : todo = todo' := by simpa using h.symm.trans ha
        exact .inr (.inr ⟨_, hroot, by simp, fun b hb => (by cases hb), fun _ => .inl rfl⟩)
      · exact .inl (by simp [Function.update_of_ne hx, h])
  | @signalRootAgain a todo' ha hroot hsink =>
      by_cases hx : x = a
      · subst hx
        obtain rfl : todo = todo' := by simpa using h.symm.trans ha
        exact .inr (.inr ⟨_, hroot, by simp, fun b hb => (by cases hb), fun _ => .inr hsink⟩)
      · exact .inl (by simp [Function.update_of_ne hx, h])
  | spawnRoot ha | spawn _ ha | watchAdded ha | watchMapped ha | watchSignals ha | unwatch ha
  | unwatchRemoved ha | take ha | handSignal ha | restart ha | stopChildren ha | drain ha
  | takeWatched ha | deregister ha | takeWatchers ha =>
      exact .inl (phase_update_of_ne h ha (by simp))
  | _ => exact .inl h

/-! ### Mailboxes -/

/-- **What a step does to a mailbox**: an item enters it, its first item is taken, or it is
drained. -/
lemma Step.queue (hs : Step kind s l s') (w : ActorId) :
    s'.queue w = s.queue w ∨ (∃ item, l = .send w item ∧ s'.queue w = s.queue w ++ [item]) ∨
      (∃ item, s.phase w = .receiving ∧ s'.phase w = .taking item ∧
        s.queue w = item :: s'.queue w) ∨
      s.phase w = .terminating .drain ∧ s'.phase w = .terminating .disconnect ∧
        s'.queue w = [] := by
  have pushed : ∀ (t : Sys M) (b : ActorId) (item : Item M), t.queue = s.queue →
      (t.push b item).queue w = s.queue w ∨
        w = b ∧ (t.push b item).queue w = s.queue w ++ [item] := by
    intro t b item ht
    by_cases hw : w = b
    · subst hw
      exact .inr ⟨rfl, by simp [ht]⟩
    · exact .inl (by simp [Function.update_of_ne hw, ht])
  cases hs with
  | @tell a b m ha hb =>
      rcases pushed s b (.message (some a) m) rfl with h | ⟨rfl, h⟩
      · exact .inl h
      · exact .inr (.inl ⟨_, rfl, h⟩)
  | @tellOutside b m hb =>
      rcases pushed s b (.message none m) rfl with h | ⟨rfl, h⟩
      · exact .inl h
      · exact .inr (.inl ⟨_, rfl, h⟩)
  | @watchSignals a x cb ha =>
      rcases pushed s a (.terminated x) rfl with h | ⟨rfl, h⟩
      · exact .inl h
      · exact .inr (.inl ⟨_, rfl, h⟩)
  | @signal a b todo ha hb hconn =>
      rcases pushed s b (.terminated a) rfl with h | ⟨rfl, h⟩
      · exact .inl h
      · exact .inr (.inl ⟨_, rfl, h⟩)
  | @take a item rest ha h =>
      by_cases hw : w = a
      · subst hw
        exact .inr (.inr (.inl ⟨item, ha, by simp, by simp [h]⟩))
      · exact .inl (by simp [Function.update_of_ne hw])
  | @drain a ha =>
      by_cases hw : w = a
      · subst hw
        exact .inr (.inr (.inr ⟨ha, by simp, by simp⟩))
      · exact .inl (by simp [Function.update_of_ne hw])
  | _ => exact .inl rfl

/-- **What enters a mailbox**: a message of an actor which runs user code or of somebody outside,
or the signal of an actor whose watchers have been taken or whose registration has been
refused. -/
lemma Step.sent {b : ActorId} {item : Item M} (hs : Step kind s (.send b item) s') :
    (s.phase b).connected = true ∧ s'.queue b = s.queue b ++ [item] ∧
      ((∃ m, item = .message none m) ∨
        (∃ a m, item = .message (some a) m ∧ (s.phase a).active = true) ∨
        (∃ x todo, item = .terminated x ∧ s.phase x = .terminating (.signal todo)) ∨
        ∃ x cb, item = .terminated x ∧ s.phase b = .calling cb (.watchMapped x)) := by
  cases hs with
  | move ha h => cases h
  | tell m ha hb => exact ⟨hb, by simp, .inr (.inl ⟨_, m, rfl, ha⟩)⟩
  | tellOutside m hb => exact ⟨hb, by simp, .inl ⟨m, rfl⟩⟩
  | watchSignals ha => exact ⟨by rw [ha]; rfl, by simp, .inr (.inr (.inr ⟨_, _, rfl, ha⟩))⟩
  | signal ha hb hconn => exact ⟨hconn, by simp, .inr (.inr (.inl ⟨_, _, rfl, ha⟩))⟩

/-- **What is handed over** was taken from the mailbox, and a signal only if its actor is
watched. -/
lemma Step.handed {w : ActorId} {item : Item M} (hs : Step kind s (.hand w item) s') :
    s.phase w = .taking item ∧ s'.phase w = .calling .receive .none ∧ s'.queue = s.queue ∧
      ∀ x, item = .terminated x → x ∈ s.watched w ∧ s'.watched w = (s.watched w).erase x := by
  cases hs with
  | move ha h =>
      cases h with
      | handMessage => exact ⟨ha, by simp, rfl, fun x hx => by cases hx⟩
  | handSignal ha h =>
      refine ⟨ha, by simp, rfl, fun x hx => ?_⟩
      cases hx
      exact ⟨h, by simp⟩

/-- A signal is dropped only if its actor is not watched. -/
lemma Step.discarded {w x : ActorId} (hs : Step kind s (.discard w x) s') :
    s.phase w = .taking (.terminated x) ∧ x ∉ s.watched w ∧ s'.phase w = .idle ∧
      s'.queue = s.queue := by
  cases hs with
  | move ha h =>
      cases h with
      | discard hx => exact ⟨ha, hx, by simp, rfl⟩

/-- An item out of the mailbox is handed over or dropped. -/
lemma Step.taking (hs : Step kind s l s') {w : ActorId} {item : Item M}
    (h : s.phase w = .taking item) :
    s'.phase w = .taking item ∨ l = .hand w item ∨ ∃ x, item = .terminated x ∧ l = .discard w x := by
  cases hs with
  | @move a l p q ha hm =>
      by_cases hw : w = a
      · subst hw
        obtain rfl := h.symm.trans ha
        cases hm with
        | handMessage => exact .inr (.inl rfl)
        | discard hx => exact .inr (.inr ⟨_, rfl, rfl⟩)
      · exact .inl (by simp [Function.update_of_ne hw, h])
  | @handSignal a x ha hx =>
      by_cases hw : w = a
      · subst hw
        obtain rfl : item = .terminated x := by simpa using h.symm.trans ha
        exact .inr (.inl rfl)
      · exact .inl (by simp [Function.update_of_ne hw, h])
  | spawnRoot ha | spawn _ ha | watchAdded ha | watchMapped ha | watchSignals ha | unwatch ha
  | unwatchRemoved ha | take ha | restart ha | stopChildren ha | drain ha | takeWatched ha
  | deregister ha | takeWatchers ha | signal ha | signalRoot ha | signalRootAgain ha =>
      exact .inl (phase_update_of_ne h ha (by simp))
  | _ => exact .inl h

/-- The phase of an actor before it went on, if that is not where the step led to. -/
lemma phase_of_update {a b : ActorId} {q r : Phase M} (h : Function.update s.phase a r b = q)
    (hr : r ≠ q) : s.phase b = q := by
  have hne : b ≠ a := fun hab => hr (by rw [← h, hab, Function.update_self])
  rwa [Function.update_of_ne hne] at h

/-- An item comes out of the mailbox at its head. -/
lemma Step.takes (hs : Step kind s l s') {w : ActorId} {item : Item M}
    (h : s'.phase w = .taking item) :
    s.phase w = .taking item ∨
      s.phase w = .receiving ∧ s.queue w = item :: s'.queue w := by
  cases hs with
  | @take a item' rest ha hq =>
      by_cases hw : w = a
      · subst hw
        obtain rfl : item' = item := by simpa using h
        exact .inr ⟨ha, by simp [hq]⟩
      · exact .inl (by simpa [Function.update_of_ne hw] using h)
  | move _ hm =>
      refine .inl (phase_of_update h fun hp => ?_)
      subst hp
      generalize hp : Phase.taking item = p at hm
      cases hm with
      | returned hr =>
          rcases hr.to with h | h | h | h | h <;> rw [h] at hp <;> cases hp
      | dropped fails => cases fails <;> cases hp
      | restarted =>
          rcases Phase.start_cases (kind _) with h | h <;> rw [h] at hp <;> cases hp
      | _ => cases hp
  | spawnRoot | spawn =>
      refine .inl (phase_of_update h ?_)
      rcases Phase.start_cases (kind _) with h | h <;> rw [h] <;> simp
  | watchRoot | watchRootLate | stop | tell | tellOutside => exact .inl h
  | _ => exact .inl (phase_of_update h (by simp))

/-- What has happened in the step by which a callback of `w` has got to a place inside of a call
of `watch` or `unwatch`. -/
def Call.Entered (s : Sys M) (l : Label M) (s' : Sys M) (w : ActorId) (cb : Callback) :
    Call → Prop
  | .none => True
  | .watchAdded x true => l = .watch w x ∧
      ∃ ws, s.registry x = some ws ∧ s'.registry x = some (insert (.actor w) ws)
  | .watchAdded x false => l = .watch w x ∧ s.registry x = .none
  | .watchMapped x => s.phase w = .calling cb (.watchAdded x false)
  | .unwatchMapped x => l = .unwatch w x ∧ s'.watched w = (s.watched w).erase x

/-- **How a callback gets into a call of `watch` or `unwatch`**, one step at a time. -/
lemma Step.calls (hs : Step kind s l s') {w : ActorId} {cb : Callback} {c : Call}
    (h : s'.phase w = .calling cb c) :
    s.phase w = .calling cb c ∨ c.Entered s l s' w cb := by
  cases hs with
  | @move a l p q ha hm =>
      by_cases hw : w = a
      · subst hw
        obtain rfl : q = .calling cb c := by simpa using h
        generalize hp : Phase.calling cb c = q at hm
        cases hm with
        | returned hr =>
            rcases hr.to with h | h | h | h | h <;> rw [h] at hp <;> cases hp
        | dropped fails => cases fails <;> cases hp
        | restarted =>
            rcases Phase.start_cases (kind w) with h | h <;> rw [h] at hp <;> cases hp
            exact .inr trivial
        | watchRefused hx hreg =>
            cases hp
            exact .inr ⟨rfl, hreg⟩
        | _ => cases hp <;> exact .inr trivial
      · exact .inl (by simpa [Function.update_of_ne hw] using h)
  | @spawnRoot r hr =>
      by_cases hw : w = r
      · subst hw
        obtain rfl : c = .none := by cases hk : kind w <;> simp_all [Phase.start]
        exact .inr trivial
      · exact .inl (by simpa [Function.update_of_ne hw] using h)
  | @spawn a r cb' ha hr =>
      by_cases hw : w = r
      · subst hw
        obtain rfl : c = .none := by cases hk : kind w <;> simp_all [Phase.start]
        exact .inr trivial
      · exact .inl (by simpa [Function.update_of_ne hw] using h)
  | @watchAdded a x cb' ws ha hx hreg =>
      by_cases hw : w = a
      · subst hw
        obtain ⟨rfl, rfl⟩ : cb' = cb ∧ .watchAdded x true = c := by simpa using h
        exact .inr ⟨rfl, ws, hreg, by simp⟩
      · exact .inl (by simpa [Function.update_of_ne hw] using h)
  | @watchMapped a x cb' ok ha =>
      by_cases hw : w = a
      · subst hw
        obtain ⟨rfl, rfl⟩ : cb' = cb ∧ (if ok then .none else .watchMapped x) = c := by
          simpa using h
        cases ok with
        | true => exact .inr trivial
        | false => exact .inr ha
      · exact .inl (by simpa [Function.update_of_ne hw] using h)
  | @unwatch a x cb' ha hx =>
      by_cases hw : w = a
      · subst hw
        obtain ⟨rfl, rfl⟩ : cb' = cb ∧ .unwatchMapped x = c := by simpa using h
        exact .inr ⟨rfl, by simp⟩
      · exact .inl (by simpa [Function.update_of_ne hw] using h)
  | @watchSignals a x cb' ha | @unwatchRemoved a x cb' ha | @handSignal a x ha hx =>
      by_cases hw : w = a
      · subst hw
        simp only [Sys.goto_phase, Function.update_self, Phase.calling.injEq] at h
        obtain ⟨-, rfl⟩ := h
        exact .inr trivial
      · exact .inl (by simpa [Function.update_of_ne hw] using h)
  | watchRoot | watchRootLate | stop | tell | tellOutside => exact .inl h
  | _ => exact .inl (phase_of_update h (by simp))

/-! ### Watched maps -/

/-- **What a step does to a watched map**: `watch` adds to it, `unwatch` and a signal handed over
remove from it, and `terminate` clears it. -/
lemma Step.watched (hs : Step kind s l s') (w : ActorId) :
    s'.watched w = s.watched w ∨
      (∃ cb x ok, s.phase w = .calling cb (.watchAdded x ok) ∧
        s'.phase w = .calling cb (if ok then .none else .watchMapped x) ∧
        s'.watched w = insert x (s.watched w)) ∨
      (∃ x, s'.watched w = (s.watched w).erase x ∧
        (l = .unwatch w x ∨ l = .hand w (.terminated x))) ∨
      s.phase w = .terminating .dropMessages ∧ s'.watched w = ∅ ∧
        s'.phase w = .terminating (.deregister (s.watched w)) := by
  cases hs with
  | @watchMapped a x cb ok ha =>
      by_cases hw : w = a
      · subst hw
        exact .inr (.inl ⟨cb, x, ok, ha, by simp, by simp⟩)
      · exact .inl (by simp [Function.update_of_ne hw])
  | @unwatch a x cb ha hx =>
      by_cases hw : w = a
      · subst hw
        exact .inr (.inr (.inl ⟨x, by simp, .inl rfl⟩))
      · exact .inl (by simp [Function.update_of_ne hw])
  | @handSignal a x ha hx =>
      by_cases hw : w = a
      · subst hw
        exact .inr (.inr (.inl ⟨x, by simp, .inr rfl⟩))
      · exact .inl (by simp [Function.update_of_ne hw])
  | @takeWatched a ha =>
      by_cases hw : w = a
      · subst hw
        exact .inr (.inr (.inr ⟨ha, by simp, by simp⟩))
      · exact .inl (by simp [Function.update_of_ne hw])
  | _ => exact .inl rfl

/-- What happens in the step by which a callback of `w` leaves its place inside of a call of
`watch` or `unwatch`. -/
def Call.Left (s : Sys M) (l : Label M) (s' : Sys M) (w : ActorId) : Call → Prop
  | .none => True
  | .watchAdded x _ => x ∈ s'.watched w
  | .watchMapped x => l = .send w (.terminated x)
  | .unwatchMapped x => s'.registry x = s.removed x (.actor w)

/-- **How a callback goes on inside of a call of `watch` or `unwatch`**, one step at a time. -/
lemma Step.leaves (hs : Step kind s l s') {w : ActorId} {cb : Callback} {c : Call}
    (h : s.phase w = .calling cb c) : s'.phase w = .calling cb c ∨ c.Left s l s' w := by
  by_cases hc : c = .none
  · subst hc
    exact .inr trivial
  cases hs with
  | @watchMapped a x cb' ok ha =>
      by_cases hw : w = a
      · subst hw
        obtain ⟨-, rfl⟩ : cb = cb' ∧ c = .watchAdded x ok := by simpa using h.symm.trans ha
        exact .inr (by simp [Call.Left])
      · exact .inl (by simp [Function.update_of_ne hw, h])
  | @watchSignals a x cb' ha =>
      by_cases hw : w = a
      · subst hw
        obtain ⟨-, rfl⟩ : cb = cb' ∧ c = .watchMapped x := by simpa using h.symm.trans ha
        exact .inr rfl
      · exact .inl (by simp [Function.update_of_ne hw, h])
  | @unwatchRemoved a x cb' ha =>
      by_cases hw : w = a
      · subst hw
        obtain ⟨-, rfl⟩ : cb = cb' ∧ c = .unwatchMapped x := by simpa using h.symm.trans ha
        exact .inr (by simp [Call.Left])
      · exact .inl (by simp [Function.update_of_ne hw, h])
  | @move a l p q ha hm =>
      refine .inl (phase_update_of_ne h ha fun hp => ?_)
      subst hp
      cases hm <;> exact hc rfl
  | watchAdded ha | unwatch ha =>
      exact .inl (phase_update_of_ne h ha fun hp => hc (by cases hp; rfl))
  | spawnRoot ha | spawn _ ha | take ha | handSignal ha | restart ha | stopChildren ha | drain ha
  | takeWatched ha | deregister ha | takeWatchers ha | signal ha | signalRoot ha
  | signalRootAgain ha => exact .inl (phase_update_of_ne h ha (by simp))
  | _ => exact .inl h

/-- After a call of `unwatch` the actor is not watched. -/
lemma Step.unwatched {w x : ActorId} (hs : Step kind s (.unwatch w x) s') :
    x ∉ s'.watched w ∧ ∀ cb y ok, s'.phase w ≠ .calling cb (.watchAdded y ok) := by
  cases hs with
  | move ha h =>
      cases h with
      | unwatchNothing hx => exact ⟨hx, by simp⟩
  | unwatch ha hx => simp

end Tellus
