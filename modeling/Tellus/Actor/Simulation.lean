import Mathlib.Tactic
import Tellus.Actor.Hub
import Tellus.Actor.Late
import Tellus.Lib.Typestate

/-!
The phases of `Sys` as an automaton for the tasks.

* `Phase.Passes`, `Phase.Leads`: where a task's small steps lead.
* `Sys.hub`: what the tasks share in a state of `Sys`.
* `simulated`: a step of a task is no, one or two steps of `Sys`, in which a restart may miss a
  stop (`LateStep`).
-/

namespace Tellus

open Concurrent

variable {M : Type}

/-! ### The automaton -/

namespace Phase

/-- What a task does without a step of its own: a callback, a settlement or a destructor has
returned, and the run loop goes on. -/
inductive Passes (k : Kind) : Phase M → Phase M → Prop
  | returned {cb : Callback} {p : Phase M} (h : Returns k cb p) : Passes k (.calling cb .none) p
  | recovered : Passes k .recovering (.calling .init .none)
  | recoverFails : Passes k .recovering .failed
  | settled : Passes k .settling .idle
  | settledStop : Passes k .settling (.dropping false)
  | settleFails : Passes k .settling .failed
  | dropped (fails : Bool) :
      Passes k (.dropping fails) (if fails then .failed else .terminating .drain)
  | notRestarted : Passes k .failed (.terminating .drain)
  | restarted : Passes k .backoff (.start k)
  | deregistered : Passes k (.terminating (.deregister ∅)) (.terminating .stopChildren)
  | actorDropped : Passes k (.terminating .dropActor) (.terminating .takeWatchers)

/-- Where a step leads. -/
inductive Leads (k : Kind) (rootId : ActorId) :
    Phase M → (op : Hub.Op M) → op.Ans → Phase M → Prop
  | beginUnborn : Leads k rootId .unborn .begin () (.start k)
  | begin : Leads k rootId (.start k) .begin () (.start k)
  | recoveryPolled : Leads k rootId .recovering .pollStopped false .recovering
  | recoveryStopped : Leads k rootId .recovering .pollStopped true (.dropping false)
  | polled : Leads k rootId .idle .pollStopped false .receiving
  | stopped : Leads k rootId .idle .pollStopped true (.dropping false)
  | backoffPolled : Leads k rootId .backoff .pollStopped false .backoff
  | backoffStopped : Leads k rootId .backoff .pollStopped true (.terminating .drain)
  | probed (x : Option Bool) : Leads k rootId .failed .hasChanged x .failed
  | probedAgain (x : Option Bool) : Leads k rootId .backoff .hasChanged x
      (if x.getD true then .terminating .drain else .backoff)
  | pending : Leads k rootId .receiving .recv none .idle
  | message (m : M) :
      Leads k rootId .receiving .recv (some (.message m)) (.calling .receive .none)
  | signal (x : ActorId) :
      Leads k rootId .receiving .recv (some (.terminated x)) (.taking (.terminated x))
  | takeWatchedFor (x : ActorId) (watched : Bool) :
      Leads k rootId (.taking (.terminated x)) (.takeWatchedFor x) watched
        (if watched then .calling .receive .none else .idle)
  | elapsed (resetAfter : ℕ) (x : Bool) : Leads k rootId .failed (.elapsed resetAfter) x .failed
  | sleep (delay : ℕ) (x : Bool) : Leads k rootId .backoff (.sleep delay) x .backoff
  | replaceChannel : Leads k rootId .failed .replaceChannel () .restarting
  | replaceChannelLast :
      Leads k rootId (.terminating .stopChildren) .replaceChannel () (.terminating .awaitChildren)
  | awaitClosed : Leads k rootId .restarting .awaitClosed () .backoff
  | awaitClosedLast :
      Leads k rootId (.terminating .awaitChildren) .awaitClosed () (.terminating .dropActor)
  | tell {p : Phase M} (hp : p.active = true) (b : ActorId) (m : M) (x : Bool) :
      Leads k rootId p (.tell b m) x p
  | other {p : Phase M} (hp : p.active = true) (n : ℕ) : Leads k rootId p .other n p
  | spawn (cb : Callback) (c : ActorId) :
      Leads k rootId (.calling cb .none) .spawn c (.calling cb .none)
  | add (cb : Callback) (x : ActorId) (ok : Bool) :
      Leads k rootId (.calling cb .none) (.add x) ok (.calling cb (.watchAdded x ok))
  | insertWatched (cb : Callback) (x : ActorId) (ok : Bool) :
      Leads k rootId (.calling cb (.watchAdded x ok)) (.insertWatched x) ()
        (.calling cb (if ok then .none else .watchMapped x))
  | sendSelf (cb : Callback) (x : ActorId) :
      Leads k rootId (.calling cb (.watchMapped x)) (.sendSelf x) () (.calling cb .none)
  | removeWatched (cb : Callback) (x : ActorId) (watched : Bool) :
      Leads k rootId (.calling cb .none) (.removeWatched x) watched
        (.calling cb (if watched then .unwatchMapped x else .none))
  | remove (cb : Callback) (x : ActorId) :
      Leads k rootId (.calling cb (.unwatchMapped x)) (.remove x) () (.calling cb .none)
  | deregister {todo : Finset ActorId} {x : ActorId} (hx : x ∈ todo) :
      Leads k rootId (.terminating (.deregister todo)) (.remove x) ()
        (.terminating (.deregister (todo.erase x)))
  | drain (xs : List (Incoming M)) :
      Leads k rootId (.terminating .drain) .drain xs (.terminating .disconnect)
  | dropReceiver (x : Bool) :
      Leads k rootId (.terminating .disconnect) .dropReceiver x (.terminating .dropMessages)
  | takeWatched (xs : List ActorId) :
      Leads k rootId (.terminating .dropMessages) .takeWatched xs
        (.terminating (.deregister xs.toFinset))
  | takeWatchers (ws : List ActorId) :
      Leads k rootId (.terminating .takeWatchers) .takeWatchers ws
        (.terminating (.signal (ws.map (Watcher.ofId rootId)).toFinset))
  | sendTerminated {todo : Finset Watcher} {w : ActorId} (hw : Watcher.ofId rootId w ∈ todo)
      (x : Bool) :
      Leads k rootId (.terminating (.signal todo)) (.sendTerminated w) x
        (.terminating (.signal (todo.erase (Watcher.ofId rootId w))))
  | finish : Leads k rootId (.terminating (.signal ∅)) .finish () .finished
  | finishAgain : Leads k rootId .finished .finish () .finished

end Phase

/-- What a step may be answered at all: a map has each of its keys once. -/
def Hub.Possible (rootId : ActorId) : (op : Hub.Op M) → op.Ans → Prop
  | .takeWatched, xs => xs.Nodup
  | .takeWatchers, ws => (ws.map (Watcher.ofId rootId)).Nodup
  | _, _ => True

/-- The phases of an actor, as an automaton over the steps of its task. -/
def phases (k : Kind) (rootId : ActorId) : Typestate (Hub.Op M) Hub.Op.Ans (Phase M) where
  silent := Phase.Passes k
  possible := Hub.Possible rootId
  next := Phase.Leads k rootId

/-! ### What is shared -/

/-- The task has been spawned. -/
def Phase.born : Phase M → Bool
  | .unborn => false
  | _ => true

/-- The task has ended. -/
def Phase.done : Phase M → Bool
  | .finished => true
  | _ => false

/-- What the tasks share. -/
def Sys.hub (s : Sys M) : Hub M where
  born := fun a => (s.phase a).born
  connected := fun a => (s.phase a).connected
  done := fun a => (s.phase a).done
  parent := s.parent
  generation := s.generation
  queue := s.queue
  registry := s.registry
  watched := s.watched
  stopped := s.stopped
  sink := s.sink

lemma Sys.hub_init : (Sys.init : Sys M).hub = Hub.init := rfl

variable {kind : ActorId → Kind} {rootId a : ActorId} {s : Sys M} {p q : Phase M}

lemma Phase.born_iff : p.born = false ↔ p = .unborn := by
  cases p <;> simp [born]

lemma Phase.done_iff : p.done = true ↔ p = .finished := by
  cases p <;> simp [done]

lemma Sys.hub_stops : s.hub.Stops a ↔ s.Signalled a := Iff.rfl

lemma Sys.hub_childrenDone : s.hub.ChildrenDone a ↔ s.ChildrenGone a := by
  simp only [Hub.ChildrenDone, ChildrenGone, hub, Phase.done_iff]

/-- What the others see of a task which goes on. -/
lemma Sys.hub_goto_eq (s : Sys M) (a : ActorId) (q : Phase M) :
    (s.goto a q).hub = { s.hub with
      born := Function.update s.hub.born a q.born
      connected := Function.update s.hub.connected a q.connected
      done := Function.update s.hub.done a q.done } := by
  have hupdate : ∀ f : Phase M → Bool, (fun b => f ((s.goto a q).phase b)) =
      Function.update (fun b => f (s.phase b)) a (f q) := fun f =>
    Function.comp_update f s.phase a q
  simp only [hub]
  rw [hupdate, hupdate, hupdate]
  rfl

lemma Sys.born_of_hub (h : s.hub.born a = true) : s.phase a ≠ .unborn := fun hu => by
  change (s.phase a).born = true at h
  rw [hu] at h
  cases h

/-- Two phases which the others cannot tell apart. -/
structure Phase.Like (p q : Phase M) : Prop where
  born : q.born = p.born
  connected : q.connected = p.connected
  done : q.done = p.done

/-- A task goes on, and nobody else notices. -/
lemma Sys.hub_goto (ha : s.phase a = p) (h : p.Like q) : (s.goto a q).hub = s.hub := by
  rw [hub_goto_eq, h.born, h.connected, h.done, ← ha]
  simp only [hub, Function.update_eq_self_iff.mpr]

/-- A task is spawned. -/
lemma Sys.hub_start {c : ActorId} {k : Kind} (hc : s.phase c = .unborn) :
    (s.goto c (.start k)).hub = s.hub.spawn c := by
  have hstart : (Phase.start k : Phase M).born = true ∧
      (Phase.start k : Phase M).connected = true ∧ (Phase.start k : Phase M).done = false := by
    rcases Phase.start_cases k with hk | hk <;> rw [hk] <;> exact ⟨rfl, rfl, rfl⟩
  have hdone : Function.update s.hub.done c false = s.hub.done :=
    Function.update_eq_self_iff.mpr (congrArg Phase.done hc).symm
  rw [hub_goto_eq, hstart.1, hstart.2.1, hstart.2.2]
  exact congrArg (fun done => { s.hub.spawn c with done }) hdone

/-! ### One step of a task -/

/-- Steps of `Sys` which take one actor to a phase and the hub to a state; another actor may be
spawned. -/
def Arrives (kind : ActorId → Kind) (s : Sys M) (a : ActorId) (q : Phase M) (t : Hub M) : Prop :=
  ∃ tr s', Run (LateStep kind) s tr s' ∧ s'.hub = t ∧ s'.phase a = q ∧ ∀ b, b ≠ a →
    s'.phase b = s.phase b ∨ (s.phase b = .unborn ∧ s'.phase b = .start (kind b))

variable {t : Hub M} {l : Label M} {s' : Sys M}

/-- One step. -/
lemma Arrives.one (hs : LateStep kind s l s') (hphase : s'.phase = Function.update s.phase a q)
    (hhub : s'.hub = t) : Arrives kind s a q t :=
  ⟨_, s', Run.nil.snoc hs, hhub, by rw [hphase, Function.update_self], fun b hb =>
    .inl (by rw [hphase, Function.update_of_ne hb])⟩

/-- One step, which changes something else beside the phase. -/
lemma Arrives.goto {u : Sys M} (hs : LateStep kind s l (u.goto a q)) (ha : s.phase a = p)
    (h : p.Like q) (hu : u.phase = s.phase) (hhub : u.hub = t) : Arrives kind s a q t := by
  refine .one hs (by rw [← hu]; rfl) ?_
  rw [Sys.hub_goto (by rw [hu]; exact ha) h]
  exact hhub

/-- No step at all. -/
lemma Arrives.none (ha : s.phase a = q) (hhub : s.hub = t) : Arrives kind s a q t :=
  ⟨[], s, .nil, hhub, ha, fun _ _ => .inl rfl⟩

/-- A move. -/
lemma Arrives.move (ha : s.phase a = p) (hm : Move kind s a p l q) (h : p.Like q) :
    Arrives kind s a q s.hub :=
  .one (.step (.move ha hm)) rfl (Sys.hub_goto ha h)

lemma Returns.like {k : Kind} {cb : Callback} (h : Returns k cb p) :
    (Phase.calling cb .none : Phase M).Like p := by
  cases h <;> exact ⟨rfl, rfl, rfl⟩

lemma Phase.Passes.like {k : Kind} (h : p.Passes k q) : p.Like q := by
  cases h with
  | returned h => exact h.like
  | dropped fails => cases fails <;> exact ⟨rfl, rfl, rfl⟩
  | restarted =>
      rcases Phase.start_cases k with hk | hk <;> rw [hk] <;> exact ⟨rfl, rfl, rfl⟩
  | _ => exact ⟨rfl, rfl, rfl⟩

/-- A silent step is a step of `Sys`. -/
lemma Phase.Passes.step (h : p.Passes (kind a) q) (ha : s.phase a = p) :
    ∃ l, LateStep kind s l (s.goto a q) := by
  cases h with
  | returned h => exact ⟨_, .step (.move ha (.returned h))⟩
  | recovered => exact ⟨_, .step (.move ha .recovered)⟩
  | recoverFails => exact ⟨_, .step (.move ha .recoverFails)⟩
  | settled => exact ⟨_, .step (.move ha .settled)⟩
  | settledStop => exact ⟨_, .step (.move ha .settledStop)⟩
  | settleFails => exact ⟨_, .step (.move ha .settleFails)⟩
  | dropped fails => exact ⟨_, .step (.move ha (.dropped fails))⟩
  | notRestarted => exact ⟨_, .step (.move ha .notRestarted)⟩
  | restarted => exact ⟨_, .restarted ha⟩
  | deregistered => exact ⟨_, .step (.move ha .deregistered)⟩
  | actorDropped => exact ⟨_, .step (.move ha .actorDropped)⟩

/-- An incoming is taken out of the mailbox. -/
lemma Hub.Exec.received {h : Hub M} {x : Incoming M}
    (hx : Hub.Exec rootId a h .recv (some x) t) : ∃ item rest, h.queue a = item :: rest ∧
      x = item.incoming ∧ t = { h with queue := Function.update h.queue a rest } := by
  generalize hy : some x = y at hx
  cases hx with
  | pending => cases hy
  | recv hq => exact ⟨_, _, hq, Option.some.inj hy, rfl⟩

/-- **A small step of a task** takes its actor where the automaton says. -/
lemma Phase.Leads.arrives {op : Hub.Op M} {x : op.Ans} (h : p.Leads (kind a) rootId op x q)
    (ha : s.phase a = p) (hx : Hub.Exec rootId a s.hub op x t) : Arrives kind s a q t := by
  cases h with
  | beginUnborn =>
      cases hx with
      | begin hborn =>
          change (s.phase a).born = true at hborn
          rw [ha] at hborn
          cases hborn
  | begin | recoveryPolled | backoffPolled =>
      cases hx
      exact .none ha rfl
  | elapsed | sleep =>
      cases hx
      exact .none ha rfl
  | probed x =>
      cases hx
      exact .none ha rfl
  | other hp n =>
      cases hx
      exact .none ha rfl
  | recoveryStopped =>
      cases hx with
      | pollStopped hx =>
          exact .move ha (.recoverStopped (Sys.hub_stops.mp (hx.mp rfl))) ⟨rfl, rfl, rfl⟩
  | polled =>
      cases hx with
      | pollStopped hx =>
          have hnot : ¬s.Signalled a := fun hs => by cases hx.mpr (Sys.hub_stops.mpr hs)
          exact .move ha (.polled hnot) ⟨rfl, rfl, rfl⟩
  | stopped =>
      cases hx with
      | pollStopped hx =>
          exact .move ha (.stopped (Sys.hub_stops.mp (hx.mp rfl))) ⟨rfl, rfl, rfl⟩
  | backoffStopped =>
      cases hx with
      | pollStopped hx =>
          exact .move ha (.backoffStopped (Sys.hub_stops.mp (hx.mp rfl))) ⟨rfl, rfl, rfl⟩
  | probedAgain x =>
      cases hx with
      | hasChanged hx =>
          split
          next htrue =>
            exact .move ha (.backoffStopped (Sys.hub_stops.mp (hx.mp htrue))) ⟨rfl, rfl, rfl⟩
          next => exact .none ha rfl
  | pending =>
      cases hx with
      | pending hq => exact .move ha (.pending hq) ⟨rfl, rfl, rfl⟩
  | message m =>
      obtain ⟨item, rest, hq, hitem, rfl⟩ := hx.received
      cases item with
      | terminated x => cases hitem
      | message o m' =>
          cases hitem
          -- the message is taken out, and handed over at once
          have htake : LateStep kind s _ _ := .step (.take ha hq)
          have hin : ((s.setQueue a rest).goto a (.taking (.message o m))).phase a =
              .taking (.message o m) := Function.update_self ..
          have hhand : LateStep kind _ _ _ := .step (.move hin .handMessage)
          have hlike : (Phase.receiving : Phase M).Like (.taking (.message o m)) :=
            ⟨rfl, rfl, rfl⟩
          have hlike' : (Phase.taking (.message o m)).Like (.calling .receive .none) :=
            ⟨rfl, rfl, rfl⟩
          refine ⟨_, _, (Run.nil.snoc htake).snoc hhand, ?_, by simp, fun b hb => .inl ?_⟩
          · rw [Sys.hub_goto hin hlike', Sys.hub_goto (s := s.setQueue a rest) ha hlike]
            rfl
          · simp [hb]
  | signal x =>
      obtain ⟨item, rest, hq, hitem, rfl⟩ := hx.received
      cases item with
      | message o m => cases hitem
      | terminated y =>
          cases hitem
          exact .goto (.step (.take ha hq)) ha ⟨rfl, rfl, rfl⟩ rfl rfl
  | takeWatchedFor x watched =>
      cases hx with
      | takeWatchedFor =>
          by_cases hmem : x ∈ s.watched a
          · have hmem' : x ∈ s.hub.watched a := hmem
            simp only [hmem', decide_true, if_true]
            exact .goto (.step (.handSignal ha hmem)) ha ⟨rfl, rfl, rfl⟩ rfl rfl
          · have hmem' : x ∉ s.hub.watched a := hmem
            simp only [hmem', decide_false, Bool.false_eq_true, if_false]
            have hsame : s.hub.setWatched a ((s.hub.watched a).erase x) = s.hub := by
              rw [Finset.erase_eq_of_notMem hmem', Hub.setWatched, Function.update_eq_self]
            rw [hsame]
            exact .move ha (.discard hmem) ⟨rfl, rfl, rfl⟩
  | replaceChannel =>
      cases hx
      exact .goto (.step (.restart ha)) ha ⟨rfl, rfl, rfl⟩ rfl rfl
  | replaceChannelLast =>
      cases hx
      exact .goto (.step (.stopChildren ha)) ha ⟨rfl, rfl, rfl⟩ rfl rfl
  | awaitClosed =>
      cases hx with
      | awaitClosed hdone =>
          exact .move ha (.childrenStopped (Sys.hub_childrenDone.mp hdone)) ⟨rfl, rfl, rfl⟩
  | awaitClosedLast =>
      cases hx with
      | awaitClosed hdone =>
          exact .move ha (.childrenTerminated (Sys.hub_childrenDone.mp hdone)) ⟨rfl, rfl, rfl⟩
  | tell hp b m x =>
      cases hx with
      | tell hb =>
          exact .one (.step (.tell m (by rw [ha]; exact hp) hb))
            (by rw [← ha]; exact (Function.update_eq_self ..).symm) rfl
      | refused => exact .none ha rfl
  | spawn cb c =>
      cases hx with
      | spawn hc =>
          have hunborn : s.phase c = .unborn := Phase.born_iff.mp hc
          have hca : a ≠ c := by
            rintro rfl
            rw [hunborn] at ha
            cases ha
          refine ⟨_, _, Run.nil.snoc (.step (.spawn ha hunborn)), ?_, ?_, fun b hb => ?_⟩
          · rw [Sys.hub_start (s := s.setParent c (a, s.generation a)) hunborn]
            rfl
          · rw [Sys.goto_phase, Function.update_of_ne hca]
            exact ha
          · by_cases hbc : b = c
            · subst hbc
              exact .inr ⟨hunborn, Function.update_self ..⟩
            · exact .inl (Function.update_of_ne hbc ..)
  | add cb x ok =>
      cases hx with
      | add hborn hr =>
          have hstep : LateStep kind s _ _ :=
            .step (.watchAdded ha (Sys.born_of_hub hborn) hr)
          exact .goto hstep ha ⟨rfl, rfl, rfl⟩ rfl rfl
      | addClosed hborn hr =>
          exact .move ha (.watchRefused (Sys.born_of_hub hborn) hr) ⟨rfl, rfl, rfl⟩
  | insertWatched cb x ok =>
      cases hx
      exact .goto (.step (.watchMapped ha)) ha ⟨rfl, rfl, rfl⟩ rfl rfl
  | sendSelf cb x =>
      cases hx
      exact .goto (.step (.watchSignals ha)) ha ⟨rfl, rfl, rfl⟩ rfl rfl
  | removeWatched cb x watched =>
      cases hx with
      | removeWatched =>
          by_cases hmem : x ∈ s.watched a
          · have hmem' : x ∈ s.hub.watched a := hmem
            simp only [hmem', decide_true, if_true]
            exact .goto (.step (.unwatch ha hmem)) ha ⟨rfl, rfl, rfl⟩ rfl rfl
          · have hmem' : x ∉ s.hub.watched a := hmem
            simp only [hmem', decide_false, Bool.false_eq_true, if_false]
            have hsame : s.hub.setWatched a ((s.hub.watched a).erase x) = s.hub := by
              rw [Finset.erase_eq_of_notMem hmem', Hub.setWatched, Function.update_eq_self]
            rw [hsame]
            exact .move ha (.unwatchNothing hmem) ⟨rfl, rfl, rfl⟩
  | remove cb x =>
      cases hx
      exact .goto (.step (.unwatchRemoved ha)) ha ⟨rfl, rfl, rfl⟩ rfl rfl
  | deregister hmem =>
      cases hx
      exact .goto (.step (.deregister ha hmem)) ha ⟨rfl, rfl, rfl⟩ rfl rfl
  | drain xs =>
      cases hx
      exact .goto (.step (.drain ha)) ha ⟨rfl, rfl, rfl⟩ rfl rfl
  | dropReceiver x =>
      cases hx
      refine .one (.step (.move ha .disconnected)) rfl ?_
      have hborn : Function.update s.hub.born a true = s.hub.born :=
        Function.update_eq_self_iff.mpr (congrArg Phase.born ha).symm
      have hdone : Function.update s.hub.done a false = s.hub.done :=
        Function.update_eq_self_iff.mpr (congrArg Phase.done ha).symm
      exact (Sys.hub_goto_eq s a _).trans (congrArg₂ (fun born done => { s.hub with
        born, done, connected := Function.update s.hub.connected a false }) hborn hdone)
  | takeWatched xs =>
      cases hx with
      | takeWatched hxs hwatched =>
          rw [hwatched]
          exact .goto (.step (.takeWatched ha)) ha ⟨rfl, rfl, rfl⟩ rfl rfl
  | takeWatchers ws =>
      cases hx with
      | takeWatchers hws hr =>
          rw [hr]
          exact .goto (.step (.takeWatchers ha)) ha ⟨rfl, rfl, rfl⟩ rfl rfl
  | @sendTerminated todo w hw x =>
      have hother : ∀ {b : ActorId}, b ≠ rootId → Watcher.ofId rootId b = .actor b := fun hb =>
        if_neg hb
      have hroot : Watcher.ofId rootId rootId = .root := if_pos rfl
      cases hx with
      | sendTerminated hb hconn =>
          rw [hother hb] at hw ⊢
          exact .goto (.step (.signal ha hw hconn)) ha ⟨rfl, rfl, rfl⟩ rfl rfl
      | notSent hb hconn =>
          rw [hother hb] at hw ⊢
          exact .move ha (.signalLost hw hconn) ⟨rfl, rfl, rfl⟩
      | resolve hsink =>
          rw [hroot] at hw ⊢
          exact .goto (.step (.signalRoot ha hw hsink)) ha ⟨rfl, rfl, rfl⟩ rfl rfl
      | notResolved hsink =>
          rw [hroot] at hw ⊢
          exact .goto (.step (.signalRootAgain ha hw hsink)) ha ⟨rfl, rfl, rfl⟩ rfl rfl
  | finish =>
      cases hx
      refine .one (.step (.move ha .finished)) rfl ?_
      have hborn : Function.update s.hub.born a true = s.hub.born :=
        Function.update_eq_self_iff.mpr (congrArg Phase.born ha).symm
      have hconn : Function.update s.hub.connected a false = s.hub.connected :=
        Function.update_eq_self_iff.mpr (congrArg Phase.connected ha).symm
      exact (Sys.hub_goto_eq s a _).trans (congrArg₂ (fun born connected => { s.hub with
        born, connected, done := Function.update s.hub.done a true }) hborn hconn)
  | finishAgain =>
      cases hx
      have hdone : Function.update s.hub.done a true = s.hub.done :=
        Function.update_eq_self_iff.mpr (congrArg Phase.done ha).symm
      exact .none ha (congrArg (fun done => { s.hub with done }) hdone.symm)

/-! ### All steps -/

/-- What happens outside of any actor happens in `Sys`. -/
lemma Hub.Env.arrives (h : Hub.Env s.hub t) : ∃ l s', LateStep kind s l s' ∧ s'.hub = t ∧
    ∀ b, s'.phase b = s.phase b ∨ (s.phase b = .unborn ∧ s'.phase b = .start (kind b)) := by
  cases h with
  | @spawnRoot r hr =>
      have hunborn : s.phase r = .unborn := Phase.born_iff.mp hr
      refine ⟨_, _, .step (.spawnRoot hunborn), ?_, fun b => ?_⟩
      · exact Sys.hub_start hunborn
      · by_cases hb : b = r
        · subst hb
          exact .inr ⟨hunborn, Function.update_self ..⟩
        · exact .inl (Function.update_of_ne hb ..)
  | watchRoot hr hroot hsink hreg =>
      exact ⟨_, _, .step (.watchRoot (Sys.born_of_hub hr) hroot hsink hreg), rfl, fun _ => .inl rfl⟩
  | watchRootLate hr hroot hsink hreg =>
      exact ⟨_, _, .step (.watchRootLate (Sys.born_of_hub hr) hroot hsink hreg), rfl,
        fun _ => .inl rfl⟩
  | stop hr hroot =>
      exact ⟨_, _, .step (.stop (Sys.born_of_hub hr) hroot), rfl, fun _ => .inl rfl⟩
  | tellOutside m hb => exact ⟨_, _, .step (.tellOutside m hb), rfl, fun _ => .inl rfl⟩

/-- No phase comes silently after being unborn. -/
lemma Phase.Passes.born {k : Kind} (h : p.Passes k q) : p ≠ .unborn := by
  rintro rfl
  cases h

/-- What an unborn task may do, it may do once it has been spawned. -/
lemma Phase.Leads.woken {k : Kind} {op : Hub.Op M} {x : op.Ans}
    (h : (Phase.unborn : Phase M).Leads k rootId op x q) :
    (Phase.start k : Phase M).Leads k rootId op x q := by
  generalize hp : (Phase.unborn : Phase M) = p at h
  cases h with
  | beginUnborn => exact .begin
  | begin =>
      rcases Phase.start_cases k with hk | hk <;> rw [hk] at hp <;> cases hp
  | tell hactive | other hactive =>
      rw [← hp] at hactive
      cases hactive
  | _ => cases hp

lemma Hub.Exec.possible {h h' : Hub M} {op : Hub.Op M} {x : op.Ans}
    (hx : Hub.Exec rootId a h op x h') : Hub.Possible rootId op x := by
  cases hx with
  | takeWatched hxs => exact hxs
  | takeWatchers hws => exact hws
  | _ => trivial

/-- **The tasks of actors are simulated by their phases.** -/
def simulated (kind : ActorId → Kind) (rootId : ActorId) :
    Simulated (fun a => phases (M := M) (kind a) rootId) (Hub.Exec rootId) Hub.Env
      (LateStep (M := M) kind) where
  shared := Sys.hub
  place := Sys.phase
  wakes := fun a p q => p = .unborn ∧ q = .start (kind a)
  stuck := by
    rintro a p q ⟨rfl, rfl⟩ r hr
    exact Phase.Passes.born hr rfl
  awake := by
    rintro a p q ⟨rfl, rfl⟩ op x r hr
    exact Phase.Leads.woken hr
  silent := fun a s q hq => by
    obtain ⟨l, hs⟩ := Phase.Passes.step hq rfl
    exact ⟨l, _, hs, Sys.hub_goto rfl (Phase.Passes.like hq), rfl⟩
  possible := fun a h op x h' hx => hx.possible
  answered := fun a s op x q t hq hx => Phase.Leads.arrives hq rfl hx
  surrounded := fun s t he => he.arrives

end Tellus
