import Mathlib.Tactic
import Tellus.Host.Routing

/-!
Passivation is invisible to senders.

An entity is asked to stop once, when its key has been idle for long enough, and is told nothing
afterwards; what is for its key from then on waits in the buffer for the next one.  So what the
successive entities of a key process is what was accepted for the key, in the same order.

* `Exec.asked`: the only call which asks an entity to stop is that of a sweep.
* `Inv.processed`: what was accepted is what was processed, followed by what is waiting.
* `passivation_invisible`: both, for every run of a host.
-/

namespace Tellus.Host

open Concurrent

variable {K M : Type} [DecidableEq K] {config : HostConfig} {kind : ActorId → Kind}
  {h a : ActorId} {good : Prop} {w w' : World K M}

/-- What the current entity of a key has been told and not yet processed. -/
def World.queued (w : World K M) (h : ActorId) (key : K) : List M :=
  match (w.incarnations key).getLast? with
  | some a => messages (waiting h a w.sys)
  | none => []

/-- Whoever is asked to stop was asked by a sweep. -/
lemma Exec.asked {op : Op K M} {x : op.Ans} (hx : Exec kind h w op x w')
    (htrace : w'.trace = w.trace ++ [.send a (item h .passivate)]) : op = .passivate a := by
  have hlabel : ∀ l, w.trace ++ [l] = w.trace ++ [.send a (item h .passivate)] →
      l = .send a (item h .passivate) := fun l hl => by simpa using hl
  cases hx with
  | passivate =>
      cases hlabel _ htrace
      rfl
  | spawn | spawnTicker | watch | tell | tellForced | nextMessage | nextTerminated | returned
  | fails | restart => cases hlabel _ htrace
  | _ => simp at htrace

omit [DecidableEq K] in
/-- Nobody but the host asks an entity to stop. -/
lemma Env.not_asked (he : Env kind h w w') :
    w'.trace ≠ w.trace ++ [.send a (item h .passivate)] := by
  intro htrace
  cases he with
  | step _ hl =>
      obtain rfl : _ = Label.send a (item h .passivate) := by simpa using htrace
      exact hl rfl
  | tick => simp at htrace

omit [DecidableEq K] in
/-- A closed actor has left its run loop. -/
lemma retired_of_closed {p : Phase (Payload K M)} (hp : p.closed = true) : retired p = true := by
  cases p <;> simp_all [Phase.closed, retired]

/-- **What was accepted is what was processed, followed by what is waiting.** -/
lemma Inv.processed (hw : Inv kind h good w) (hg : good) (key : K) :
    w.accepted key = (w.incarnations key).flatMap (fun a => messages (heard h a w.trace)) ++
      w.queued h key ++ w.buffered key := by
  have hacc := hw.accounted hg
  rw [hacc.accepted key, World.queued]
  congr 1
  cases hlast : (w.incarnations key).getLast? with
  | none =>
      rw [List.getLast?_eq_none_iff.mp hlast]
      rfl
  | some a =>
      obtain ⟨before, hsplit⟩ := List.getLast?_eq_some_iff.mp hlast
      have hentity : ∀ b ∈ before ++ [a], w.entity b = some key := fun b hb =>
        (hw.listed b key).mpr (hsplit ▸ hb)
      -- the earlier entities have stopped, which they do not do with anything left
      have hbefore : ∀ b ∈ before, messages (told h b w.trace) = messages (heard h b w.trace) := by
        intro b hb
        have hb' := hentity b (List.mem_append_left _ hb)
        have hclosed := hw.past key before a hsplit b hb
        have hstopped := (hw.behaved hg).entities b key hb' (retired_of_closed hclosed)
        rw [hacc.mailbox b key hb', hw.waiting_nil hg hb' hstopped, List.append_nil]
      rw [hsplit, List.flatMap_append, List.flatMap_append, List.flatMap_congr hbefore,
        List.append_assoc]
      simp [hacc.mailbox a key (hentity a (by simp)), messages_append]

/-! ### A host with one entity -/

section Sweep

/-- The second ticker, and the second entity, of the host below. -/
def nextTickerId : ActorId := ⟨3⟩
def nextId : ActorId := ⟨4⟩

/-- A host which passivates after one tick and buffers one message. -/
def sweepConfig : HostConfig := ⟨some 1, 1⟩

/-- The entity is event-sourced, the host and its ticker are not. -/
def sweepKind (a : ActorId) : Kind := if a = childId then .eventSourced else .plain

variable {good : Prop} {w w' : World Unit Unit} {p : Task Unit Unit (Point Unit Unit)}

/-- Nothing is hosted yet. -/
lemma behaved_of_none (hnone : w.entity = fun _ => none)
    (hhost : retired (w.sys.phase parentId) = false) : Behaved parentId w := by
  refine ⟨fun a key ha => ?_, hhost⟩
  rw [hnone] at ha
  cases ha

/-- The only entity has not stopped. -/
lemma behaved_of_one (hone : w.entity = Function.update (fun _ => none) childId (some ()))
    (hentity : retired (w.sys.phase childId) = false)
    (hhost : retired (w.sys.phase parentId) = false) : Behaved parentId w := by
  refine ⟨fun a key ha hr => ?_, hhost⟩
  by_cases hac : a = childId
  · rw [hac, hentity] at hr
    cases hr
  · rw [hone, Function.update_of_ne hac] at ha
    cases ha

/-- The only entity was asked to stop, and has processed that. -/
lemma behaved_of_asked (hone : w.entity = Function.update (fun _ => none) childId (some ()))
    (hheard : heard parentId childId w.trace = [.message (), .passivate])
    (hhost : retired (w.sys.phase parentId) = false) : Behaved parentId w := by
  refine ⟨fun a key ha _ => ?_, hhost⟩
  by_cases hac : a = childId
  · rw [hac, hheard]
    simp
  · rw [hone, Function.update_of_ne hac] at ha
    cases ha

/-- So was the first of two entities, and the second has not stopped. -/
lemma behaved_of_two (htwo : w.entity = Function.update (Function.update (fun _ => none) childId
      (some ())) nextId (some ()))
    (hheard : heard parentId childId w.trace = [.message (), .passivate])
    (hentity : retired (w.sys.phase nextId) = false)
    (hhost : retired (w.sys.phase parentId) = false) : Behaved parentId w := by
  refine ⟨fun a key ha hr => ?_, hhost⟩
  by_cases hac : a = nextId
  · rw [hac, hentity] at hr
    cases hr
  rw [htwo, Function.update_of_ne hac] at ha
  by_cases hac : a = childId
  · rw [hac, hheard]
    simp
  · rw [Function.update_of_ne hac] at ha
    cases ha

/-- Nobody but the host has spawned anything. -/
lemma childless {s : Sys (Payload Unit Unit)} {a : ActorId}
    (hparent : ∀ c g, s.parent c ≠ some (a, g)) : s.ChildrenGone a :=
  fun c g hc => absurd hc (hparent c g)

/-- The host has spawned one more. -/
lemma not_parent {f : ActorId → Option (ActorId × ℕ)} {a b : ActorId} {g : ℕ} (ha : parentId ≠ a)
    (hf : ∀ c g, f c ≠ some (a, g)) :
    ∀ c g', Function.update f b (some (parentId, g)) c ≠ some (a, g') := by
  intro c g'
  rw [Function.update_apply]
  split
  · simp [ha]
  · exact hf c g'

/-- Some actor takes a step. -/
lemma acts {l : Label (Payload Unit Unit)} {s' : Sys (Payload Unit Unit)}
    (hr : Reached sweepConfig sweepKind parentId good (Tasks.solo w p))
    (hs : Step sweepKind w.sys l s') (hl : ¬ofHost parentId l)
    (hb : Behaved parentId (w.act l s')) :
    Reached sweepConfig sweepKind parentId good (Tasks.solo (w.act l s') p) :=
  Tasks.solo_env hr ⟨.step hs hl, fun _ => hb⟩

/-- Time passes. -/
lemma ticks (hr : Reached sweepConfig sweepKind parentId good (Tasks.solo w p))
    (hb : Behaved parentId { w with clock := w.clock + 1 }) :
    Reached sweepConfig sweepKind parentId good
      (Tasks.solo { w with clock := w.clock + 1 } p) :=
  Tasks.solo_env hr ⟨.tick, fun _ => hb⟩

/-- The host makes a call. -/
lemma calls {op : Op Unit Unit} {k : op.Ans → Task Unit Unit (Point Unit Unit)} {x : op.Ans}
    (hr : Reached sweepConfig sweepKind parentId good (Tasks.solo w (.call op k)))
    (hx : Exec sweepKind parentId w op x w') (hb : Behaved parentId w') :
    Reached sweepConfig sweepKind parentId good (Tasks.solo w' (k x)) :=
  Tasks.solo_answer hr ⟨hx, fun _ => hb⟩

/-- A run in which the host routes a message to a new entity, which gets no further than its
recovery, and asks it to stop one tick later.  It goes on: the host buffers another message, the
entity processes what it was told and stops, and the host spawns the next one. -/
lemma sweep_runs (good : Prop) :
    (∃ w p, Reached sweepConfig sweepKind parentId good (Tasks.solo (w : World Unit Unit) p) ∧
      w.entity = Function.update (fun _ => none) childId (some ()) ∧
      w.sys.phase childId = .recovering ∧ ¬w.sys.Signalled childId ∧
      w.sys.queue childId = [item parentId (.message ()), item parentId .passivate]) ∧
    ∃ w p, Reached sweepConfig sweepKind parentId good (Tasks.solo (w : World Unit Unit) p) ∧
      w.accepted () = [(), ()] ∧ w.incarnations () = [childId, nextId] ∧
      (w.sys.phase childId).closed = true ∧ (w.sys.phase nextId).closed = false ∧
      told parentId childId w.trace = [.message (), .passivate] ∧
      heard parentId childId w.trace = [.message (), .passivate] ∧
      waiting parentId nextId w.sys = [.message ()] := by
  have hr : Reached sweepConfig sweepKind parentId good
      (Tasks.solo (World.init : World Unit Unit) (.ret .run)) := .refl
  have hr := acts hr (.spawnRoot (r := parentId) rfl) nofun (behaved_of_none rfl rfl)
  have hr := Tasks.solo_jump hr
  have hr := calls hr (.panics false) (behaved_of_none rfl rfl)
  have hr := calls hr (.spawnTicker (c := watcherId) (.spawn rfl rfl)) (behaved_of_none rfl rfl)
  have hr := calls hr (.panics false) (behaved_of_none rfl rfl)
  have hr := calls hr (.watch (.watchAdded rfl (by decide) rfl)) (behaved_of_none rfl rfl)
  have hr := acts hr (.watchMapped (a := parentId) rfl) nofun (behaved_of_none rfl rfl)
  have hr := calls hr (.panics false) (behaved_of_none rfl rfl)
  have hr := calls hr (.returned (.move (a := parentId) rfl (.returned (.initialised _))) rfl)
    (behaved_of_none rfl rfl)
  have hr := Tasks.solo_jump hr
  have hr := acts hr (.tellOutside (b := parentId) (.envelope () ()) rfl) nofun
    (behaved_of_none rfl rfl)
  have hr := acts hr (.move (a := parentId) rfl (.polled (Sys.not_signalled_root rfl rfl))) nofun
    (behaved_of_none rfl rfl)
  have hr := acts hr (.take (a := parentId) rfl rfl) nofun (behaved_of_none rfl rfl)
  have hr := calls hr (.nextMessage (.move (a := parentId) rfl .handMessage))
    (behaved_of_none rfl rfl)
  have hr := calls hr (.panics false) (behaved_of_none rfl rfl)
  have hr := calls hr (.spawn (c := childId) (.spawn rfl rfl)) (behaved_of_one rfl rfl rfl)
  have hr := calls hr (.panics false) (behaved_of_one rfl rfl rfl)
  have hr := calls hr (.watch (.watchAdded rfl (by decide) rfl)) (behaved_of_one rfl rfl rfl)
  have hr := acts hr (.watchMapped (a := parentId) rfl) nofun (behaved_of_one rfl rfl rfl)
  have hr := calls hr (.panics false) (behaved_of_one rfl rfl rfl)
  have hr := calls hr (.tell (.tell (a := parentId) _ rfl rfl)) (behaved_of_one rfl rfl rfl)
  have hr := calls hr (.panics false) (behaved_of_one rfl rfl rfl)
  have hr := calls hr .now (behaved_of_one rfl rfl rfl)
  have hr := calls hr (.panics false) (behaved_of_one rfl rfl rfl)
  have hr := calls hr (.returned (.move (a := parentId) rfl (.returned .continues)) rfl)
    (behaved_of_one rfl rfl rfl)
  have hr := Tasks.solo_jump hr
  -- the ticker stops after one tick
  have hr := ticks hr (behaved_of_one rfl rfl rfl)
  have hr := acts hr (.move (a := watcherId) rfl (.returned (.initialised _))) nofun
    (behaved_of_one rfl rfl rfl)
  have hr := acts hr (.tellOutside (b := watcherId) .other rfl) nofun (behaved_of_one rfl rfl rfl)
  have hr := acts hr (.move (a := watcherId) rfl (.polled (Sys.not_signalled_child rfl rfl))) nofun
    (behaved_of_one rfl rfl rfl)
  have hr := acts hr (.take (a := watcherId) rfl rfl) nofun (behaved_of_one rfl rfl rfl)
  have hr := acts hr (.move (a := watcherId) rfl .handMessage) nofun (behaved_of_one rfl rfl rfl)
  have hr := acts hr (.move (a := watcherId) rfl (.returned .stops)) nofun
    (behaved_of_one rfl rfl rfl)
  have hr := acts hr (.drain (a := watcherId) rfl) nofun (behaved_of_one rfl rfl rfl)
  have hr := acts hr (.move (a := watcherId) rfl .disconnected) nofun (behaved_of_one rfl rfl rfl)
  have hr := acts hr (.takeWatched (a := watcherId) rfl) nofun (behaved_of_one rfl rfl rfl)
  have hr := acts hr (.move (a := watcherId) rfl .deregistered) nofun (behaved_of_one rfl rfl rfl)
  have hr := acts hr (.stopChildren (a := watcherId) rfl) nofun (behaved_of_one rfl rfl rfl)
  have hr := acts hr (.move (a := watcherId) rfl (.childrenTerminated
    (childless (not_parent (by decide) (not_parent (by decide) nofun))))) nofun
    (behaved_of_one rfl rfl rfl)
  have hr := acts hr (.move (a := watcherId) rfl .actorDropped) nofun (behaved_of_one rfl rfl rfl)
  have hr := acts hr (.takeWatchers (a := watcherId) rfl) nofun (behaved_of_one rfl rfl rfl)
  have hr := acts hr (.signal (a := watcherId) (b := parentId) rfl (by decide) rfl) nofun
    (behaved_of_one rfl rfl rfl)
  have hr := acts hr (.move (a := watcherId) rfl .finished) nofun (behaved_of_one rfl rfl rfl)
  -- the host sweeps
  have hr := acts hr (.move (a := parentId) rfl (.polled (Sys.not_signalled_root rfl rfl))) nofun
    (behaved_of_one rfl rfl rfl)
  have hr := acts hr (.take (a := parentId) rfl rfl) nofun (behaved_of_one rfl rfl rfl)
  have hr := calls hr (.nextTerminated (.handSignal rfl (by decide))) (behaved_of_one rfl rfl rfl)
  have hr := calls hr (.panics false) (behaved_of_one rfl rfl rfl)
  have hr := calls hr (.order (List.nodup_singleton ()) (by decide)) (behaved_of_one rfl rfl rfl)
  have hr := calls hr (.panics false) (behaved_of_one rfl rfl rfl)
  have hr := calls hr .now (behaved_of_one rfl rfl rfl)
  have hr := calls hr (.panics false) (behaved_of_one rfl rfl rfl)
  have hr := calls hr (.passivate (.tell (a := parentId) _ rfl rfl)) (behaved_of_one rfl rfl rfl)
  refine ⟨⟨_, _, hr, rfl, rfl, Sys.not_signalled_child rfl rfl, rfl⟩, ?_⟩
  have hr := calls hr (.panics false) (behaved_of_one rfl rfl rfl)
  have hr := calls hr (.spawnTicker (c := nextTickerId) (.spawn rfl rfl))
    (behaved_of_one rfl rfl rfl)
  have hr := calls hr (.panics false) (behaved_of_one rfl rfl rfl)
  have hr := calls hr (.watch (.watchAdded rfl (by decide) rfl)) (behaved_of_one rfl rfl rfl)
  have hr := acts hr (.watchMapped (a := parentId) rfl) nofun (behaved_of_one rfl rfl rfl)
  have hr := calls hr (.panics false) (behaved_of_one rfl rfl rfl)
  have hr := calls hr (.returned (.move (a := parentId) rfl (.returned .continues)) rfl)
    (behaved_of_one rfl rfl rfl)
  have hr := Tasks.solo_jump hr
  -- another message arrives before the entity has stopped
  have hr := acts hr (.tellOutside (b := parentId) (.envelope () ()) rfl) nofun
    (behaved_of_one rfl rfl rfl)
  have hr := acts hr (.move (a := parentId) rfl (.polled (Sys.not_signalled_root rfl rfl))) nofun
    (behaved_of_one rfl rfl rfl)
  have hr := acts hr (.take (a := parentId) rfl rfl) nofun (behaved_of_one rfl rfl rfl)
  have hr := calls hr (.nextMessage (.move (a := parentId) rfl .handMessage))
    (behaved_of_one rfl rfl rfl)
  have hr := calls hr (.panics false) (behaved_of_one rfl rfl rfl)
  have hr := calls hr .buffer (behaved_of_one rfl rfl rfl)
  have hr := calls hr (.panics false) (behaved_of_one rfl rfl rfl)
  have hr := calls hr (.returned (.move (a := parentId) rfl (.returned .continues)) rfl)
    (behaved_of_one rfl rfl rfl)
  have hr := Tasks.solo_jump hr
  -- the entity processes both of what it was told, and stops
  have hr := acts hr (.move (a := childId) rfl .recovered) nofun (behaved_of_one rfl rfl rfl)
  have hr := acts hr (.move (a := childId) rfl (.returned (.initialised _))) nofun
    (behaved_of_one rfl rfl rfl)
  have hr := acts hr (.move (a := childId) rfl (.polled (Sys.not_signalled_child rfl rfl))) nofun
    (behaved_of_one rfl rfl rfl)
  have hr := acts hr (.take (a := childId) rfl rfl) nofun (behaved_of_one rfl rfl rfl)
  have hr := acts hr (.move (a := childId) rfl .handMessage) nofun (behaved_of_one rfl rfl rfl)
  have hr := acts hr (.move (a := childId) rfl (.returned .decides)) nofun
    (behaved_of_one rfl rfl rfl)
  have hr := acts hr (.move (a := childId) rfl .settled) nofun (behaved_of_one rfl rfl rfl)
  have hr := acts hr (.move (a := childId) rfl (.polled (Sys.not_signalled_child rfl rfl))) nofun
    (behaved_of_one rfl rfl rfl)
  have hr := acts hr (.take (a := childId) rfl rfl) nofun (behaved_of_one rfl rfl rfl)
  have hr := acts hr (.move (a := childId) rfl .handMessage) nofun (behaved_of_asked rfl rfl rfl)
  have hr := acts hr (.move (a := childId) rfl (.returned .decides)) nofun
    (behaved_of_asked rfl rfl rfl)
  have hr := acts hr (.move (a := childId) rfl .settledStop) nofun (behaved_of_asked rfl rfl rfl)
  have hr := acts hr (.move (a := childId) rfl (.dropped false)) nofun
    (behaved_of_asked rfl rfl rfl)
  have hr := acts hr (.drain (a := childId) rfl) nofun (behaved_of_asked rfl rfl rfl)
  have hr := acts hr (.move (a := childId) rfl .disconnected) nofun (behaved_of_asked rfl rfl rfl)
  have hr := acts hr (.takeWatched (a := childId) rfl) nofun (behaved_of_asked rfl rfl rfl)
  have hr := acts hr (.move (a := childId) rfl .deregistered) nofun (behaved_of_asked rfl rfl rfl)
  have hr := acts hr (.stopChildren (a := childId) rfl) nofun (behaved_of_asked rfl rfl rfl)
  have hr := acts hr (.move (a := childId) rfl (.childrenTerminated (childless (not_parent
    (by decide) (not_parent (by decide) (not_parent (by decide) nofun)))))) nofun
    (behaved_of_asked rfl rfl rfl)
  have hr := acts hr (.move (a := childId) rfl .actorDropped) nofun (behaved_of_asked rfl rfl rfl)
  have hr := acts hr (.takeWatchers (a := childId) rfl) nofun (behaved_of_asked rfl rfl rfl)
  have hr := acts hr (.signal (a := childId) (b := parentId) rfl (by decide) rfl) nofun
    (behaved_of_asked rfl rfl rfl)
  have hr := acts hr (.move (a := childId) rfl .finished) nofun (behaved_of_asked rfl rfl rfl)
  -- the host spawns the next entity, and tells it what is in the buffer
  have hr := acts hr (.move (a := parentId) rfl (.polled (Sys.not_signalled_root rfl rfl))) nofun
    (behaved_of_asked rfl rfl rfl)
  have hr := acts hr (.take (a := parentId) rfl rfl) nofun (behaved_of_asked rfl rfl rfl)
  have hr := calls hr (.nextTerminated (.handSignal rfl (by decide))) (behaved_of_asked rfl rfl rfl)
  have hr := calls hr (.panics false) (behaved_of_asked rfl rfl rfl)
  have hr := calls hr (.spawn (c := nextId) (.spawn rfl rfl)) (behaved_of_two rfl rfl rfl rfl)
  have hr := calls hr (.panics false) (behaved_of_two rfl rfl rfl rfl)
  have hr := calls hr (.watch (.watchAdded rfl (by decide) rfl)) (behaved_of_two rfl rfl rfl rfl)
  have hr := acts hr (.watchMapped (a := parentId) rfl) nofun (behaved_of_two rfl rfl rfl rfl)
  have hr := calls hr (.panics false) (behaved_of_two rfl rfl rfl rfl)
  have hr := calls hr (.tellForced (.tell (a := parentId) _ rfl rfl))
    (behaved_of_two rfl rfl rfl rfl)
  exact ⟨_, _, hr, rfl, rfl, rfl, rfl, rfl, rfl, rfl⟩

end Sweep

/-- **Passivation is invisible to senders.**  Whoever is asked to stop is told nothing afterwards,
so it is asked once; it is asked only when no envelope for its key has been routed within the idle
timeout.  And as long as no entity stops or fails before it has processed that message, and the
host does not either, the messages processed by the successive entities of a key, followed by those
in the mailbox of the current one and those in the buffer, are those accepted for the key, in the
order in which the host was handed their envelopes. -/
theorem passivation_invisible {st : Tasks Unit (Op K M) Op.Ans (World K M) (Point K M)}
    {idleTimeout : ℕ+} (htimeout : config.idleTimeout = some idleTimeout)
    (hst : Reached config kind h good st) :
    (∀ a before after, st.shared.trace = before ++ .send a (item h .passivate) :: after →
        told h a after = []) ∧
      (∀ st' a, HostStep config kind h good st st' →
        st'.shared.trace = st.shared.trace ++ [.send a (item h .passivate)] →
        ∃ key, st.shared.entity a = some key ∧
          ∀ t ∈ st.shared.routed key, t + idleTimeout ≤ st.shared.clock) ∧
      (∀ state k, st.task () = .call (.nextIncoming state) k →
        st.shared.buffered = state.buffered) ∧
      (good → ∀ key,
        (st.shared.routings key).map Prod.fst <+: envelopes h key st.shared.trace ∧
        (∀ state k, st.task () = .call (.nextIncoming state) k →
          (st.shared.routings key).map Prod.fst = envelopes h key st.shared.trace) ∧
        st.shared.accepted key =
          (st.shared.incarnations key).flatMap (fun a => messages (heard h a st.shared.trace)) ++
            st.shared.queued h key ++ st.shared.buffered key) := by
  obtain ⟨hw, hsafe⟩ := reached_good hst
  have hsafe := hsafe ()
  have hheld : ∀ state k, st.task () = .call (.nextIncoming state) k →
      Held h good state st.shared := fun state k htask => by
    rw [htask] at hsafe
    exact hsafe.pre hw
  refine ⟨fun a before after hsplit => ?_, fun st' a hs htrace => ?_,
    fun state k htask => (hheld state k htask).buffered,
    fun hg key => ⟨(hw.accounted hg).received key, fun state k htask => ?_, hw.processed hg key⟩⟩
  · have hlast := hw.last a (told h a before) (told h a after)
    rw [hsplit, ← List.singleton_append, told_append, told_append, told_send, if_pos rfl] at hlast
    exact hlast rfl
  · cases hs with
    | answer i htask hx =>
        obtain rfl := hx.1.asked htrace
        rw [htask] at hsafe
        obtain ⟨key, haddr, hidle⟩ := hsafe.pre hw
        exact ⟨key, haddr.entity, hidle idleTimeout htimeout⟩
    | jump => simp at htrace
    | env he => exact absurd htrace he.1.not_asked
  · rw [(hheld state k htask).received hg key]
    exact (List.append_nil _).symm

/-- The first entity has processed one message and was then asked to stop, and the message which
was buffered meanwhile waits in the mailbox of the second. -/
theorem sweep_invisible : ∃ w p, Reached sweepConfig sweepKind parentId True
    (Tasks.solo (w : World Unit Unit) p) ∧ w.incarnations () = [childId, nextId] ∧
    told parentId childId w.trace = [.message (), .passivate] ∧
    messages (heard parentId childId w.trace) = [()] ∧ w.queued parentId () = [()] ∧
    w.accepted () = [(), ()] ∧
    w.accepted () = (w.incarnations ()).flatMap (fun a => messages (heard parentId a w.trace)) ++
      w.queued parentId () ++ w.buffered () := by
  obtain ⟨-, w, p, hr, haccepted, hboth, -, -, htold, hheard, hwaiting⟩ := sweep_runs True
  obtain ⟨-, -, -, hprocessed⟩ := passivation_invisible rfl hr
  refine ⟨w, p, hr, hboth, htold, by rw [hheard]; rfl, ?_, haccepted, (hprocessed trivial ()).2.2⟩
  rw [World.queued, hboth]
  exact congrArg messages hwaiting

end Tellus.Host
