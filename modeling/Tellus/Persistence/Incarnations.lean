import Mathlib.Tactic
import Tellus.Persistence.Fencing
import Tellus.Persistence.Replay

/-!
Whole runs of any number of incarnations: fencing, replay against live execution, and
transparent snapshots.

* `Reachable`: what the incarnations of any IDs can get into, from an empty store on.
* `fencing_serialises_decisions`: the stream is a concatenation of whole batches, each decided
  on the state of exactly the events before it.
* `running_eq_replay`: at the head of the inner loop the state is the fold of the stored
  events before its position, and recovery up to there gives the same state and position.
* `recover_ignores_snapshots`: recovery returns the same with the stored snapshot, with none,
  and with one which does not decode.
-/

namespace Tellus

open Concurrent

variable {I : Type} {A : EventSourced I} {ι : Type}
variable [DecidableEq I] [DecidableEq ι] {ident : ι → I} {late foreign : Prop}

/-! ### Runs -/

section Runs

variable (A) (ident late foreign)

/-- The incarnations before their first step, and nothing stored. -/
def Incarnations.init : Tasks ι (Op A) Op.Ans (Shared A ι) (Point A) :=
  ⟨Shared.init, fun _ => .ret .run⟩

/-- One step of one incarnation, or of the surroundings. -/
abbrev Incarnations.Steps :=
  Tasks.Reaches (fun _ : ι => code A) (Exec ident late) (Env foreign)

/-- The states the incarnations can get into. -/
def Reachable (st : Tasks ι (Op A) Op.Ans (Shared A ι) (Point A)) : Prop :=
  Incarnations.Steps A ident late foreign (Incarnations.init A) st

variable {A ident late foreign} {st st' : Tasks ι (Op A) Op.Ans (Shared A ι) (Point A)}

/-- In every reachable state the invariant holds and every incarnation is safe. -/
lemma Reachable.good (h : Reachable A ident late foreign st) :
    Tasks.Good (writers A ident late foreign False) (PointOk A ident False) st := by
  refine Tasks.invariant (C := writers A ident late foreign False) (fun i s pt _ hpt => ?_)
    (fun i s op x s' hi hpre hx => ?_) (fun s s' hi he => ?_) ?_ h
  · exact code_safe pt hpt
  · obtain ⟨hinv, hg, hlatest, -⟩ := exec_keeps hi hpre hx
    exact ⟨hinv, fun j hj => ⟨hg, hlatest j hj, False.elim⟩⟩
  · obtain ⟨hinv, hg, hlatest⟩ := env_keeps hi he
    exact ⟨hinv, fun j => ⟨hg, hlatest j, False.elim⟩⟩
  · exact ⟨Inv.init, fun i t _ _ => trivial⟩

lemma Reachable.trans (h : Reachable A ident late foreign st)
    (h' : Incarnations.Steps A ident late foreign st st') : Reachable A ident late foreign st' :=
  Relation.ReflTransGen.trans h h'

/-- The shared state only grows. -/
lemma Reachable.grows (h : Reachable A ident late foreign st)
    (h' : Incarnations.Steps A ident late foreign st st') : Grows st.shared st'.shared := by
  induction h' with
  | refl => exact Grows.refl _
  | tail hsteps hstep ih =>
      have hgood := (h.trans hsteps).good
      refine ih.trans ?_
      cases hstep with
      | answer i hi hx =>
          have hsafe := hgood.2 i
          rw [hi] at hsafe
          exact (exec_keeps hgood.1 (hsafe.pre hgood.1) hx).2.1
      | jump i hi => exact Grows.refl _
      | env he => exact (env_keeps hgood.1 he).2.1

end Runs

/-! ### A counter -/

/-- The counter's first command has been decided. -/
def counterDecided : Shared counter Unit := Shared.init.decide () ⟨(), (0 : ℕ), count⟩

/-- The event of the counter's first command has been stored. -/
def counterLanded : Shared counter Unit :=
  counterDecided.land () 0
    { counterDecided.store with
      streams := Function.update (fun _ => []) () (InMemoryStore.stored SeqNo.zero [counted]) }

/-- The counter after its first command, with a snapshot taken. -/
def counterSaved : Shared counter Unit :=
  { counterLanded with
    store := counterLanded.store.save () (SeqNo.new 1) ⟨"count", ⟨1⟩, [0]⟩ }

/-- A run of the counter: it recovers from an empty store, counts a command, saves a snapshot
and waits for the next incoming. -/
lemma counter_run (foreign : Prop) : Reachable counter (fun _ : Unit => ()) False foreign
    (.solo counterSaved (code counter (.running ⟨(), (1 : ℕ), SeqNo.new 1⟩))) := by
  have hread : Exec (fun _ : Unit => ()) False () (Shared.init : Shared counter Unit)
      (.read () SeqNo.zero replayPageLimit) (.ok []) Shared.init :=
    .read () SeqNo.zero replayPageLimit
  have hland : Exec (fun _ : Unit => ()) False () counterDecided
      (.append () SeqNo.zero [counted]) (.ok ()) counterLanded :=
    .appendLands rfl (by show 1 ≤ vecMax; norm_num [vecMax])
  have hevent : Exec (fun _ : Unit => ()) False () counterDecided (.encodeEvent ()) (.ok [])
      counterDecided := .encodeEvent rfl
  have hsnap : Exec (fun _ : Unit => ()) False () counterLanded (.snapshot (1 : ℕ))
      (.ok (some (1 : ℕ))) counterLanded := .snapshot rfl
  have hencode : Exec (fun _ : Unit => ()) False () counterLanded (.encodeSnapshot (1 : ℕ))
      (.ok [0]) counterLanded := .encodeSnapshot rfl
  have h : Reachable counter (fun _ : Unit => ()) False foreign (.solo Shared.init (.ret .run)) :=
    .refl
  have h := Tasks.solo_jump h
  have h := Tasks.solo_answer h (.stoppedByParent false)
  have h := Tasks.solo_answer h .persistenceId
  have h := Tasks.solo_answer h (.stoppedByParent false)
  have h := Tasks.solo_answer h (.load ())
  have h := Tasks.solo_answer h (.stoppedByParent false)
  have h := Tasks.solo_jump h
  have h := Tasks.solo_answer h (.stoppedByParent false)
  have h := Tasks.solo_answer h hread
  have h := Tasks.solo_answer h (.stoppedByParent false)
  have h := Tasks.solo_jump h
  have h := Tasks.solo_answer h (.recovered _)
  have h := Tasks.solo_jump h
  have h := Tasks.solo_answer h (.nextIncoming _ (some (.message ())))
  have h := Tasks.solo_answer h (.handle _ _ count)
  have h := Tasks.solo_answer h hevent
  have h := Tasks.solo_answer h hland
  have h := Tasks.solo_answer h hsnap
  have h := Tasks.solo_answer h hencode
  have h := Tasks.solo_answer h (.save _ _ _ (.ok ()))
  have h := Tasks.solo_jump h
  exact h

/-- A run of two incarnations of the counter on one stream: both recover from an empty store and
count a command, one of them saves a snapshot and waits for the next incoming, and the other one,
whose append conflicts, has failed. -/
lemma rivals_run (foreign : Prop) : ∃ st, Reachable counter (fun _ : Bool => ()) False foreign st ∧
    st.shared.stream () = [⟨SeqNo.zero, counted⟩] ∧ st.shared.decisions.length = 2 ∧
    st.shared.store.load () = some ⟨SeqNo.new 1, ⟨"count", ⟨1⟩, [0]⟩⟩ ∧
    st.task true = code counter (.running ⟨(), (1 : ℕ), SeqNo.new 1⟩) ∧
    st.task false = .ret .failed := by
  have hread : ∀ i, Exec (fun _ : Bool => ()) False i (Shared.init : Shared counter Bool)
      (.read () SeqNo.zero replayPageLimit) (.ok []) Shared.init :=
    fun _ => .read () SeqNo.zero replayPageLimit
  have hconflict : ∀ i (s : Shared counter Bool), s.stream () = [⟨SeqNo.zero, counted⟩] →
      Exec (fun _ : Bool => ()) False i s (.append () SeqNo.zero [counted]) (.err .conflict) s := by
    refine fun i s hs => .appendConflicts ?_
    have hne : SeqNo.new (s.store.streams ()).length ≠ SeqNo.zero := by
      rw [show s.store.streams () = _ from hs]
      decide
    rw [InMemoryStore.append, if_pos hne]
  have hevent : ∀ i s, Exec (fun _ : Bool => ()) False i (s : Shared counter Bool)
      (.encodeEvent ()) (.ok []) s := fun _ _ => .encodeEvent rfl
  have hsnap : ∀ i s, Exec (fun _ : Bool => ()) False i (s : Shared counter Bool)
      (.snapshot (1 : ℕ)) (.ok (some (1 : ℕ))) s := fun _ _ => .snapshot rfl
  have hencode : ∀ i s, Exec (fun _ : Bool => ()) False i (s : Shared counter Bool)
      (.encodeSnapshot (1 : ℕ)) (.ok [0]) s := fun _ _ => .encodeSnapshot rfl
  have h : Reachable counter (fun _ : Bool => ()) False foreign (Incarnations.init counter) :=
    .refl
  -- both recover from the empty store
  have h := h.tail (.jump true rfl)
  have h := h.tail (.answer true rfl (.stoppedByParent false))
  have h := h.tail (.answer true rfl .persistenceId)
  have h := h.tail (.answer true rfl (.stoppedByParent false))
  have h := h.tail (.answer true rfl (.load ()))
  have h := h.tail (.answer true rfl (.stoppedByParent false))
  have h := h.tail (.jump true rfl)
  have h := h.tail (.answer true rfl (.stoppedByParent false))
  have h := h.tail (.answer true rfl (hread true))
  have h := h.tail (.answer true rfl (.stoppedByParent false))
  have h := h.tail (.jump true rfl)
  have h := h.tail (.answer true rfl (.recovered _))
  have h := h.tail (.jump true rfl)
  have h := h.tail (.jump false rfl)
  have h := h.tail (.answer false rfl (.stoppedByParent false))
  have h := h.tail (.answer false rfl .persistenceId)
  have h := h.tail (.answer false rfl (.stoppedByParent false))
  have h := h.tail (.answer false rfl (.load ()))
  have h := h.tail (.answer false rfl (.stoppedByParent false))
  have h := h.tail (.jump false rfl)
  have h := h.tail (.answer false rfl (.stoppedByParent false))
  have h := h.tail (.answer false rfl (hread false))
  have h := h.tail (.answer false rfl (.stoppedByParent false))
  have h := h.tail (.jump false rfl)
  have h := h.tail (.answer false rfl (.recovered _))
  have h := h.tail (.jump false rfl)
  -- both decide, and only one of them appends
  have h := h.tail (.answer true rfl (.nextIncoming _ (some (.message ()))))
  have h := h.tail (.answer true rfl (.handle _ _ count))
  have h := h.tail (.answer false rfl (.nextIncoming _ (some (.message ()))))
  have h := h.tail (.answer false rfl (.handle _ _ count))
  have h := h.tail (.answer true rfl (hevent _ _))
  have h := h.tail (.answer false rfl (hevent _ _))
  have h := h.tail (.answer true rfl (.appendLands (r := .ok ()) rfl
    (by show 1 ≤ vecMax; norm_num [vecMax])))
  have h := h.tail (.answer false rfl (hconflict false _ rfl))
  have h := h.tail (.answer true rfl (hsnap _ _))
  have h := h.tail (.answer true rfl (hencode _ _))
  have h := h.tail (.answer true rfl (.save _ _ _ (.ok ())))
  have h := h.tail (.jump true rfl)
  exact ⟨_, h, rfl, rfl, rfl, rfl, rfl⟩

/-! ### What holds of every run -/

section Results

variable {st : Tasks ι (Op A) Op.Ans (Shared A ι) (Point A)}

/-- **Fencing serialises decisions.**  Whatever the incarnations of an ID do, and whichever of
their appends take effect although they are reported as failed, at once or later: its stream is
numbered without a gap, it is the concatenation of the whole event lists of distinct decisions,
each of them taken on the fold of exactly the events stored before, and no later step changes
what is stored. -/
theorem fencing_serialises_decisions (h : Reachable A ident late False st) (id : I) :
    Numbered (st.shared.stream id) ∧ Serialised st.shared id ∧
      ∀ st', Incarnations.Steps A ident late False st st' →
        st.shared.stream id <+: st'.shared.stream id :=
  ⟨h.good.1.numbered id, h.good.1.serial not_false id, fun _ h' => (h.grows h').stream id⟩

/-- Of the two decisions the stream has the one whose append came first. -/
theorem counter_serialised : ∃ st, Reachable counter (fun _ : Bool => ()) False False st ∧
    st.shared.decisions.length = 2 ∧ st.task false = .ret .failed ∧
    st.shared.stream () = [⟨SeqNo.zero, counted⟩] ∧ Serialised st.shared () := by
  obtain ⟨st, h, hstream, hdecisions, -, -, hfailed⟩ := rivals_run False
  exact ⟨st, h, hdecisions, hfailed, hstream, (fencing_serialises_decisions h ()).2.1⟩

/-- A stored snapshot of a reachable store stands for the events before its position. -/
lemma Reachable.soundSnapshot (h : Reachable A ident late foreign st) (id : I) :
    SoundSnapshot A st.shared.store id := by
  intro stored hs
  obtain ⟨decoded, state, hdec, hinit, hle, hfold⟩ := h.good.1.snapshots id stored hs
  exact .inr ⟨decoded, state, hdec, hinit, hle, hfold⟩

/-- **Replay equals live execution.**  While an incarnation waits for its next incoming, its
position is within the stream and its state is the fold of exactly the stored events before
that position, so recovery from the store cut there gives the same state and position. -/
theorem running_eq_replay (h : Reachable A ident late foreign st) {i : ι} {r : Recovered A}
    {k : Option (Incoming A.Command) → Task A (Point A)}
    (hwait : st.task i = .call (.nextIncoming r) k) :
    r.nextSeqNo.toNat ≤ (st.shared.stream (ident i)).length ∧
      A.stateAfter (ident i) ((st.shared.stream (ident i)).take r.nextSeqNo.toNat) =
        some r.state ∧
      ∃ pages, ∀ fuel, pages ≤ fuel →
        recover A (st.shared.store.cutAt (ident i) r.nextSeqNo) (ident i) fuel =
          some (some r) := by
  obtain ⟨hinv, hsafe⟩ := h.good
  have hi := hsafe i
  rw [hwait] at hi
  obtain ⟨⟨hid, hf⟩, -⟩ := hi.pre hinv
  rw [hid] at hf
  obtain ⟨hle, hfold⟩ := hf
  refine ⟨hle, hfold, r.nextSeqNo.toNat / replayPageLimit + 1, fun fuel hfuel => ?_⟩
  have hlen : ((st.shared.store.cutAt (ident i) r.nextSeqNo).streams (ident i)).length =
      r.nextSeqNo.toNat := by
    rw [InMemoryStore.cutAt_streams, List.length_take, Nat.min_eq_left hle]
  have hnum : Numbered ((st.shared.store.cutAt (ident i) r.nextSeqNo).streams (ident i)) := by
    rw [InMemoryStore.cutAt_streams]
    exact (hinv.numbered (ident i)).take _
  rw [recover_eq hnum (by rw [hlen]; exact r.nextSeqNo.isLt)
    ((h.soundSnapshot (ident i)).cutAt hle) (by rw [hlen]; omega), hlen,
    InMemoryStore.cutAt_streams, hfold]
  have hpos : SeqNo.new r.nextSeqNo.toNat = r.nextSeqNo :=
    (SeqNo.new_eq_iff r.nextSeqNo.isLt).mpr rfl
  rw [Option.map_some, hpos, ← hid]

/-- The state of the incarnation which waits, the other one having failed, is what recovery makes
of the stream. -/
theorem counter_replays : ∃ st, Reachable counter (fun _ : Bool => ()) False True st ∧
    st.task false = .ret .failed ∧
    (SeqNo.new 1).toNat ≤ (st.shared.stream ()).length ∧ ∃ pages, ∀ fuel, pages ≤ fuel →
      recover counter (st.shared.store.cutAt () (SeqNo.new 1)) () fuel =
        some (some ⟨(), (1 : ℕ), SeqNo.new 1⟩) := by
  obtain ⟨st, h, -, -, -, hwait, hfailed⟩ := rivals_run True
  obtain ⟨hle, -, hrec⟩ := running_eq_replay h hwait
  exact ⟨st, h, hfailed, hle, hrec⟩

/-- **Snapshots are transparent.**  The stored snapshot covers a prefix of the stream, and
recovery returns the fold of the whole stream and its length: with that snapshot, without
any, and with any other one which does not decode. -/
theorem recover_ignores_snapshots (h : Reachable A ident late foreign st) (id : I) :
    (∀ stored, st.shared.store.load id = some stored →
      stored.nextSeqNo.toNat ≤ (st.shared.stream id).length ∧
        ∃ decoded state,
          decodeVersioned A.snapshot stored.snapshot.manifest stored.snapshot.schemaVersion
            stored.snapshot.payload = .ok decoded ∧
          A.initFromSnapshot id decoded = .ok state ∧
          A.stateAfter id ((st.shared.stream id).take stored.nextSeqNo.toNat) = some state) ∧
      ∃ pages, ∀ fuel, pages ≤ fuel →
        recover A st.shared.store id fuel =
          some ((A.stateAfter id (st.shared.stream id)).map fun state =>
            ⟨id, state, SeqNo.new (st.shared.stream id).length⟩) ∧
        recover A st.shared.store.noSnapshots id fuel = recover A st.shared.store id fuel ∧
        ∀ stored, Undecodable A stored.snapshot →
          recover A (st.shared.store.withSnapshot id stored) id fuel =
            recover A st.shared.store id fuel := by
  obtain ⟨hinv, -⟩ := h.good
  have hlen : (st.shared.stream id).length < 2 ^ 64 :=
    lt_of_le_of_lt (hinv.fits id) (by norm_num [vecMax])
  refine ⟨fun stored hload => ?_, (st.shared.stream id).length / replayPageLimit + 1,
    fun fuel hfuel => ?_⟩
  · obtain ⟨decoded, state, hdec, hinit, hle, hfold⟩ := hinv.snapshots id stored hload
    exact ⟨hle, decoded, state, hdec, hinit, hfold⟩
  · have hrec : ∀ s : InMemoryStore I, s.streams id = st.shared.stream id →
        SoundSnapshot A s id → recover A s id fuel =
          some ((A.stateAfter id (st.shared.stream id)).map fun state =>
            ⟨id, state, SeqNo.new (st.shared.stream id).length⟩) := by
      intro s hs hsound
      have hnum : Numbered (s.streams id) := hs ▸ hinv.numbered id
      rw [recover_eq hnum (hs ▸ hlen) hsound (by rw [hs]; omega), hs]
    have hself := hrec st.shared.store rfl (h.soundSnapshot id)
    refine ⟨hself, ?_, fun stored hun => ?_⟩
    · rw [hself]
      exact hrec _ rfl fun _ hs => by cases hs
    · rw [hself]
      refine hrec _ rfl fun stored' hs => .inl ?_
      simp only [InMemoryStore.withSnapshot, Function.update_self, Option.some.injEq] at hs
      rw [← hs]
      exact hun

/-- The counter is recovered alike from the snapshot which one of the two incarnations has saved,
from its events, and from a snapshot of another type. -/
theorem counter_ignores_snapshots : ∃ st, Reachable counter (fun _ : Bool => ()) False False st ∧
    st.task false = .ret .failed ∧
    st.shared.store.load () = some ⟨SeqNo.new 1, ⟨"count", ⟨1⟩, [0]⟩⟩ ∧
      ∃ pages, ∀ fuel, pages ≤ fuel →
        recover counter st.shared.store () fuel = some (some ⟨(), (1 : ℕ), SeqNo.new 1⟩) ∧
        recover counter
            (st.shared.store.withSnapshot () ⟨SeqNo.new 7, ⟨"other", ⟨1⟩, []⟩⟩) () fuel =
          some (some ⟨(), (1 : ℕ), SeqNo.new 1⟩) := by
  obtain ⟨st, h, hstream, -, hload, -, hfailed⟩ := rivals_run False
  obtain ⟨-, pages, hpages⟩ := recover_ignores_snapshots h ()
  refine ⟨st, h, hfailed, hload, pages, fun fuel hfuel => ?_⟩
  obtain ⟨hself, -, hother⟩ := hpages fuel hfuel
  rw [hstream] at hself
  have hun : Undecodable counter ⟨"other", ⟨1⟩, []⟩ := fun _ h => by
    simp [decodeVersioned, counter, Versioned.current] at h
  exact ⟨hself, (hother ⟨SeqNo.new 7, ⟨"other", ⟨1⟩, []⟩⟩ hun).trans hself⟩

end Results

end Tellus
