import Mathlib.Tactic
import Tellus.Persistence.Paging

/-!
Recovery against a store which neither fails nor changes.

`recover` reads the stream page by page from where a snapshot, if it decodes, lets it start.
`recover_eq` says what it returns: the fold of the whole stream and its length, whatever
snapshot is stored, as long as the snapshot either does not decode or stands for the events
before its position (`SoundSnapshot`).

* `recoverLoop_eq`: the paging loop is one fold over the rest of the stream, which is
  `replayLoop_spec` at a stream that stays as it is.
* `cutAt`, `withSnapshot`, `noSnapshots`: the stores recovery is compared over.
-/

namespace Tellus

open Concurrent

variable {I : Type} {A : EventSourced I}

/-! ### The loop -/

/-- Against a quiet store the loop pages through one and the same stream. -/
lemma recoverLoop_eq_replayLoop {s : InMemoryStore I} {id : I} (hnum : Numbered (s.streams id))
    (hfits : (s.streams id).length < 2 ^ 64) (fuel n : ℕ) {r : Recovered A} (hid : r.id = id) :
    recoverLoop A s id fuel r =
      (replayLoop A (fun _ => s.streams id) fuel n r).map Prod.snd := by
  induction fuel generalizing n r with
  | zero => rfl
  | succ fuel ih =>
      have hread : s.read r.id r.nextSeqNo replayPageLimit =
          pageOf (s.streams id) r.nextSeqNo replayPageLimit := by
        rw [hid, s.read_eq id r.nextSeqNo replayPageLimit hfits, pageOf_eq hnum]
      have heval : (recoverPage A r).eval (storeAnswers A s id) =
          (recoverPage A r).eval (pageAnswers A (s.streams id)) := by
        simp only [recoverPage, ask, Prog.bind_eq, Prog.op_bind, Prog.eval, storeAnswers,
          pageAnswers, hread, Prog.pure_eq]
      rw [recoverLoop, replayLoop, heval]
      rcases hev : (recoverPage A r).eval (pageAnswers A (s.streams id)) with _ | _ | ⟨r', _ | _⟩
      · rfl
      · rfl
      · refine ih (n + 1) ?_
        -- a page leaves the ID alone
        simp only [recoverPage, ask, Prog.bind_eq, Prog.op_bind, Prog.eval, pageAnswers,
          Prog.pure_eq, Option.some.injEq, Option.map_eq_some_iff, Prod.mk.injEq] at hev
        obtain ⟨_, -, rfl, -⟩ := hev
        exact hid
      · rfl

/-- The loop of `recover` folds the rest of the stream and ends at its end, given a page for
every full one left and one more. -/
lemma recoverLoop_eq {s : InMemoryStore I} {id : I} (hnum : Numbered (s.streams id))
    (hfits : (s.streams id).length < 2 ^ 64) {fuel : ℕ} {r : Recovered A} (hid : r.id = id)
    (hle : r.nextSeqNo.toNat ≤ (s.streams id).length)
    (hfuel : ((s.streams id).length - r.nextSeqNo.toNat) / replayPageLimit < fuel) :
    recoverLoop A s id fuel r =
      some ((A.replay id r.state (((s.streams id).drop r.nextSeqNo.toNat).map
        StoredEvent.event)).map fun state => ⟨id, state, SeqNo.new (s.streams id).length⟩) := by
  obtain ⟨turns, hturns, -, hloop⟩ := replayLoop_spec (A := A) (n := 0)
    (fun _ => hnum) (fun _ => List.prefix_rfl) (fun _ => le_rfl) hfits hle
  rw [recoverLoop_eq_replayLoop hnum hfits fuel 0 hid,
    hloop fuel (lt_of_le_of_lt (turns_le hturns) hfuel), ← hid]
  rfl

/-! ### Where the loop starts -/

/-- A snapshot which does not decode. -/
def Undecodable (A : EventSourced I) (snapshot : EncodedSnapshot) : Prop :=
  ∀ decoded, decodeVersioned A.snapshot snapshot.manifest snapshot.schemaVersion
    snapshot.payload ≠ .ok decoded

/-- The stored snapshot, if it decodes, stands for the events before its position. -/
def SoundSnapshot (A : EventSourced I) (s : InMemoryStore I) (id : I) : Prop :=
  ∀ stored, s.snapshots id = some stored → Undecodable A stored.snapshot ∨
    ∃ decoded state, decodeVersioned A.snapshot stored.snapshot.manifest
        stored.snapshot.schemaVersion stored.snapshot.payload = .ok decoded ∧
      A.initFromSnapshot id decoded = .ok state ∧
      stored.nextSeqNo.toNat ≤ (s.streams id).length ∧
      A.stateAfter id ((s.streams id).take stored.nextSeqNo.toNat) = some state

lemma decodeSnapshot_undecodable {stored : StoredSnapshot} (h : Undecodable A stored.snapshot) :
    decodeSnapshot A (some stored) = none := by
  simp only [decodeSnapshot, Option.bind_some]
  split
  · rename_i decoded hdec
    exact absurd hdec (h decoded)
  · rfl
  · rfl

/-- The seed of `recover`: the fold of a prefix of the stream, or a failing `init`. -/
lemma seedOf_sound {s : InMemoryStore I} {id : I} (h : SoundSnapshot A s id) :
    (∃ r, seedOf A id (s.load id) = some r ∧ r.id = id ∧
      r.nextSeqNo.toNat ≤ (s.streams id).length ∧
      A.stateAfter id ((s.streams id).take r.nextSeqNo.toNat) = some r.state) ∨
    (seedOf A id (s.load id) = none ∧ catchAndLog (A.init id) = none) := by
  have hinit : ∀ snapshot, decodeSnapshot A snapshot = none →
      (∃ r, seedOf A id snapshot = some r ∧ r.id = id ∧
        r.nextSeqNo.toNat ≤ (s.streams id).length ∧
        A.stateAfter id ((s.streams id).take r.nextSeqNo.toNat) = some r.state) ∨
      (seedOf A id snapshot = none ∧ catchAndLog (A.init id) = none) := by
    intro snapshot hnone
    cases hi : catchAndLog (A.init id) with
    | none => exact .inr ⟨by simp [seedOf, hnone, hi], rfl⟩
    | some seed =>
        refine .inl ⟨⟨id, seed, SeqNo.zero⟩, by simp [seedOf, hnone, hi], rfl, Nat.zero_le _, ?_⟩
        simp [EventSourced.stateAfter, hi]
  cases hload : s.load id with
  | none => exact hinit none rfl
  | some stored =>
      rcases h stored hload with hun | ⟨decoded, state, hdec, hstate, hle, hfold⟩
      · exact hinit (some stored) (decodeSnapshot_undecodable hun)
      · refine .inl ⟨⟨id, state, stored.nextSeqNo⟩, ?_, rfl, hle, hfold⟩
        simp [seedOf, decodeSnapshot, hdec, hstate, catchAndLog]

/-- **Recovery returns the fold of the whole stream and its length**, from whatever sound
snapshot it starts. -/
theorem recover_eq {s : InMemoryStore I} {id : I} (hnum : Numbered (s.streams id))
    (hfits : (s.streams id).length < 2 ^ 64) (hsound : SoundSnapshot A s id) {fuel : ℕ}
    (hfuel : (s.streams id).length / replayPageLimit < fuel) :
    recover A s id fuel =
      some ((A.stateAfter id (s.streams id)).map fun state =>
        ⟨id, state, SeqNo.new (s.streams id).length⟩) := by
  have heval : (recoverSeed A).eval (storeAnswers A s id) = some (seedOf A id (s.load id)) := rfl
  rw [recover, heval]
  rcases seedOf_sound hsound with ⟨r, hr, hid, hle, hfold⟩ | ⟨hr, hinit⟩
  · rw [hr]
    dsimp only
    have hlt : ((s.streams id).length - r.nextSeqNo.toNat) / replayPageLimit < fuel :=
      lt_of_le_of_lt (Nat.div_le_div_right (Nat.sub_le _ _)) hfuel
    rw [recoverLoop_eq hnum hfits hid hle hlt]
    conv_rhs => rw [← List.take_append_drop r.nextSeqNo.toNat (s.streams id)]
    rw [EventSourced.stateAfter_append, hfold, List.take_append_drop]
    rfl
  · rw [hr]
    simp [EventSourced.stateAfter, hinit]

/-! ### Stores recovery is compared over -/

namespace InMemoryStore

variable [DecidableEq I]

/-- The store as it would be if nothing had been stored from position `n` on: no later event,
and no snapshot covering one. -/
def cutAt (s : InMemoryStore I) (id : I) (n : SeqNo) : InMemoryStore I where
  streams := Function.update s.streams id ((s.streams id).take n.toNat)
  snapshots := Function.update s.snapshots id
    ((s.snapshots id).filter fun stored => stored.nextSeqNo.toNat ≤ n.toNat)

/-- The store with another snapshot. -/
def withSnapshot (s : InMemoryStore I) (id : I) (stored : StoredSnapshot) : InMemoryStore I :=
  { s with snapshots := Function.update s.snapshots id (some stored) }

omit [DecidableEq I] in
/-- The store next to `NoSnapshots`: the same events, and nothing ever loaded. -/
def noSnapshots (s : InMemoryStore I) : InMemoryStore I := { s with snapshots := fun _ => none }

@[simp] lemma cutAt_streams (s : InMemoryStore I) (id : I) (n : SeqNo) :
    (s.cutAt id n).streams id = (s.streams id).take n.toNat := by
  simp [cutAt]

end InMemoryStore

/-- Cutting a store at a position keeps its snapshots sound. -/
lemma SoundSnapshot.cutAt [DecidableEq I] {s : InMemoryStore I} {id : I} {n : SeqNo}
    (h : SoundSnapshot A s id) (hn : n.toNat ≤ (s.streams id).length) :
    SoundSnapshot A (s.cutAt id n) id := by
  intro stored hs
  simp only [InMemoryStore.cutAt, Function.update_self, Option.filter_eq_some_iff,
    decide_eq_true_eq] at hs
  obtain ⟨hs, hpos⟩ := hs
  rcases h stored hs with hun | ⟨decoded, state, hdec, hinit, -, hfold⟩
  · exact .inl hun
  · refine .inr ⟨decoded, state, hdec, hinit, ?_, ?_⟩
    · rw [InMemoryStore.cutAt_streams, List.length_take]
      omega
    · rw [InMemoryStore.cutAt_streams, List.take_take, Nat.min_eq_left hpos]
      exact hfold

end Tellus
