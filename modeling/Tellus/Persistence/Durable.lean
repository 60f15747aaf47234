import Mathlib.Tactic
import Tellus.Persistence.Calls
import Tellus.Persistence.Incarnations
import Tellus.Persistence.Settlement

/-!
What a continuation is shown is durable.

`Effect::then` promises its continuation a state whose events are stored (`persistence/effect.rs`).
The contract `telling` is the one of `writers`, with this owed before every continuation; the
blocks of the run loop which run no continuation keep it because they keep that one.

* `Holds`: the stream has the events of a decision right after the events it was taken on.
* `Told`: what is owed to a continuation.
* `settle_tells`, `code_tells`: settlement and the run loop owe nothing.
* `told_is_durable`: every continuation of every run.
-/

namespace Tellus

open Concurrent

variable {I : Type} {A : EventSourced I} {ι : Type}

/-! ### What is owed -/

/-- The stream has the given events from position `next` on. -/
def Holds (s : Shared A ι) (id : I) (next : SeqNo) (events : List A.Event) : Prop :=
  next.toNat + events.length ≤ (s.stream id).length ∧
    ((((s.stream id).drop next.toNat).take events.length).map StoredEvent.event).mapM A.decoded =
      some events

section Contract

variable (A) (ident : ι → I)

/-- A decision of incarnation `i`, taken on the state of the events before `next`, is stored, and
`state` is the one after its events. -/
def Stored (i : ι) (s : Shared A ι) (next : SeqNo) (effect : Effect A) (state : A.State) : Prop :=
  (∃ before, s.decisions[s.latest i]? = some ⟨ident i, before, effect⟩ ∧
    FoldsTo s (ident i) next before) ∧
    Holds s (ident i) next effect.events ∧
    FoldsTo s (ident i) (next.advancedBy effect.events.length) state

/-- What is owed before a continuation is run on a state. -/
def Told (i : ι) (s : Shared A ι) (t : A.Then) (state : A.State) : Prop :=
  ∃ next effect, t ∈ effect.thens ∧ Stored A ident i s next effect state

/-- What is owed before an operation. -/
def Tells (i : ι) (s : Shared A ι) : Op A → Prop
  | .continuation t state => Told A ident i s t state
  | _ => True

variable (late foreign : Prop) [DecidableEq I] [DecidableEq ι]

/-- The contract between the incarnations, with what is owed to continuations. -/
def telling : Contract ι (Op A) Op.Ans (Shared A ι) :=
  (writers A ident late foreign False).owing fun i s op =>
    Owes A ident False i s op ∧ Tells A ident i s op

end Contract

/-! ### Programs which run no continuation -/

/-- The operation is no continuation. -/
def Mute : Op A → Prop
  | .continuation _ _ => False
  | _ => True

/-- The program runs no continuation. -/
abbrev Muted {α : Type} (p : Task A α) : Prop := p.Ends Mute (fun _ _ => True) fun _ => True

/-- A program of other stages. -/
lemma Within.muted {α : Type} {stages : Stage → Prop} {p : Task A α} (h : Within stages p)
    (hstages : ¬stages .continuing) : Muted p := by
  refine h.mono fun op hop => ?_
  cases op with
  | continuation t state => exact hstages hop
  | _ => trivial

lemma muted_code {pt : Point A} (hpt : ∀ r, pt ≠ .running r) : Muted (code A pt) := by
  refine (within_code pt).muted ?_
  cases pt with
  | running r => exact absurd rfl (hpt r)
  | _ => simp [Point.stages]

variable [DecidableEq I] [DecidableEq ι] {ident : ι → I} {late foreign : Prop} {i : ι}
  {s s' : Shared A ι}

omit [DecidableEq I] [DecidableEq ι] in
lemma Grows.holds (h : Grows s s') {id : I} {next : SeqNo} {events : List A.Event}
    (hs : Holds s id next events) : Holds s' id next events := by
  obtain ⟨hlen, hevents⟩ := hs
  obtain ⟨rest, hrest⟩ := h.stream id
  have hle := (h.stream id).length_le
  refine ⟨hlen.trans hle, ?_⟩
  rw [← hrest, List.drop_append_of_le_length (by omega),
    List.take_append_of_le_length (by rw [List.length_drop]; omega)]
  exact hevents

/-- The two contracts allow the others the same. -/
lemma stable_telling {P : Shared A ι → Prop}
    (hP : Stable (writers A ident late foreign False) i P) :
    Stable (telling A ident late foreign) i P := hP

/-- What has been stored stays so. -/
lemma stable_stored (next : SeqNo) (effect : Effect A) (state : A.State) :
    Stable (writers A ident late foreign False) i fun s =>
      Stored A ident i s next effect state := by
  rintro t t' ⟨⟨before, hdec, hbefore⟩, hholds, hafter⟩ hr -
  refine ⟨⟨before, ?_, hr.1.foldsTo hbefore⟩, hr.1.holds hholds, hr.1.foldsTo hafter⟩
  rw [hr.2.1]
  exact hr.1.getElem? hdec

/-- Such a program keeps the contract. -/
lemma Muted.tells {α : Type} {p : Task A α} {post : Shared A ι → α → Prop} (hp : Muted p)
    (h : Safe (writers A ident late foreign False) i post p s) :
    Safe (telling A ident late foreign) i post p s := by
  refine h.owing hp fun s op hop howes => ⟨howes, ?_⟩
  cases op with
  | continuation => exact hop.elim
  | _ => trivial

/-! ### Settlement -/

/-- The events of a decision are stored where it was taken. -/
lemma persist_stores {before : A.State} {next : SeqNo} {effect : Effect A}
    (hne : effect.events ≠ []) (hd : Decided A ident False i s ⟨ident i, before, next⟩ effect) :
    Safe (writers A ident late foreign False) i
      (fun s x => ∀ p ∈ x, p.2 = next.advancedBy effect.events.length ∧
        Stored A ident i s next effect p.1)
      (persist A (ident i) before next effect.events) s := by
  refine Safe.bind (encodeEvents_safe (stable_decided ⟨ident i, before, next⟩ effect)
    effect.events hd) fun t x hi h => ?_
  obtain ⟨hd, hes⟩ := h
  cases x with
  | none => exact safe_none
  | some encoded =>
      have hdec := hes encoded rfl
      have hlen : encoded.length = effect.events.length := EventSourced.length_of_decoded hdec
      have hnonempty : encoded ≠ [] := by
        rintro rfl
        exact hne (List.length_eq_zero_iff.mp hlen.symm)
      refine safe_call (.append (ident i) next encoded) (stable_decided _ effect) hd
        fun t hi hd => ?_
      obtain ⟨⟨⟨-, hbefore⟩, -⟩, hlatest, hland⟩ := hd
      have hmay : MayAppend t (ident i) next encoded (t.latest i) :=
        ⟨hnonempty, ⟨_, hlatest, rfl, hbefore, hdec⟩, hland⟩
      refine ⟨⟨rfl, hmay, False.elim⟩, fun x t' hx hi' => ?_⟩
      cases x with
      | err e => exact safe_none
      | panic => exact safe_none
      | ok a =>
          cases hx with
          | appendFails _ _ _ h => cases h
          | appendLate hl _ _ _ h => cases h
          | @appendLands _ _ _ store happend hfits _ =>
              show Safe _ i _ (.ret ((applyEvents A (ident i) before effect.events).map _)) _
              cases happ : applyEvents A (ident i) before effect.events with
              | none => exact safe_none
              | some state =>
                  have hgrows := hi.grows_land happend hnonempty (t.latest i)
                  obtain ⟨hnext, -, hself, -⟩ := hi.append_ok happend
                  have hholds : Holds (t.land (ident i) (t.latest i) store) (ident i) next
                      effect.events := by
                    have hstream : (t.land (ident i) (t.latest i) store).stream (ident i) =
                        t.stream (ident i) ++ InMemoryStore.stored next encoded := hself
                    refine ⟨?_, ?_⟩
                    · rw [hstream, List.length_append, InMemoryStore.stored_length, hlen, hnext]
                    · rw [hstream, hnext, List.drop_left, ← hlen,
                        ← InMemoryStore.stored_length next encoded, List.take_length,
                        InMemoryStore.stored_map_event]
                      exact hdec
                  have hstored : Stored A ident i (t.land (ident i) (t.latest i) store) next
                      effect state :=
                    ⟨⟨before, hlatest, hgrows.foldsTo hbefore⟩, hholds,
                      (foldsTo_land hi hbefore hdec happend hfits happ).1⟩
                  refine Safe.ret_of (stable_stored next effect state) hstored
                    fun t'' _ h p hp => ?_
                  cases hp
                  exact ⟨rfl, h⟩

/-- Every continuation is shown the state. -/
lemma runThens_tells {next : SeqNo} {effect : Effect A} {state : A.State} {thens : List A.Then}
    (hthens : ∀ t ∈ thens, t ∈ effect.thens) (hs : Stored A ident i s next effect state) :
    Safe (telling A ident late foreign) i (fun s _ => Stored A ident i s next effect state)
      (runThens A state thens) s := by
  have hstable : Stable (telling A ident late foreign) i
      fun s => Stored A ident i s next effect state :=
    stable_telling (stable_stored next effect state)
  induction thens generalizing s with
  | nil => exact Safe.ret_of hstable hs fun _ _ h => h
  | cons t thens ih =>
      refine Safe.call_of hstable hs fun u hi hu =>
        ⟨⟨trivial, next, effect, hthens t List.mem_cons_self, hu⟩, fun x u' hx hi' => ?_⟩
      obtain rfl : u' = u := Exec.quiet (.continuation t state) trivial hx
      cases x with
      | ok a => exact ih (fun t ht => hthens t (List.mem_cons_of_mem _ ht)) hu
      | err e => exact nomatch e
      | panic => exact Safe.ret_of hstable hu fun _ _ h => h

/-- The latest decision, settled. -/
lemma settle_tells {before : A.State} {next : SeqNo} {effect : Effect A}
    (hd : Decided A ident False i s ⟨ident i, before, next⟩ effect) :
    Safe (telling A ident late foreign) i
      (fun s x => ∀ settled ∈ x,
        AtEnd A ident False i s ⟨ident i, settled.state, settled.nextSeqNo⟩)
      (settle A (ident i) before next effect) s := by
  have hpersist : Safe (telling A ident late foreign) i
      (fun s x => ∀ p ∈ x, p.2 = next.advancedBy effect.events.length ∧
        Stored A ident i s next effect p.1)
      (if !effect.events.isEmpty then persist A (ident i) before next effect.events
        else return some (before, next)) s := by
    split
    · rename_i h
      exact ((within_persist _ _ _ _).muted (by simp)).tells (persist_stores (by simpa using h) hd)
    · rename_i h
      have hnil : effect.events = [] := by simpa using h
      obtain ⟨⟨⟨-, hbefore⟩, -⟩, hlatest, -⟩ := hd
      have hsame : next.advancedBy effect.events.length = next := by
        rw [hnil]
        exact SeqNo.advancedBy_zero next
      have hstored : Stored A ident i s next effect before := by
        refine ⟨⟨before, hlatest, hbefore⟩, ⟨?_, by simp [hnil]⟩, hsame.symm ▸ hbefore⟩
        rw [hnil]
        exact hbefore.1
      refine Safe.ret_of (stable_telling (stable_stored next effect before)) hstored
        fun t _ h p hp => ?_
      cases hp
      exact ⟨hsame.symm, h⟩
  refine Safe.bind hpersist fun t x hi hx => ?_
  cases x with
  | none => exact fun _ _ _ settled hs => by cases hs
  | some p =>
      obtain ⟨state, next'⟩ := p
      obtain ⟨rfl, hstored⟩ := hx _ rfl
      refine Safe.bind (runThens_tells (fun _ ht => ht) hstored) fun t b hi hstored => ?_
      cases b with
      | false => exact fun _ _ _ settled hs => by cases hs
      | true =>
          have hat : AtEnd A ident False i t
              ⟨ident i, state, next.advancedBy effect.events.length⟩ :=
            ⟨⟨rfl, hstored.2.2⟩, False.elim⟩
          have hdone : ∀ t, AtEnd A ident False i t
                ⟨ident i, state, next.advancedBy effect.events.length⟩ →
              Safe (telling A ident late foreign) i
                (fun s x => ∀ settled ∈ x,
                  AtEnd A ident False i s ⟨ident i, settled.state, settled.nextSeqNo⟩)
                (.ret (some ⟨state, next.advancedBy effect.events.length, effect.stop⟩) :
                  Task A (Option (Settled A))) t := by
            intro t hat
            refine Safe.ret_of (stable_telling (stable_atEnd _)) hat fun _ _ h settled hs => ?_
            cases hs
            exact h
          dsimp only
          split
          · exact Safe.bind (((within_saveSnapshot _ _ _).muted (by simp)).tells (saveSnapshot_safe hat))
              fun t _ hi hat => hdone t hat
          · exact hdone t hat

/-! ### The run loop -/

/-- **Every block of the run loop** owes its continuations nothing. -/
lemma code_tells (pt : Point A) (hpt : PointOk A ident False i s pt) :
    Safe (telling A ident late foreign) i (PointOk A ident False i) (code A pt) s := by
  cases pt with
  | running r =>
      obtain ⟨id, before, next⟩ := r
      obtain rfl : id = ident i := hpt.1.1
      have hstable : Stable (telling A ident late foreign) i
          fun s => AtEnd A ident False i s ⟨ident i, before, next⟩ :=
        stable_telling (stable_atEnd _)
      refine Safe.call_of hstable hpt fun t hi hat => ⟨⟨hat, trivial⟩, fun x t' hx hi' => ?_⟩
      obtain rfl : t' = t := by
        cases hx
        rfl
      cases x with
      | none => exact fun _ _ _ => trivial
      | some incoming =>
          refine Safe.call_of hstable hat fun t hi hat =>
            ⟨⟨trivial, trivial⟩, fun x t' hx hi' => ?_⟩
          cases hx with
          | handleFails _ _ h =>
              cases x with
              | ok a => cases h
              | err e => exact fun _ _ _ => trivial
              | panic => exact fun _ _ _ => trivial
          | handle _ _ effect =>
              have hd : Decided A ident False i (t.decide i ⟨ident i, before, effect⟩)
                  ⟨ident i, before, next⟩ effect := by
                refine ⟨hat, by simp [Shared.decide], fun hl => ?_⟩
                have := hi.known (ident i) _ hl
                simp [Shared.decide] at this
              show Safe _ i _ ((settle A (ident i) before next effect).bind _) _
              refine Safe.bind (settle_tells hd) fun t x hi h => ?_
              cases x with
              | none => exact fun _ _ _ => trivial
              | some settled =>
                  dsimp only
                  split
                  · exact fun _ _ _ => trivial
                  · exact Safe.ret_of (stable_telling (stable_atEnd _)) (h settled rfl)
                      fun _ _ h => h
  | _ => exact (muted_code (by simp)).tells (code_safe _ hpt)

/-! ### Every run -/

section Runs

variable {st : Tasks ι (Op A) Op.Ans (Shared A ι) (Point A)}

/-- In every reachable state the invariant holds and every incarnation owes nothing. -/
lemma Reachable.tells (h : Reachable A ident late foreign st) :
    Tasks.Good (telling A ident late foreign) (PointOk A ident False) st := by
  refine Tasks.invariant (C := telling A ident late foreign) (fun i s pt _ hpt => ?_)
    (fun i s op x s' hi hpre hx => ?_) (fun s s' hi he => ?_) ?_ h
  · exact code_tells pt hpt
  · obtain ⟨hinv, hg, hlatest, -⟩ := exec_keeps hi hpre.1 hx
    exact ⟨hinv, fun j hj => ⟨hg, hlatest j hj, False.elim⟩⟩
  · obtain ⟨hinv, hg, hlatest⟩ := env_keeps hi he
    exact ⟨hinv, fun j => ⟨hg, hlatest j, False.elim⟩⟩
  · exact ⟨Inv.init, fun i t _ _ => trivial⟩

/-- **What a continuation is shown is durable.**  Whatever the incarnations of an ID and other
writers do: when a continuation is run, it belongs to its incarnation's latest decision, which was
taken on the fold of exactly the events before some position; the stream has all events of that
decision from this position on, and keeps them; and the state shown is the fold of the events up
to and including them. -/
theorem told_is_durable (h : Reachable A ident late foreign st) {i : ι} {t : A.Then}
    {state : A.State} {k : Outcome Empty Unit → Task A (Point A)}
    (hrun : st.task i = .call (.continuation t state) k) :
    ∃ next before effect,
      st.shared.decisions[st.shared.latest i]? = some ⟨ident i, before, effect⟩ ∧
      t ∈ effect.thens ∧
      FoldsTo st.shared (ident i) next before ∧
      FoldsTo st.shared (ident i) (next.advancedBy effect.events.length) state ∧
      ∀ st', Incarnations.Steps A ident late foreign st st' →
        Holds st'.shared (ident i) next effect.events := by
  obtain ⟨hinv, hsafe⟩ := h.tells
  have hi := hsafe i
  rw [hrun] at hi
  obtain ⟨-, next, effect, ht, ⟨before, hdec, hbefore⟩, hholds, hafter⟩ := hi.pre hinv
  exact ⟨next, before, effect, hdec, ht, hbefore, hafter, fun st' h' => (h.grows h').holds hholds⟩

end Runs

/-! ### A tally -/

open Settling (tally)

/-- The tally's first command has been decided. -/
def tallyDecided : Shared tally Unit := Shared.init.decide () ⟨(), (0 : ℕ), ⟨[()], false, [()]⟩⟩

/-- Its event has been stored. -/
def tallyLanded : Shared tally Unit :=
  tallyDecided.land () 0
    { tallyDecided.store with
      streams := Function.update (fun _ => []) () (InMemoryStore.stored SeqNo.zero [counted]) }

/-- A run of the tally up to the continuation of its first command. -/
lemma tally_run : ∃ k, Reachable tally (fun _ : Unit => ()) False False
    (.solo tallyLanded (.call (.continuation () (1 : ℕ)) k)) := by
  have hread : Exec (fun _ : Unit => ()) False () (Shared.init : Shared tally Unit)
      (.read () SeqNo.zero replayPageLimit) (.ok []) Shared.init :=
    .read () SeqNo.zero replayPageLimit
  have hevent : Exec (fun _ : Unit => ()) False () tallyDecided (.encodeEvent ()) (.ok [])
      tallyDecided := .encodeEvent rfl
  have hland : Exec (fun _ : Unit => ()) False () tallyDecided
      (.append () SeqNo.zero [counted]) (.ok ()) tallyLanded :=
    .appendLands rfl (by show 1 ≤ vecMax; norm_num [vecMax])
  have h : Reachable tally (fun _ : Unit => ()) False False (.solo Shared.init (.ret .run)) :=
    .refl
  have h := Tasks.solo_jump h
  have h := Tasks.solo_answer h (.stoppedByParent false)
  have h := Tasks.solo_answer h .persistenceId
  have h := Tasks.solo_answer h (.stoppedByParent false)
  have h := Tasks.solo_answer h (.load ())
  have h := Tasks.solo_answer h (.stoppedByParent false)
  have h := Tasks.solo_jump h
  have h := Tasks.solo_answer h (.stoppedByParent false)
  have h := Tasks.solo_answer h hread
  have h := Tasks.solo_answer h (.stoppedByParent false)
  have h := Tasks.solo_jump h
  have h := Tasks.solo_answer h (.recovered _)
  have h := Tasks.solo_jump h
  have h := Tasks.solo_answer h (.nextIncoming _ (some (.message ())))
  have h := Tasks.solo_answer h (.handle _ _ ⟨[()], false, [()]⟩)
  have h := Tasks.solo_answer h hevent
  have h := Tasks.solo_answer h hland
  exact ⟨_, h⟩

/-- The continuation is shown the state of the event which is stored. -/
theorem told_is_durable_tally :
    ∃ next before effect,
      tallyLanded.decisions[tallyLanded.latest ()]? = some ⟨(), before, effect⟩ ∧
      FoldsTo tallyLanded () next before ∧
      FoldsTo tallyLanded () (next.advancedBy effect.events.length) (1 : ℕ) ∧
      Holds tallyLanded () next effect.events := by
  obtain ⟨k, h⟩ := tally_run
  obtain ⟨next, before, effect, hdec, -, hbefore, hafter, hholds⟩ :=
    told_is_durable h (i := ()) rfl
  exact ⟨next, before, effect, hdec, hbefore, hafter, hholds _ .refl⟩

end Tellus
