import Mathlib.Tactic
import Tellus.Persistence.Calls
import Tellus.Persistence.Incarnations

/-!
Schema evolution: new code over an old store (`persistence/versioned.rs`, `docs/persistence.md`).

A deployment ends the incarnations of the old code wherever they are and begins those of the new
code on the same store, which is never rewritten.  Appends and saves of the old code may still
arrive.  The new code upcasts the old events; a snapshot which it does not decode is discarded.

* `Upgrade`: what the new code owes to the old one.
* `Shared.readable`: the store as the code sees it, without snapshots which do not decode.
* `Upgrade.inv`: what the old code has left keeps the invariant, read by the new code.
* `evolving`, `code_evolves`: the incarnations' contract, of what is readable only.
* `Deployed`, `Deployed.evolves`: any number of deployments.
* `upgrades_carry_state`: the new code goes on where the old one was.
-/

namespace Tellus

open Concurrent

variable {I : Type} {A B : EventSourced I} {ι : Type}

/-! ### Upgrades -/

/-- What new code `B` owes to old code `A`: it upcasts the old events, and its own state follows
from the old one. -/
structure Upgrade (A B : EventSourced I) where
  event : A.Event → B.Event
  state : A.State → B.State
  upcast : ∀ e event', A.decoded e = some event' → B.decoded e = some (event event')
  init : ∀ id a, A.init id = .ok a → B.init id = .ok (state a)
  apply : ∀ id a event' a', A.apply id a event' = some a' →
    B.apply id (state a) (event event') = some (state a')

namespace Upgrade

variable (U : Upgrade A B) {id : I}

lemma mapM_decoded {es : List EncodedEvent} {events : List A.Event}
    (h : es.mapM A.decoded = some events) : es.mapM B.decoded = some (events.map U.event) := by
  induction es generalizing events with
  | nil =>
      cases h
      rfl
  | cons e es ih =>
      simp only [List.mapM_cons, Option.pure_def, Option.bind_eq_bind, Option.bind_eq_some_iff,
        Option.some.injEq] at h ⊢
      obtain ⟨event', he, rest, hrest, rfl⟩ := h
      exact ⟨_, U.upcast e event' he, _, ih hrest, rfl⟩

lemma applyEvents {events : List A.Event} {a a' : A.State}
    (h : applyEvents A id a events = some a') :
    Tellus.applyEvents B id (U.state a) (events.map U.event) = some (U.state a') := by
  induction events generalizing a with
  | nil =>
      cases h
      rfl
  | cons event' events ih =>
      obtain ⟨a'', ha, hrest⟩ := Option.bind_eq_some_iff.mp h
      exact Option.bind_eq_some_iff.mpr ⟨_, U.apply id a event' a'' ha, ih hrest⟩

lemma replay {es : List EncodedEvent} {a a' : A.State} (h : A.replay id a es = some a') :
    B.replay id (U.state a) es = some (U.state a') := by
  induction es generalizing a with
  | nil =>
      cases h
      rfl
  | cons e es ih =>
      rw [EventSourced.replay_cons, Option.bind_eq_some_iff] at h
      obtain ⟨a'', hevolve, hrest⟩ := h
      obtain ⟨event', he, happly⟩ := Option.bind_eq_some_iff.mp hevolve
      rw [EventSourced.replay_cons, EventSourced.evolve, U.upcast e event' he, Option.bind_some,
        U.apply id a event' a'' happly]
      exact ih hrest

/-- What a stream stands for follows the upgrade. -/
lemma stateAfter {stream : List StoredEvent} {a : A.State}
    (h : A.stateAfter id stream = some a) : B.stateAfter id stream = some (U.state a) := by
  obtain ⟨seed, hseed, hrest⟩ := Option.bind_eq_some_iff.mp h
  have hinit := U.init id seed (catchAndLog_eq_some.mp hseed)
  exact Option.bind_eq_some_iff.mpr ⟨_, catchAndLog_eq_some.mpr hinit, U.replay hrest⟩

/-- From the end of the old stream on, the new code goes on where the old one was. -/
lemma replay_since {stream stream' : List StoredEvent} {n : ℕ} {a : A.State} {b : B.State}
    (hgrown : stream <+: stream') (ha : A.stateAfter id stream = some a)
    (hn : stream.length ≤ n) (hb : B.stateAfter id (stream'.take n) = some b) :
    B.replay id (U.state a) (((stream'.take n).drop stream.length).map StoredEvent.event) =
      some b := by
  have hold : (stream'.take n).take stream.length = stream := by
    obtain ⟨rest, rfl⟩ := hgrown
    rw [List.take_take, Nat.min_eq_left hn, List.take_left]
  rw [← List.take_append_drop stream.length (stream'.take n), hold,
    EventSourced.stateAfter_append, U.stateAfter ha, Option.bind_some] at hb
  exact hb

/-- A decision of the old code, as the new code sees it. -/
def decision (d : Decision A) : Decision B :=
  ⟨d.id, U.state d.state, ⟨d.effect.events.map U.event, d.effect.stop, []⟩⟩

/-- What the old code leaves behind. -/
def shared (s : Shared A ι) : Shared B ι where
  store := s.store
  lateAppends := s.lateAppends
  lateSaves := s.lateSaves
  decisions := s.decisions.map U.decision
  latest := s.latest
  landed := s.landed

lemma eventsOf (s : Shared A ι) (d : ℕ) :
    (U.shared s).eventsOf d = (s.eventsOf d).map U.event := by
  simp only [Shared.eventsOf, shared, List.getElem?_map]
  cases s.decisions[d]? <;> rfl

lemma flatMap_eventsOf (s : Shared A ι) (ds : List ℕ) :
    ds.flatMap (U.shared s).eventsOf = (ds.flatMap s.eventsOf).map U.event := by
  rw [List.map_flatMap]
  exact congrArg ds.flatMap (funext (U.eventsOf s))

lemma foldsTo {s : Shared A ι} {next : SeqNo} {a : A.State} (h : FoldsTo s id next a) :
    FoldsTo (U.shared s) id next (U.state a) :=
  ⟨h.1, U.stateAfter h.2⟩

lemma mayAppend {s : Shared A ι} {next : SeqNo} {events : List EncodedEvent} {d : ℕ}
    (h : MayAppend s id next events d) : MayAppend (U.shared s) id next events d := by
  obtain ⟨hne, ⟨dec, hdec, hid, hfolds, hevents⟩, hlanded⟩ := h
  refine ⟨hne, ⟨U.decision dec, ?_, hid, U.foldsTo hfolds, U.mapM_decoded hevents⟩, hlanded⟩
  simp only [shared, List.getElem?_map, hdec, Option.map_some]

lemma serialised {s : Shared A ι} (h : Serialised s id) : Serialised (U.shared s) id where
  nodup := h.nodup
  whole := by
    rw [U.flatMap_eventsOf]
    exact U.mapM_decoded h.whole
  fresh := by
    intro before d after hsplit
    obtain ⟨seed, dec, hseed, hdec, hid, hstate⟩ := h.fresh before d after hsplit
    refine ⟨U.state seed, U.decision dec, U.init id seed hseed, ?_, hid, ?_⟩
    · simp only [shared, List.getElem?_map, hdec, Option.map_some]
    · rw [U.flatMap_eventsOf]
      exact U.applyEvents hstate

end Upgrade

/-! ### What is readable -/

/-- The snapshot decodes. -/
def EventSourced.reads (A : EventSourced I) (snapshot : EncodedSnapshot) : Bool :=
  (catchAndLog (decodeVersioned A.snapshot snapshot.manifest snapshot.schemaVersion
    snapshot.payload)).isSome

lemma EventSourced.reads_iff {snapshot : EncodedSnapshot} : A.reads snapshot = true ↔
    ∃ decoded, decodeVersioned A.snapshot snapshot.manifest snapshot.schemaVersion
      snapshot.payload = .ok decoded := by
  simp only [reads, Option.isSome_iff_exists, catchAndLog_eq_some]

/-- The store without snapshots which do not decode. -/
def InMemoryStore.readable (A : EventSourced I) (s : InMemoryStore I) : InMemoryStore I :=
  { s with snapshots := fun id => (s.snapshots id).filter fun stored => A.reads stored.snapshot }

namespace Shared

/-- What the code can read of what is shared. -/
def readable (s : Shared A ι) : Shared A ι :=
  { s with
    store := s.store.readable A
    lateSaves := s.lateSaves.filter fun v => A.reads v.snapshot }

variable {s : Shared A ι} {id : I}

lemma readable_snapshots {stored : StoredSnapshot} :
    s.readable.store.snapshots id = some stored ↔
      s.store.snapshots id = some stored ∧ A.reads stored.snapshot = true :=
  Option.filter_eq_some_iff

lemma mem_readable_lateSaves {v : LateSave I} :
    v ∈ s.readable.lateSaves ↔ v ∈ s.lateSaves ∧ A.reads v.snapshot = true :=
  List.mem_filter

/-- Recovery starts as it would from what is readable. -/
lemma seedOf_readable (s : Shared A ι) (id : I) :
    seedOf A id (s.store.load id) = seedOf A id (s.readable.store.load id) := by
  have hdecode : decodeSnapshot A (s.store.load id) =
      decodeSnapshot A (s.readable.store.load id) := by
    show decodeSnapshot A (s.store.snapshots id) =
      decodeSnapshot A ((s.store.snapshots id).filter fun stored => A.reads stored.snapshot)
    cases s.store.snapshots id with
    | none => rfl
    | some stored =>
        cases hreads : A.reads stored.snapshot with
        | true => simp only [Option.filter, hreads, if_true]
        | false =>
            rw [decodeSnapshot_undecodable fun decoded hdec => ?_]
            · simp [Option.filter, hreads, decodeSnapshot]
            · rw [EventSourced.reads_iff.mpr ⟨decoded, hdec⟩] at hreads
              cases hreads
  rw [seedOf, seedOf, hdecode]

end Shared

lemma Covers.reads {s : Shared A ι} {id : I} {next : SeqNo} {snapshot : EncodedSnapshot}
    (h : Covers s id next snapshot) : A.reads snapshot = true := by
  obtain ⟨decoded, -, hdec, -⟩ := h
  exact EventSourced.reads_iff.mpr ⟨decoded, hdec⟩

/-! ### The invariant across an upgrade -/

/-- The new code does not decode the snapshot, or it does so as the old code and comes to a
state which follows from the old one. -/
def Upgrade.Agrees (U : Upgrade A B) (snapshot : EncodedSnapshot) : Prop :=
  ∀ decoded, decodeVersioned B.snapshot snapshot.manifest snapshot.schemaVersion
      snapshot.payload = .ok decoded →
    ∃ old, decodeVersioned A.snapshot snapshot.manifest snapshot.schemaVersion
        snapshot.payload = .ok old ∧
      ∀ id a, A.initFromSnapshot id old = .ok a →
        B.initFromSnapshot id decoded = .ok (U.state a)

namespace Upgrade

variable {U : Upgrade A B} {s : Shared A ι} {id : I} {foreign : Prop}

/-- A snapshot which the old code reads stands for the same events, read by the new code. -/
lemma covers {next : SeqNo} {snapshot : EncodedSnapshot} (hagrees : U.Agrees snapshot)
    (hcovers : A.reads snapshot = true → Covers s.readable id next snapshot)
    (hreads : B.reads snapshot = true) : Covers (U.shared s).readable id next snapshot := by
  obtain ⟨decoded, hdec⟩ := EventSourced.reads_iff.mp hreads
  obtain ⟨old, hold, hstate⟩ := hagrees decoded hdec
  obtain ⟨old', a, hold', hinit, hfolds⟩ := hcovers (EventSourced.reads_iff.mpr ⟨old, hold⟩)
  cases hold.symm.trans hold'
  exact ⟨decoded, U.state a, hdec, hstate id a hinit, U.foldsTo hfolds⟩

/-- **What the old code leaves behind** keeps the invariant, read by the new code. -/
lemma inv (hstored : ∀ id stored, s.store.snapshots id = some stored → U.Agrees stored.snapshot)
    (hlate : ∀ v ∈ s.lateSaves, U.Agrees v.snapshot) (h : Inv foreign s.readable) :
    Inv foreign (U.shared s).readable where
  numbered := h.numbered
  fits := h.fits
  known := fun id d hd => by
    show d < (s.decisions.map U.decision).length
    rw [List.length_map]
    exact h.known id d hd
  serial := by
    intro hf id
    have hserial := U.serialised (h.serial hf id)
    exact ⟨hserial.nodup, hserial.whole, hserial.fresh⟩
  snapshots := by
    intro id stored hload
    obtain ⟨hsnap, hreads⟩ := Shared.readable_snapshots.mp hload
    exact covers (hstored id stored hsnap)
      (fun hold => h.snapshots id stored (Shared.readable_snapshots.mpr ⟨hsnap, hold⟩)) hreads
  lateAppends := fun a ha => U.mayAppend (h.lateAppends a ha)
  lateSaves := by
    intro v hv
    obtain ⟨hv, hreads⟩ := Shared.mem_readable_lateSaves.mp hv
    exact covers (hlate v hv)
      (fun hold => h.lateSaves v (Shared.mem_readable_lateSaves.mpr ⟨hv, hold⟩)) hreads

end Upgrade

/-! ### Steps, and what is readable -/

section Steps

variable [DecidableEq I] {s s' : Shared A ι} {foreign : Prop}

lemma InMemoryStore.append_readable {s store : InMemoryStore I} {id : I} {next : SeqNo}
    {events : List EncodedEvent} (h : s.append id next events = (.ok (), store)) :
    (s.readable A).append id next events = (.ok (), store.readable A) := by
  unfold InMemoryStore.append at h ⊢
  split at h
  · cases h
  · rename_i hnext
    rw [if_neg (show ¬SeqNo.new ((s.readable A).streams id).length ≠ next from hnext)]
    cases h
    rfl

lemma InMemoryStore.append_conflict_readable {s : InMemoryStore I} {id : I} {next : SeqNo}
    {events : List EncodedEvent} (h : s.append id next events = (.error .conflict, s)) :
    (s.readable A).append id next events = (.error .conflict, s.readable A) := by
  unfold InMemoryStore.append at h ⊢
  split at h
  · rename_i hnext
    rw [if_pos (show SeqNo.new ((s.readable A).streams id).length ≠ next from hnext)]
  · cases h

lemma InMemoryStore.save_readable (s : InMemoryStore I) (id : I) (next : SeqNo)
    {snapshot : EncodedSnapshot} (hreads : A.reads snapshot = true) :
    (s.save id next snapshot).readable A = (s.readable A).save id next snapshot := by
  unfold InMemoryStore.readable InMemoryStore.save
  congr 1
  funext id'
  dsimp only
  by_cases hid : id' = id
  · subst hid
    simp [Option.filter, hreads]
  · rw [Function.update_of_ne hid, Function.update_of_ne hid]

/-- A step from outside keeps the invariant of what is readable; a save which does not decode
takes the readable snapshot away. -/
lemma env_readable (h : Inv foreign s.readable) (he : Env foreign s s') :
    Inv foreign s'.readable ∧ Grows s.readable s'.readable ∧
      ∀ j, s'.latest j = s.latest j := by
  cases he with
  | @lateAppend a ha store happ hfits =>
      have happ := InMemoryStore.append_readable (A := A) happ
      exact env_keeps h (.lateAppend (s := s.readable) ha happ hfits)
  | @lateSave v hv =>
      by_cases hreads : A.reads v.snapshot = true
      · have hsave := s.store.save_readable v.id v.next hreads
        have hkeeps := env_keeps h (.lateSave (Shared.mem_readable_lateSaves.mpr ⟨hv, hreads⟩))
        simpa only [Shared.readable, hsave] using hkeeps
      · have hgrows : Grows s.readable
            (Shared.readable { s with store := s.store.save v.id v.next v.snapshot }) :=
          .of_eq (fun _ => rfl) rfl fun _ => rfl
        refine ⟨h.of_unstored hgrows (fun _ => rfl) (fun _ => rfl)
          (fun id stored hload => .inl ?_) (fun _ ha => .inl ha) fun _ hv => .inl hv,
          hgrows, fun _ => rfl⟩
        obtain ⟨hload, hstored⟩ := Shared.readable_snapshots.mp hload
        refine Shared.readable_snapshots.mpr ⟨?_, hstored⟩
        by_cases hid : id = v.id
        · subst hid
          simp only [InMemoryStore.save, Function.update_self, Option.some.injEq] at hload
          subst hload
          exact absurd hstored hreads
        · simpa only [InMemoryStore.save, Function.update_of_ne hid] using hload
  | foreignAppend hf happ hfits =>
      have happ := InMemoryStore.append_readable (A := A) happ
      exact env_keeps h (.foreignAppend (s := s.readable) hf happ hfits)

variable [DecidableEq ι] {ident : ι → I} {late exact : Prop} {i : ι}

/-- A call which is none of recovery's first ones has the same effect on what is readable. -/
lemma Exec.readable {op : Op A} (hop : op.stage ≠ .seeding)
    (hpre : Owes A ident exact i s.readable op) {x : op.Ans} (hx : Exec ident late i s op x s') :
    Exec ident late i s.readable op x s'.readable := by
  cases hx with
  | appendLands h hfits =>
      exact .appendLands (s := s.readable) (InMemoryStore.append_readable h) hfits
  | appendConflicts h => exact .appendConflicts (InMemoryStore.append_conflict_readable h)
  | appendFails id next events h => exact .appendFails id next events h
  | appendLate hl id next events h => exact .appendLate hl id next events h
  | save id next snapshot r =>
      have hsave : Exec ident late i s.readable (.save id next snapshot) r
          { s.readable with store := s.readable.store.save id next snapshot } :=
        .save id next snapshot r
      simpa only [Shared.readable, s.store.save_readable id next hpre.2.reads] using hsave
  | saveFails id next snapshot h => exact .saveFails id next snapshot h
  | @saveLate id next snapshot r h =>
      have hlate : Exec ident late i s.readable (.save id next snapshot) r
          { s.readable with lateSaves := ⟨id, next, snapshot⟩ :: s.readable.lateSaves } :=
        .saveLate id next snapshot h
      simpa only [Shared.readable, List.filter_cons, hpre.2.reads, if_true] using hlate
  | persistenceId => exact absurd rfl hop
  | persistenceIdPanics => exact absurd rfl hop
  | load id => exact absurd rfl hop
  | loadFails id h => exact absurd rfl hop
  | read id start limit => exact .read id start limit
  | readFails id start limit h => exact .readFails id start limit h
  | recovered state => exact .recovered state
  | recoveredFails state h => exact .recoveredFails state h
  | handle incoming state effect => exact .handle incoming state effect
  | handleFails incoming state h => exact .handleFails incoming state h
  | continuation t state r => exact .continuation t state r
  | snapshot h => exact .snapshot h
  | noSnapshot state h => exact .noSnapshot state h
  | encodeEvent h => exact .encodeEvent h
  | encodeEventFails e h => exact .encodeEventFails e h
  | encodeSnapshot h => exact .encodeSnapshot h
  | encodeSnapshotFails snapshot h => exact .encodeSnapshotFails snapshot h
  | stoppedByParent b => exact .stoppedByParent b
  | nextIncoming held r => exact .nextIncoming held r
  | awaitRestart b => exact .awaitRestart b

end Steps

/-! ### Incarnations -/

section Incarnations

variable [DecidableEq I] [DecidableEq ι]

/-- The contract of incarnations which find snapshots they do not decode. -/
def evolving (A : EventSourced I) (ident : ι → I) (late foreign : Prop) :
    Contract ι (Op A) Op.Ans (Shared A ι) :=
  (writers A ident late foreign False).comap Shared.readable (Exec ident late)

variable {ident : ι → I} {late foreign : Prop} {i : ι} {s : Shared A ι}

lemma stable_readable (r : Recovered A) :
    Stable (evolving A ident late foreign) i fun s => At A ident i s.readable r :=
  fun _ _ h hrely _ => ⟨h.1, hrely.1.foldsTo h.2⟩

/-- `recover` up to its loop ends at a prefix of the stream, whether or not it decodes what is
stored as a snapshot. -/
lemma recoverSeed_evolves : Safe (evolving A ident late foreign) i
    (fun s r => ∀ a ∈ r, ∀ b ∈ a, At A ident i s.readable b)
    ((recoverSeed A).interruptible .stoppedByParent id) s := by
  refine Safe.interruptible (fun _ _ => trivial) (fun t x t' hx => ?_) ?_
  · obtain rfl := Exec.quiet .stoppedByParent trivial hx
    exact (evolving A ident late foreign).rely_refl i t'
  refine fun t _ _ => ⟨trivial, fun x t' hx _ => ?_⟩
  cases hx with
  | persistenceIdPanics => exact fun _ _ _ b hb => nomatch hb
  | persistenceId =>
      refine fun t _ _ => ⟨trivial, fun x t' hx hi => ?_⟩
      cases hx with
      | load =>
          show Safe _ i _ (.ret (seedOf A (ident i) (t.store.load (ident i)))) t
          rw [Shared.seedOf_readable]
          intro t' hrely hi' r hr
          obtain ⟨hid, hf⟩ := seedOf_foldsTo hi hr
          exact stable_readable r ⟨hid, hid ▸ hf⟩ hrely hi'
      | loadFails _ h =>
          cases x with
          | ok a => cases h
          | err e => exact fun _ _ _ b hb => nomatch hb
          | panic => exact fun _ _ _ b hb => nomatch hb

/-- **Every block of the run loop** is as safe as where all snapshots decode. -/
lemma code_evolves (pt : Point A) (hpt : PointOk A ident False i s.readable pt) :
    Safe (evolving A ident late foreign) i (fun s => PointOk A ident False i s.readable)
      (code A pt) s := by
  have hpast : (∀ stage, pt.stages stage → stage ≠ .seeding) →
      Safe (evolving A ident late foreign) i (fun s => PointOk A ident False i s.readable)
        (code A pt) s := by
    intro hstages
    have hwithin : (code A pt).Ends (fun op => op.stage ≠ .seeding) (fun _ _ => True)
        fun _ => True := (within_code pt).mono fun op => hstages op.stage
    exact (code_safe pt hpt).comap hwithin fun t op x t' hop hpre hx => hx.readable hop hpre
  cases pt with
  | run =>
      refine recoverSeed_evolves.bind fun t x hi h => ?_
      match x with
      | none => exact fun _ _ _ => trivial
      | some none => exact fun _ _ _ => trivial
      | some (some r) => exact fun _ hrely hi' => stable_readable r (h _ rfl r rfl) hrely hi'
  | replay r => exact hpast (by simp [Point.stages])
  | recovered r => exact hpast (by simp [Point.stages])
  | running r => exact hpast (by simp [Point.stages, Stage.settles])
  | failed => exact hpast (by simp [Point.stages])
  | terminate => exact hpast (by simp [Point.stages])

/-! ### Deployments -/

variable (ident late foreign)

/-- What the incarnations of the code deployed last can get into, over any number of
deployments on one store. -/
inductive Deployed :
    (A : EventSourced I) → Tasks ι (Op A) Op.Ans (Shared A ι) (Point A) → Prop
  | first (A : EventSourced I) : Deployed A (Incarnations.init A)
  | run {A : EventSourced I} {st st' : Tasks ι (Op A) Op.Ans (Shared A ι) (Point A)}
      (h : Deployed A st) (hs : Incarnations.Steps A ident late foreign st st') : Deployed A st'
  /-- The old incarnations end wherever they are.  Of the snapshots stored and those still on
  their way, the new code decodes none as something else. -/
  | upgrade {A B : EventSourced I} {st : Tasks ι (Op A) Op.Ans (Shared A ι) (Point A)}
      (h : Deployed A st) (U : Upgrade A B)
      (hstored : ∀ id stored, st.shared.store.snapshots id = some stored →
        U.Agrees stored.snapshot)
      (hlate : ∀ v ∈ st.shared.lateSaves, U.Agrees v.snapshot) :
      Deployed B ⟨U.shared st.shared, fun _ => .ret .run⟩

variable {ident late foreign}

/-- What the tasks keep. -/
abbrev Evolves (ident : ι → I) (late foreign : Prop)
    (st : Tasks ι (Op A) Op.Ans (Shared A ι) (Point A)) : Prop :=
  Tasks.Good (evolving A ident late foreign) (fun i s => PointOk A ident False i s.readable) st

variable {st st' : Tasks ι (Op A) Op.Ans (Shared A ι) (Point A)}

/-- One step keeps the invariant of what is readable, and lets it grow. -/
lemma exec_evolves {s' : Shared A ι} {op : Op A} {x : op.Ans} (h : Inv foreign s.readable)
    (hpre : Owes A ident False i s.readable op) (hx : Exec ident late i s op x s') :
    Inv foreign s'.readable ∧ Grows s.readable s'.readable ∧
      ∀ j, j ≠ i → s'.latest j = s.latest j := by
  by_cases hop : op.stage = .seeding
  · have hquiet : Quiet op := by
      cases op <;> trivial
    obtain rfl := Exec.quiet op hquiet hx
    exact ⟨h, Grows.refl _, fun _ _ => rfl⟩
  · obtain ⟨hinv, hgrows, hlatest, -⟩ := exec_keeps h hpre (hx.readable hop hpre)
    exact ⟨hinv, hgrows, hlatest⟩

lemma Evolves.run (h : Evolves ident late foreign st)
    (hs : Incarnations.Steps A ident late foreign st st') : Evolves ident late foreign st' := by
  refine Tasks.invariant (C := evolving A ident late foreign) (fun i s pt _ hpt => ?_)
    (fun i s op x s' hi hpre hx => ?_) (fun s s' hi he => ?_) h hs
  · exact code_evolves pt hpt
  · obtain ⟨hinv, hg, hlatest⟩ := exec_evolves hi hpre hx
    exact ⟨hinv, fun j hj => ⟨hg, hlatest j hj, False.elim⟩⟩
  · obtain ⟨hinv, hg, hlatest⟩ := env_readable hi he
    exact ⟨hinv, fun j => ⟨hg, hlatest j, False.elim⟩⟩

/-- **Every deployment** finds what it needs and leaves what the next one needs. -/
lemma Deployed.evolves (h : Deployed ident late foreign A st) : Evolves ident late foreign st := by
  induction h with
  | first A =>
      refine ⟨?_, fun i t _ _ => trivial⟩
      have hinit : (Shared.init : Shared A ι).readable = Shared.init := rfl
      show Inv foreign (Shared.init : Shared A ι).readable
      rw [hinit]
      exact Inv.init
  | run _ hs ih => exact ih.run hs
  | upgrade _ U hstored hlate ih => exact ⟨U.inv hstored hlate ih.1, fun i t _ _ => trivial⟩

lemma Evolves.grows (h : Evolves ident late foreign st)
    (hs : Incarnations.Steps A ident late foreign st st') :
    Grows st.shared.readable st'.shared.readable := by
  induction hs with
  | refl => exact Grows.refl _
  | tail hsteps hstep ih =>
      have hgood := h.run hsteps
      refine ih.trans ?_
      cases hstep with
      | answer i hi hx =>
          have hsafe := hgood.2 i
          rw [hi] at hsafe
          exact (exec_evolves hgood.1 (hsafe.pre hgood.1) hx).2.1
      | jump i hi => exact Grows.refl _
      | env he => exact (env_readable hgood.1 he).2.1

/-- **Upgrades carry state across.**  Whatever code has been deployed before, and wherever its
incarnations were: the new code keeps what is stored and goes on appending whole decisions, and
while an incarnation waits for its next incoming, its state is the fold of the stored events
before its position.  From the end of the old stream on, this is the fold of what has been
stored since over the state which follows from the old one, whether or not a snapshot was
discarded. -/
theorem upgrades_carry_state (h : Deployed ident late False A st) (U : Upgrade A B)
    (hstored : ∀ id stored, st.shared.store.snapshots id = some stored →
      U.Agrees stored.snapshot)
    (hlate : ∀ v ∈ st.shared.lateSaves, U.Agrees v.snapshot)
    {st' : Tasks ι (Op B) Op.Ans (Shared B ι) (Point B)}
    (hs : Incarnations.Steps B ident late False ⟨U.shared st.shared, fun _ => .ret .run⟩ st') :
    (∀ id, st.shared.stream id <+: st'.shared.stream id ∧ Serialised st'.shared id) ∧
      ∀ i r k, st'.task i = .call (.nextIncoming r) k →
        r.id = ident i ∧ FoldsTo st'.shared (ident i) r.nextSeqNo r.state ∧
          ∀ old, A.stateAfter (ident i) (st.shared.stream (ident i)) = some old →
            (st.shared.stream (ident i)).length ≤ r.nextSeqNo.toNat →
            B.replay (ident i) (U.state old)
                ((((st'.shared.stream (ident i)).take r.nextSeqNo.toNat).drop
                  (st.shared.stream (ident i)).length).map StoredEvent.event) =
              some r.state := by
  have hdeployed := Deployed.upgrade h U hstored hlate
  obtain ⟨hinv, hsafe⟩ := (hdeployed.run hs).evolves
  have hgrows := hdeployed.evolves.grows hs
  refine ⟨fun id => ⟨hgrows.stream id, ?_⟩, fun i r k hwait => ?_⟩
  · have hserial := hinv.serial not_false id
    exact ⟨hserial.nodup, hserial.whole, hserial.fresh⟩
  · have hi := hsafe i
    rw [hwait] at hi
    obtain ⟨⟨hid, hfolds⟩, -⟩ := hi.pre hinv
    rw [hid] at hfolds
    refine ⟨hid, hfolds, fun old hold hle => ?_⟩
    exact U.replay_since (hgrows.stream (ident i)) hold hle hfolds.2

/-- The counter, rewritten to count in twos; it upcasts the old event and has no use for the
old snapshots. -/
def twos : EventSourced Unit where
  Command := Unit
  Event := Unit
  State := ℕ
  Snapshot := ℕ
  Error := Unit
  Then := Empty
  event := ⟨"counted", ⟨2⟩, fun _ _ => .ok ()⟩
  snapshot := .current "twos" ⟨1⟩ fun payload => some payload.length
  init := fun _ => .ok 0
  initFromSnapshot := fun _ n => .ok n
  apply := fun _ n _ => some (n + (2 : ℕ))

/-- The counter's state, doubled. -/
def counterTwos : Upgrade counter twos where
  event := fun e => e
  state := fun n => Nat.mul 2 n
  upcast := by
    intro e event' h
    have hmanifest : e.manifest = "counted" := by
      by_contra hne
      simp [EventSourced.decoded, decodeVersioned, counter, Versioned.current, hne,
        catchAndLog] at h
    cases event'
    simp [EventSourced.decoded, decodeVersioned, twos, hmanifest, catchAndLog]
  init := by
    intro id a h
    cases h
    rfl
  apply := by
    intro id a event' a' h
    cases h
    rfl

/-- The counter in twos is at two once it has recovered from the counter's one event, and
discarded its snapshot. -/
theorem twos_goes_on :
    ∃ (st' : Tasks Unit (Op twos) Op.Ans (Shared twos Unit) (Point twos))
      (k : Option (Incoming Unit) → Task twos (Point twos)),
      st'.task () = .call (.nextIncoming ⟨(), (2 : ℕ), SeqNo.new 1⟩) k ∧
        FoldsTo st'.shared () (SeqNo.new 1) (2 : ℕ) := by
  have hold : Deployed (fun _ : Unit => ()) False False counter
      (.solo counterSaved (code counter (.running ⟨(), (1 : ℕ), SeqNo.new 1⟩))) :=
    .run (.first counter) (counter_run False)
  have hstored : ∀ id stored, counterSaved.store.snapshots id = some stored →
      counterTwos.Agrees stored.snapshot := by
    intro id stored hload decoded hdec
    cases hload
    simp [decodeVersioned, twos, Versioned.current] at hdec
  have hlate : ∀ v ∈ counterSaved.lateSaves, counterTwos.Agrees v.snapshot := by
    intro v hv
    cases hv
  have hpage : counterSaved.store.read () SeqNo.zero replayPageLimit =
      [⟨SeqNo.zero, counted⟩] := by decide
  have hread : Exec (fun _ : Unit => ()) False () (counterTwos.shared counterSaved)
      (.read () SeqNo.zero replayPageLimit) (.ok [⟨SeqNo.zero, counted⟩])
      (counterTwos.shared counterSaved) := by
    rw [← hpage]
    exact .read () SeqNo.zero replayPageLimit
  have h : Incarnations.Steps twos (fun _ : Unit => ()) False False
      (.solo (counterTwos.shared counterSaved) (.ret .run))
      (.solo (counterTwos.shared counterSaved) (.ret .run)) := .refl
  have h := Tasks.solo_jump h
  have h := Tasks.solo_answer h (.stoppedByParent false)
  have h := Tasks.solo_answer h .persistenceId
  have h := Tasks.solo_answer h (.stoppedByParent false)
  have h := Tasks.solo_answer h (.load ())
  have h := Tasks.solo_answer h (.stoppedByParent false)
  have h := Tasks.solo_jump h
  have h := Tasks.solo_answer h (.stoppedByParent false)
  have h := Tasks.solo_answer h hread
  have h := Tasks.solo_answer h (.stoppedByParent false)
  have h := Tasks.solo_jump h
  have h := Tasks.solo_answer h (.recovered _)
  have h := Tasks.solo_jump h
  obtain ⟨-, hwaiting⟩ := upgrades_carry_state hold counterTwos hstored hlate h
  obtain ⟨-, hfolds, -⟩ := hwaiting () ⟨(), (2 : ℕ), SeqNo.new 1⟩ _ rfl
  exact ⟨_, _, rfl, hfolds⟩

end Incarnations

end Tellus
