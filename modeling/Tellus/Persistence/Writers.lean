import Mathlib.Tactic
import Tellus.Lib.Runs
import Tellus.Persistence.Spawn

/-!
Any number of event-sourced incarnations on one store.

The shared state (`Shared`) is the store together with what has to be remembered to speak of
decisions: every effect `handle` has returned and the state it was returned for, and which of
these effects have reached the stream.  `Exec` says how the store, the application and the
codec may answer an incarnation, `Env` what may happen besides: an append or save which was
reported as failed takes effect after all, or somebody else appends.

Assumed of the application and the codec, as documented, and built into `Exec`: `recovered`
returns its state, a snapshot is undone by `init_from_snapshot`, and a payload is undone by
decoding it at the current version.

* `Inv` is the invariant of the shared state, `Grows` how it changes.
* `exec_keeps` and `env_keeps`: every operation and every outside step keeps the one and
  obeys the other.
-/

namespace Tellus

open Concurrent

variable {I : Type} {A : EventSourced I} {ι : Type}

/-! ### The shared state -/

/-- A call of `handle` which has returned an effect. -/
structure Decision (A : EventSourced I) where
  id : I
  state : A.State
  effect : Effect A

/-- An append reported as failed which may still reach the store, made for the `decision`-th
decision. -/
structure LateAppend (I : Type) where
  id : I
  next : SeqNo
  events : List EncodedEvent
  decision : ℕ

/-- A save reported as failed which may still reach the store. -/
structure LateSave (I : Type) where
  id : I
  next : SeqNo
  snapshot : EncodedSnapshot

/-- What the incarnations share: the store, the calls still on their way to it, and the
history of what has been decided and stored. -/
structure Shared (A : EventSourced I) (ι : Type) where
  store : InMemoryStore I
  lateAppends : List (LateAppend I)
  lateSaves : List (LateSave I)
  /-- Every decision so far, oldest first. -/
  decisions : List (Decision A)
  /-- The index of an incarnation's latest decision. -/
  latest : ι → ℕ
  /-- The decisions whose events have been stored, for each stream in the order of storing. -/
  landed : I → List ℕ

namespace Shared

/-- The stream of an ID. -/
abbrev stream (s : Shared A ι) (id : I) : List StoredEvent := s.store.streams id

/-- Nothing stored and nothing decided. -/
def init : Shared A ι := ⟨.empty, [], [], [], fun _ => 0, fun _ => []⟩

/-- The shared state once the events of the `d`-th decision have been stored in `store`. -/
def land [DecidableEq I] (s : Shared A ι) (id : I) (d : ℕ) (store : InMemoryStore I) : Shared A ι :=
  { s with store := store, landed := Function.update s.landed id (s.landed id ++ [d]) }

/-- The shared state once incarnation `i` has decided. -/
def decide [DecidableEq ι] (s : Shared A ι) (i : ι) (d : Decision A) : Shared A ι :=
  { s with
    decisions := s.decisions ++ [d]
    latest := Function.update s.latest i s.decisions.length }

/-- The events of the `d`-th decision. -/
def eventsOf (s : Shared A ι) (d : ℕ) : List A.Event :=
  match s.decisions[d]? with
  | some dec => dec.effect.events
  | none => []

end Shared

/-- How an operation of incarnation `i` is answered.  `late` allows a store to carry out an
append after it has reported a failure, as it may always do with a save. -/
inductive Exec [DecidableEq I] [DecidableEq ι] (ident : ι → I) (late : Prop) (i : ι) (s : Shared A ι) :
    (op : Op A) → op.Ans → Shared A ι → Prop
  | persistenceId : Exec ident late i s .persistenceId (some (ident i)) s
  | persistenceIdPanics : Exec ident late i s .persistenceId none s
  | load (id : I) : Exec ident late i s (.load id) (.ok (s.store.load id)) s
  | loadFails (id : I) {r} (h : catchAndLog r = none) : Exec ident late i s (.load id) r s
  | read (id : I) (start : SeqNo) (limit : ℕ) :
      Exec ident late i s (.read id start limit) (.ok (s.store.read id start limit)) s
  | readFails (id : I) (start : SeqNo) (limit : ℕ) {r} (h : catchAndLog r = none) :
      Exec ident late i s (.read id start limit) r s
  /-- The append takes effect, whatever the caller is told. -/
  | appendLands {id : I} {next : SeqNo} {events : List EncodedEvent} {store : InMemoryStore I}
      (h : s.store.append id next events = (.ok (), store)) (hfits : Fits store id) {r} :
      Exec ident late i s (.append id next events) r (s.land id (s.latest i) store)
  | appendConflicts {id : I} {next : SeqNo} {events : List EncodedEvent}
      (h : s.store.append id next events = (.error .conflict, s.store)) :
      Exec ident late i s (.append id next events) (.err .conflict) s
  | appendFails (id : I) (next : SeqNo) (events : List EncodedEvent) {r}
      (h : catchAndLog r = none) : Exec ident late i s (.append id next events) r s
  | appendLate (hl : late) (id : I) (next : SeqNo) (events : List EncodedEvent) {r}
      (h : catchAndLog r = none) :
      Exec ident late i s (.append id next events) r
        { s with lateAppends := ⟨id, next, events, s.latest i⟩ :: s.lateAppends }
  | save (id : I) (next : SeqNo) (snapshot : EncodedSnapshot) (r) :
      Exec ident late i s (.save id next snapshot) r
        { s with store := s.store.save id next snapshot }
  | saveFails (id : I) (next : SeqNo) (snapshot : EncodedSnapshot) {r}
      (h : catchAndLog r = none) : Exec ident late i s (.save id next snapshot) r s
  | saveLate (id : I) (next : SeqNo) (snapshot : EncodedSnapshot) {r}
      (h : catchAndLog r = none) :
      Exec ident late i s (.save id next snapshot) r
        { s with lateSaves := ⟨id, next, snapshot⟩ :: s.lateSaves }
  | recovered (state : A.State) : Exec ident late i s (.recovered state) (.ok state) s
  | recoveredFails (state : A.State) {r} (h : catchAndLog r = none) :
      Exec ident late i s (.recovered state) r s
  | handle (incoming : Incoming A.Command) (state : A.State) (effect : Effect A) :
      Exec ident late i s (.handle incoming state) (.ok effect)
        (s.decide i ⟨ident i, state, effect⟩)
  | handleFails (incoming : Incoming A.Command) (state : A.State) {r}
      (h : catchAndLog r = none) : Exec ident late i s (.handle incoming state) r s
  | continuation (t : A.Then) (state : A.State) (r) :
      Exec ident late i s (.continuation t state) r s
  | snapshot {state : A.State} {snapshot : A.Snapshot}
      (h : A.initFromSnapshot (ident i) snapshot = .ok state) :
      Exec ident late i s (.snapshot state) (.ok (some snapshot)) s
  | noSnapshot (state : A.State) {r} (h : ∀ snapshot, r ≠ .ok (some snapshot)) :
      Exec ident late i s (.snapshot state) r s
  | encodeEvent {e : A.Event} {payload : Payload}
      (h : A.event.decode A.event.version payload = .ok e) :
      Exec ident late i s (.encodeEvent e) (.ok payload) s
  | encodeEventFails (e : A.Event) {r} (h : catchAndLog r = none) :
      Exec ident late i s (.encodeEvent e) r s
  | encodeSnapshot {snapshot : A.Snapshot} {payload : Payload}
      (h : A.snapshot.decode A.snapshot.version payload = .ok snapshot) :
      Exec ident late i s (.encodeSnapshot snapshot) (.ok payload) s
  | encodeSnapshotFails (snapshot : A.Snapshot) {r} (h : catchAndLog r = none) :
      Exec ident late i s (.encodeSnapshot snapshot) r s
  | stoppedByParent (b : Bool) : Exec ident late i s .stoppedByParent b s
  | nextIncoming (held : Recovered A) (r) : Exec ident late i s (.nextIncoming held) r s
  | awaitRestart (b : Bool) : Exec ident late i s .awaitRestart b s

/-- What happens besides the incarnations' own steps; `foreign` allows other writers, which
append whatever they like. -/
inductive Env [DecidableEq I] (foreign : Prop) (s : Shared A ι) : Shared A ι → Prop
  | lateAppend {a : LateAppend I} (ha : a ∈ s.lateAppends) {store : InMemoryStore I}
      (h : s.store.append a.id a.next a.events = (.ok (), store)) (hfits : Fits store a.id) :
      Env foreign s (s.land a.id a.decision store)
  | lateSave {v : LateSave I} (hv : v ∈ s.lateSaves) :
      Env foreign s { s with store := s.store.save v.id v.next v.snapshot }
  | foreignAppend (hf : foreign) {id : I} {next : SeqNo} {events : List EncodedEvent}
      {store : InMemoryStore I} (h : s.store.append id next events = (.ok (), store))
      (hfits : Fits store id) : Env foreign s { s with store := store }

/-! ### The invariant -/

/-- The first `next` events of the stream fold to `state`. -/
def FoldsTo (s : Shared A ι) (id : I) (next : SeqNo) (state : A.State) : Prop :=
  next.toNat ≤ (s.stream id).length ∧
    A.stateAfter id ((s.stream id).take next.toNat) = some state

/-- The snapshot decodes and stands for the events before `next`. -/
def Covers (s : Shared A ι) (id : I) (next : SeqNo) (snapshot : EncodedSnapshot) : Prop :=
  ∃ decoded state, decodeVersioned A.snapshot snapshot.manifest snapshot.schemaVersion
      snapshot.payload = .ok decoded ∧
    A.initFromSnapshot id decoded = .ok state ∧ FoldsTo s id next state

/-- The events are those of the `d`-th decision, which was taken on the state of the first
`next` events; if they are in the stream, the stream has moved on. -/
def MayAppend (s : Shared A ι) (id : I) (next : SeqNo) (events : List EncodedEvent) (d : ℕ) :
    Prop :=
  events ≠ [] ∧
    (∃ dec, s.decisions[d]? = some dec ∧ dec.id = id ∧ FoldsTo s id next dec.state ∧
      events.mapM A.decoded = some dec.effect.events) ∧
    (d ∈ s.landed id → next.toNat < (s.stream id).length)

/-- The stream is the concatenation of the whole event lists of distinct decisions, each of
them taken on the state of exactly the events stored before. -/
structure Serialised (s : Shared A ι) (id : I) : Prop where
  nodup : (s.landed id).Nodup
  whole : ((s.stream id).map StoredEvent.event).mapM A.decoded =
    some ((s.landed id).flatMap s.eventsOf)
  fresh : ∀ before d after, s.landed id = before ++ d :: after →
    ∃ seed dec, A.init id = .ok seed ∧ s.decisions[d]? = some dec ∧ dec.id = id ∧
      applyEvents A id seed (before.flatMap s.eventsOf) = some dec.state

/-- What every step keeps of the shared state. -/
structure Inv (foreign : Prop) (s : Shared A ι) : Prop where
  numbered : ∀ id, Numbered (s.stream id)
  fits : ∀ id, Fits s.store id
  known : ∀ id, ∀ d ∈ s.landed id, d < s.decisions.length
  serial : ¬foreign → ∀ id, Serialised s id
  snapshots : ∀ id stored, s.store.snapshots id = some stored →
    Covers s id stored.nextSeqNo stored.snapshot
  lateAppends : ∀ a ∈ s.lateAppends, MayAppend s a.id a.next a.events a.decision
  lateSaves : ∀ v ∈ s.lateSaves, Covers s v.id v.next v.snapshot

/-- How the shared state changes: streams and decisions only grow, and nothing lands without
the stream getting longer. -/
structure Grows (s s' : Shared A ι) : Prop where
  stream : ∀ id, s.stream id <+: s'.stream id
  decisions : s.decisions <+: s'.decisions
  landed : ∀ id, ∀ d ∈ s'.landed id, d ∈ s.landed id ∨
    (s.stream id).length < (s'.stream id).length

namespace Grows

variable {s s' s'' : Shared A ι}

lemma refl (s : Shared A ι) : Grows s s :=
  ⟨fun _ => List.prefix_rfl, List.prefix_rfl, fun _ _ h => .inl h⟩

/-- A step which stores and decides nothing. -/
lemma of_eq (hstream : ∀ id, s'.stream id = s.stream id) (hdec : s'.decisions = s.decisions)
    (hlanded : ∀ id, s'.landed id = s.landed id) : Grows s s' :=
  ⟨fun id => hstream id ▸ List.prefix_rfl, hdec ▸ List.prefix_rfl,
    fun id _ hd => .inl (hlanded id ▸ hd)⟩

lemma trans (h : Grows s s') (h' : Grows s' s'') : Grows s s'' := by
  refine ⟨fun id => (h.stream id).trans (h'.stream id), h.decisions.trans h'.decisions, ?_⟩
  intro id d hd
  have hle := (h.stream id).length_le
  have hle' := (h'.stream id).length_le
  rcases h'.landed id d hd with hd' | hlt
  · rcases h.landed id d hd' with hd'' | hlt
    · exact .inl hd''
    · exact .inr (by omega)
  · exact .inr (by omega)

/-- A prefix of a growing stream stays what it is. -/
lemma take_eq (h : Grows s s') {id : I} {n : ℕ} (hn : n ≤ (s.stream id).length) :
    (s'.stream id).take n = (s.stream id).take n := by
  obtain ⟨more, hmore⟩ := h.stream id
  rw [← hmore, List.take_append_of_le_length hn]

lemma foldsTo (h : Grows s s') {id : I} {next : SeqNo} {state : A.State}
    (hf : FoldsTo s id next state) : FoldsTo s' id next state := by
  refine ⟨hf.1.trans (h.stream id).length_le, ?_⟩
  rw [h.take_eq hf.1]
  exact hf.2

lemma covers (h : Grows s s') {id : I} {next : SeqNo} {snapshot : EncodedSnapshot}
    (hc : Covers s id next snapshot) : Covers s' id next snapshot := by
  obtain ⟨decoded, state, hdec, hinit, hf⟩ := hc
  exact ⟨decoded, state, hdec, hinit, h.foldsTo hf⟩

lemma getElem? (h : Grows s s') {d : ℕ} {dec : Decision A} (hd : s.decisions[d]? = some dec) :
    s'.decisions[d]? = some dec := by
  obtain ⟨more, hmore⟩ := h.decisions
  rw [← hmore, List.getElem?_append_left (List.getElem?_eq_some_iff.mp hd).1]
  exact hd

/-- The events of a decision do not change later. -/
lemma eventsOf (h : Grows s s') {d : ℕ} (hd : d < s.decisions.length) :
    s'.eventsOf d = s.eventsOf d := by
  have hdec : s.decisions[d]? = some (s.decisions[d]) := List.getElem?_eq_getElem hd
  rw [Shared.eventsOf, Shared.eventsOf, h.getElem? hdec, hdec]

lemma flatMap_eventsOf (h : Grows s s') {ds : List ℕ} (hds : ∀ d ∈ ds, d < s.decisions.length) :
    ds.flatMap s'.eventsOf = ds.flatMap s.eventsOf := by
  induction ds with
  | nil => rfl
  | cons d ds ih =>
      rw [List.flatMap_cons, List.flatMap_cons, h.eventsOf (hds d (by simp)),
        ih fun d' hd' => hds d' (by simp [hd'])]

lemma mayAppend (h : Grows s s') {id : I} {next : SeqNo} {events : List EncodedEvent} {d : ℕ}
    (hm : MayAppend s id next events d) : MayAppend s' id next events d := by
  obtain ⟨hne, ⟨dec, hdec, hid, hf, hev⟩, hland⟩ := hm
  refine ⟨hne, ⟨dec, h.getElem? hdec, hid, h.foldsTo hf, hev⟩, fun hd => ?_⟩
  have hle := (h.stream id).length_le
  rcases h.landed id d hd with hd' | hlt
  · exact lt_of_lt_of_le (hland hd') hle
  · exact lt_of_le_of_lt hf.1 hlt

/-- A stream nothing was stored in stays serialised. -/
lemma serialised (h : Grows s s') {id : I} (hk : ∀ d ∈ s.landed id, d < s.decisions.length)
    (hs : Serialised s id) (hstream : s'.stream id = s.stream id)
    (hlanded : s'.landed id = s.landed id) : Serialised s' id := by
  refine ⟨hlanded ▸ hs.nodup, ?_, ?_⟩
  · rw [hstream, hlanded, h.flatMap_eventsOf hk]
    exact hs.whole
  · intro before d after hsplit
    rw [hlanded] at hsplit
    obtain ⟨seed, dec, hseed, hdec, hid, hstate⟩ := hs.fresh before d after hsplit
    refine ⟨seed, dec, hseed, h.getElem? hdec, hid, ?_⟩
    rw [h.flatMap_eventsOf fun d' hd' => hk d' (by rw [hsplit]; simp [hd'])]
    exact hstate

end Grows

/-! ### Keeping the invariant -/

section Keeping

variable {foreign : Prop} {s s' : Shared A ι}

/-- The invariant of nothing stored. -/
lemma Inv.init : Inv foreign (Shared.init : Shared A ι) where
  numbered := fun _ => numbered_nil
  fits := fun _ => Nat.zero_le _
  known := fun _ d hd => by cases hd
  serial := fun _ id => ⟨List.nodup_nil, rfl, fun before d after h => by
    simp [Shared.init] at h⟩
  snapshots := fun _ _ h => by cases h
  lateAppends := fun _ h => by cases h
  lateSaves := fun _ h => by cases h

/-- A step which stores nothing keeps the invariant, once the calls it adds are sound. -/
lemma Inv.of_unstored (h : Inv foreign s) (hg : Grows s s')
    (hstream : ∀ id, s'.stream id = s.stream id) (hlanded : ∀ id, s'.landed id = s.landed id)
    (hsnap : ∀ id stored, s'.store.snapshots id = some stored →
      s.store.snapshots id = some stored ∨ Covers s id stored.nextSeqNo stored.snapshot)
    (happ : ∀ a ∈ s'.lateAppends, a ∈ s.lateAppends ∨
      MayAppend s a.id a.next a.events a.decision)
    (hsave : ∀ v ∈ s'.lateSaves, v ∈ s.lateSaves ∨ Covers s v.id v.next v.snapshot) :
    Inv foreign s' where
  numbered := fun id => by rw [hstream]; exact h.numbered id
  fits := fun id => by
    show (s'.stream id).length ≤ vecMax
    rw [hstream]
    exact h.fits id
  known := fun id d hd => by
    rw [hlanded] at hd
    exact lt_of_lt_of_le (h.known id d hd) hg.decisions.length_le
  serial := fun hf id => hg.serialised (h.known id) (h.serial hf id) (hstream id) (hlanded id)
  snapshots := fun id stored hs => by
    rcases hsnap id stored hs with hs' | hc
    · exact hg.covers (h.snapshots id stored hs')
    · exact hg.covers hc
  lateAppends := fun a ha => by
    rcases happ a ha with ha' | hm
    · exact hg.mayAppend (h.lateAppends a ha')
    · exact hg.mayAppend hm
  lateSaves := fun v hv => by
    rcases hsave v hv with hv' | hc
    · exact hg.covers (h.lateSaves v hv')
    · exact hg.covers hc

variable [DecidableEq I]

/-- What a successful append makes of the store. -/
lemma Inv.append_ok (h : Inv foreign s) {id : I} {next : SeqNo} {events : List EncodedEvent}
    {store : InMemoryStore I} (ha : s.store.append id next events = (.ok (), store)) :
    next.toNat = (s.stream id).length ∧ store.snapshots = s.store.snapshots ∧
      store.streams id = s.stream id ++ InMemoryStore.stored next events ∧
      ∀ other, other ≠ id → store.streams other = s.stream other := by
  rcases InMemoryStore.append_cases ha with ⟨hr, -, -⟩ | ⟨-, hnext, hsnap, hstreams⟩
  · cases hr
  · have hlen : (s.stream id).length < 2 ^ 64 :=
      lt_of_le_of_lt (h.fits id) (by norm_num [vecMax])
    refine ⟨((SeqNo.new_eq_iff hlen).mp hnext).symm, hsnap, ?_, fun other ho => ?_⟩
    · rw [hstreams, Function.update_self]
    · rw [hstreams, Function.update_of_ne ho]

/-- A successful append leaves a longer, still numbered stream. -/
lemma Inv.append_numbered (h : Inv foreign s) {id : I} {next : SeqNo}
    {events : List EncodedEvent} {store : InMemoryStore I}
    (ha : s.store.append id next events = (.ok (), store)) (hfits : Fits store id) :
    ∀ other, Numbered (store.streams other) ∧ Fits store other := by
  obtain ⟨hnext, -, hself, hother⟩ := h.append_ok ha
  intro other
  by_cases ho : other = id
  · subst ho
    refine ⟨?_, hfits⟩
    have hlen : (s.stream other).length + events.length < 2 ^ 64 := by
      have : (store.streams other).length ≤ vecMax := hfits
      rw [hself, List.length_append, InMemoryStore.stored_length] at this
      exact lt_of_le_of_lt this (by norm_num [vecMax])
    rw [hself]
    exact numbered_append (h.numbered other) hnext hlen
  · refine ⟨by rw [hother other ho]; exact h.numbered other, ?_⟩
    show (store.streams other).length ≤ vecMax
    rw [hother other ho]
    exact h.fits other

/-- Storing the events of a decision: the state grows. -/
lemma Inv.grows_land (h : Inv foreign s) {id : I} {next : SeqNo} {events : List EncodedEvent}
    {store : InMemoryStore I} (ha : s.store.append id next events = (.ok (), store))
    (hne : events ≠ []) (d : ℕ) : Grows s (s.land id d store) := by
  obtain ⟨-, -, hself, hother⟩ := h.append_ok ha
  have hlonger : (s.stream id).length < (store.streams id).length := by
    have := List.length_pos_of_ne_nil hne
    rw [hself, List.length_append, InMemoryStore.stored_length]
    omega
  refine ⟨fun other => ?_, List.prefix_rfl, fun other d' hd' => ?_⟩
  · show s.stream other <+: store.streams other
    by_cases ho : other = id
    · subst ho
      rw [hself]
      exact List.prefix_append _ _
    · rw [hother other ho]
  · by_cases ho : other = id
    · subst ho
      exact .inr hlonger
    · refine .inl ?_
      simpa [Shared.land, Function.update_of_ne ho] using hd'

/-- Storing the events of a decision which nobody has overtaken keeps the stream serialised. -/
lemma Inv.serialised_land (h : Inv foreign s) (hf : ¬foreign) {id : I} {next : SeqNo}
    {events : List EncodedEvent} {store : InMemoryStore I} {d : ℕ}
    (hm : MayAppend s id next events d) (ha : s.store.append id next events = (.ok (), store)) :
    Serialised (s.land id d store) id := by
  obtain ⟨-, ⟨dec, hdec, hid, ⟨hle, hstate⟩, hev⟩, hland⟩ := hm
  obtain ⟨hnext, -, hself, -⟩ := h.append_ok ha
  have hserial := h.serial hf id
  have hnot : d ∉ s.landed id := fun hd => by
    have := hland hd
    omega
  have hevents : (s.land id d store).eventsOf = s.eventsOf := rfl
  have hlanded : (s.land id d store).landed id = s.landed id ++ [d] := by
    simp [Shared.land]
  have hd : s.eventsOf d = dec.effect.events := by
    rw [Shared.eventsOf, hdec]
  rw [hnext, List.take_length] at hstate
  refine ⟨?_, ?_, ?_⟩
  · rw [hlanded]
    exact List.nodup_append.mpr ⟨hserial.nodup, List.nodup_singleton d, fun a ha b hb hab => by
      rw [List.mem_singleton] at hb
      subst hb hab
      exact hnot ha⟩
  · show ((store.streams id).map StoredEvent.event).mapM A.decoded = _
    rw [hself, List.map_append, InMemoryStore.stored_map_event, List.mapM_append, hserial.whole,
      hev, hlanded, hevents, List.flatMap_append]
    simp [hd]
  · intro before d' after hsplit
    rw [hlanded] at hsplit
    rw [hevents]
    rcases cut_concat hsplit with ⟨rfl, rfl, -⟩ | ⟨after', -, hinit⟩
    · -- the batch just stored: it was decided on the fold of everything before it
      have hfold := hstate
      rw [EventSourced.stateAfter, Option.bind_eq_some_iff] at hfold
      obtain ⟨seed, hseed, hfold⟩ := hfold
      rw [EventSourced.replay_of_decoded hserial.whole] at hfold
      exact ⟨seed, dec, catchAndLog_eq_some.mp hseed, hdec, hid, hfold⟩
    · exact hserial.fresh before d' after' hinit

/-- Storing the events of a decision keeps the invariant. -/
lemma Inv.land (h : Inv foreign s) {id : I} {next : SeqNo} {events : List EncodedEvent}
    {store : InMemoryStore I} {d : ℕ} (hm : MayAppend s id next events d)
    (ha : s.store.append id next events = (.ok (), store)) (hfits : Fits store id) :
    Inv foreign (s.land id d store) := by
  have hg := h.grows_land ha hm.1 d
  have hnum := h.append_numbered ha hfits
  obtain ⟨-, hsnap, -, hother⟩ := h.append_ok ha
  refine ⟨fun other => (hnum other).1, fun other => (hnum other).2, ?_, ?_, ?_, ?_, ?_⟩
  · intro other d' hd'
    by_cases ho : other = id
    · subst ho
      simp only [Shared.land, Function.update_self, List.mem_append, List.mem_singleton] at hd'
      rcases hd' with hd' | rfl
      · exact h.known other d' hd'
      · obtain ⟨-, ⟨dec, hdec, -⟩, -⟩ := hm
        exact (List.getElem?_eq_some_iff.mp hdec).1
    · simp only [Shared.land, Function.update_of_ne ho] at hd'
      exact h.known other d' hd'
  · intro hf other
    by_cases ho : other = id
    · subst ho
      exact h.serialised_land hf hm ha
    · exact hg.serialised (h.known other) (h.serial hf other) (hother other ho)
        (by simp [Shared.land, Function.update_of_ne ho])
  · intro other stored hs
    refine hg.covers (h.snapshots other stored ?_)
    rw [← hsnap]
    exact hs
  · exact fun a ha => hg.mayAppend (h.lateAppends a ha)
  · exact fun v hv => hg.covers (h.lateSaves v hv)

/-- Saving a sound snapshot keeps the invariant. -/
lemma Inv.saved (h : Inv foreign s) {id : I} {next : SeqNo} {snapshot : EncodedSnapshot}
    (hc : Covers s id next snapshot) :
    Inv foreign { s with store := s.store.save id next snapshot } := by
  refine h.of_unstored (.of_eq (fun _ => rfl) rfl fun _ => rfl) (fun _ => rfl) (fun _ => rfl) ?_
    (fun _ ha => .inl ha) (fun _ hv => .inl hv)
  intro other stored hs
  by_cases ho : other = id
  · subst ho
    simp only [InMemoryStore.save, Function.update_self, Option.some.injEq] at hs
    subst hs
    exact .inr hc
  · simp only [InMemoryStore.save, Function.update_of_ne ho] at hs
    exact .inl hs

/-- Somebody else's append keeps the invariant, as long as it does not promise serialised
streams. -/
lemma Inv.foreignAppend (hf : foreign) (h : Inv foreign s) {id : I} {next : SeqNo}
    {events : List EncodedEvent} {store : InMemoryStore I}
    (ha : s.store.append id next events = (.ok (), store)) (hfits : Fits store id) :
    Inv foreign { s with store := store } ∧ Grows s { s with store := store } := by
  have hnum := h.append_numbered ha hfits
  obtain ⟨-, hsnap, hself, hother⟩ := h.append_ok ha
  have hg : Grows s { s with store := store } := by
    refine ⟨fun other => ?_, List.prefix_rfl, fun _ _ hd => .inl hd⟩
    show s.stream other <+: store.streams other
    by_cases ho : other = id
    · subst ho
      rw [hself]
      exact List.prefix_append _ _
    · rw [hother other ho]
  refine ⟨⟨fun other => (hnum other).1, fun other => (hnum other).2, h.known,
    fun hnf => absurd hf hnf, fun other stored hs => hg.covers (h.snapshots other stored ?_),
    fun a ha => hg.mayAppend (h.lateAppends a ha), fun v hv => hg.covers (h.lateSaves v hv)⟩, hg⟩
  rw [← hsnap]
  exact hs

end Keeping

/-! ### The contract -/

section Contract

variable (A) (ident : ι → I) (late foreign exact : Prop)

/-- The state and position of incarnation `i` are those of a prefix of its stream. -/
def At (i : ι) (s : Shared A ι) (r : Recovered A) : Prop :=
  r.id = ident i ∧ FoldsTo s r.id r.nextSeqNo r.state

/-- Under `exact`, the position is the end of the stream. -/
def AtEnd (i : ι) (s : Shared A ι) (r : Recovered A) : Prop :=
  At A ident i s r ∧ (exact → r.nextSeqNo.toNat = (s.stream (ident i)).length)

/-- What an incarnation owes before an operation.  `exact` is the stronger promise that no
append is ever made at a stale position. -/
def Owes (i : ι) (s : Shared A ι) : Op A → Prop
  | .append id next events => id = ident i ∧ MayAppend s id next events (s.latest i) ∧
      (exact → next.toNat = (s.stream id).length)
  | .save id next snapshot => id = ident i ∧ Covers s id next snapshot
  | .nextIncoming held => AtEnd A ident exact i s held
  | _ => True

variable [DecidableEq I] [DecidableEq ι]

/-- The contract between the incarnations: the others let the state grow and leave this
incarnation's latest decision alone.  Under `exact` they leave its stream alone as well. -/
def writers : Contract ι (Op A) Op.Ans (Shared A ι) where
  exec := Exec ident late
  pre := Owes A ident exact
  inv := Inv foreign
  rely := fun i s s' => Grows s s' ∧ s'.latest i = s.latest i ∧
    (exact → s'.stream (ident i) = s.stream (ident i))
  rely_refl := fun _ s => ⟨Grows.refl s, rfl, fun _ => rfl⟩
  rely_trans := fun _ _ _ _ h h' => ⟨h.1.trans h'.1, h'.2.1.trans h.2.1,
    fun he => (h'.2.2 he).trans (h.2.2 he)⟩

variable {A ident late foreign exact} {i : ι} {s s' : Shared A ι}

/-- **One operation of one incarnation**: the invariant is kept, the state grows, and nothing
but the incarnation's own decision and stream changes. -/
lemma exec_keeps (h : Inv foreign s) {op : Op A} (hpre : Owes A ident exact i s op) {x : op.Ans}
    (hx : Exec ident late i s op x s') :
    Inv foreign s' ∧ Grows s s' ∧ (∀ j, j ≠ i → s'.latest j = s.latest j) ∧
      ∀ id, id ≠ ident i → s'.stream id = s.stream id := by
  have same : Inv foreign s ∧ Grows s s ∧ (∀ j, j ≠ i → s.latest j = s.latest j) ∧
      ∀ id, id ≠ ident i → s.stream id = s.stream id :=
    ⟨h, Grows.refl s, fun _ _ => rfl, fun _ _ => rfl⟩
  cases hx with
  | appendLands ha hfits =>
      obtain ⟨rfl, hm, -⟩ := hpre
      refine ⟨h.land hm ha hfits, h.grows_land ha hm.1 _, fun _ _ => rfl, fun id hid => ?_⟩
      exact (h.append_ok ha).2.2.2 id hid
  | appendLate hl id next events hr =>
      obtain ⟨rfl, hm, -⟩ := hpre
      have hg : Grows s { s with lateAppends := ⟨ident i, next, events, s.latest i⟩ :: s.lateAppends } :=
        .of_eq (fun _ => rfl) rfl fun _ => rfl
      refine ⟨h.of_unstored hg (fun _ => rfl) (fun _ => rfl) (fun _ _ hs => .inl hs)
        (fun a ha => ?_) (fun _ hv => .inl hv), hg, fun _ _ => rfl, fun _ _ => rfl⟩
      rcases List.mem_cons.mp ha with rfl | ha'
      · exact .inr hm
      · exact .inl ha'
  | save id next snapshot r =>
      obtain ⟨rfl, hc⟩ := hpre
      exact ⟨h.saved hc, .of_eq (fun _ => rfl) rfl fun _ => rfl, fun _ _ => rfl, fun _ _ => rfl⟩
  | saveLate id next snapshot hr =>
      obtain ⟨rfl, hc⟩ := hpre
      have hg : Grows s { s with lateSaves := ⟨ident i, next, snapshot⟩ :: s.lateSaves } :=
        .of_eq (fun _ => rfl) rfl fun _ => rfl
      refine ⟨h.of_unstored hg (fun _ => rfl) (fun _ => rfl) (fun _ _ hs => .inl hs)
        (fun _ ha => .inl ha) (fun v hv => ?_), hg, fun _ _ => rfl, fun _ _ => rfl⟩
      rcases List.mem_cons.mp hv with rfl | hv'
      · exact .inr hc
      · exact .inl hv'
  | handle incoming state effect =>
      have hg : Grows s (s.decide i ⟨ident i, state, effect⟩) :=
        ⟨fun _ => List.prefix_rfl, List.prefix_append _ _, fun _ _ hd => .inl hd⟩
      refine ⟨h.of_unstored hg (fun _ => rfl) (fun _ => rfl) (fun _ _ hs => .inl hs)
        (fun _ ha => .inl ha) (fun _ hv => .inl hv), hg, fun j hj => ?_, fun _ _ => rfl⟩
      simp [Shared.decide, Function.update_of_ne hj]
  | _ => exact same

omit [DecidableEq ι] in
/-- One step from outside keeps the invariant and lets the state grow. -/
lemma env_keeps (h : Inv foreign s) (he : Env foreign s s') :
    Inv foreign s' ∧ Grows s s' ∧ ∀ j, s'.latest j = s.latest j := by
  cases he with
  | lateAppend ha happ hfits =>
      have hm := h.lateAppends _ ha
      exact ⟨h.land hm happ hfits, h.grows_land happ hm.1 _, fun _ => rfl⟩
  | lateSave hv => exact ⟨h.saved (h.lateSaves _ hv), .of_eq (fun _ => rfl) rfl fun _ => rfl,
      fun _ => rfl⟩
  | foreignAppend hf ha hfits =>
      obtain ⟨hinv, hg⟩ := h.foreignAppend hf ha hfits
      exact ⟨hinv, hg, fun _ => rfl⟩

end Contract

end Tellus
