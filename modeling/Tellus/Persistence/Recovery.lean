import Mathlib.Tactic
import Tellus.Lib.History
import Tellus.Persistence.Spawn

/-!
Recovery against stores which answer whatever they like.

Nothing is assumed of the answers here: pages may have gaps, repeat or reorder events, start
anywhere, carry foreign manifests or payloads which do not decode, and any call may fail.  What
`recover` makes of them is told from the history of the task's calls.

* `replayPage_replayed`: a page which is replayed holds the expected numbers in order.
* `Recovery`: the calls of one recovery, from the persistence ID on, which account for the state
  and position they ended with.
* `Live`: such a recovery has been completed, and the state is what the application has made of
  it since.
* `recovery_undamaged`: `recover` returns nothing else, and no callback runs on anything else.
-/

namespace Tellus

open Concurrent

variable {I : Type} {A : EventSourced I}

/-! ### Replayed events -/

/-- The stored event is one of the actor's, and decodes to `event`. -/
def Decodes (A : EventSourced I) (stored : StoredEvent) (event : A.Event) : Prop :=
  stored.event.manifest = A.event.manifest ∧
    A.event.decode stored.event.schemaVersion stored.event.payload = .ok event

/-- Replay has got from `seed` to `r` by applying the given stored events. -/
structure Replayed (seed : Recovered A) (applied : List StoredEvent) (r : Recovered A) : Prop where
  id_eq : r.id = seed.id
  /-- Positions saturate at the largest one. -/
  position : r.nextSeqNo = seed.nextSeqNo.advancedBy applied.length
  /-- Below the largest position the numbers are the expected ones, in order. -/
  numbers : r.nextSeqNo.toNat < 2 ^ 64 - 1 →
    applied.map (fun e => e.seqNo.toNat) =
      List.range' seed.nextSeqNo.toNat (r.nextSeqNo.toNat - seed.nextSeqNo.toNat)
  /-- Every one of them decodes, and the state is `apply` folded over them. -/
  state : ∃ events, List.Forall₂ (Decodes A) applied events ∧
    applyEvents A seed.id seed.state events = some r.state

lemma decodes_of_decodeVersioned {stored : StoredEvent} {event : A.Event}
    (h : decodeVersioned A.event stored.event.manifest stored.event.schemaVersion
      stored.event.payload = .ok event) : Decodes A stored event := by
  unfold decodeVersioned at h
  split at h
  · cases h
  · exact ⟨not_not.mp ‹_›, h⟩

lemma Replayed.refl (r : Recovered A) : Replayed r [] r where
  id_eq := rfl
  position := (SeqNo.advancedBy_zero _).symm
  numbers := fun _ => by simp
  state := ⟨[], .nil, rfl⟩

/-- One stretch of events after the other. -/
lemma Replayed.trans {seed r r' : Recovered A} {applied applied' : List StoredEvent}
    (h : Replayed seed applied r) (h' : Replayed r applied' r') :
    Replayed seed (applied ++ applied') r' := by
  have hpos : r'.nextSeqNo = seed.nextSeqNo.advancedBy (applied ++ applied').length := by
    rw [h'.position, h.position, SeqNo.advancedBy_advancedBy, List.length_append]
  refine ⟨h'.id_eq.trans h.id_eq, hpos, fun hlt => ?_, ?_⟩
  · -- the positions on the way were below the largest one as well
    have hr : r.nextSeqNo.toNat = min (seed.nextSeqNo.toNat + applied.length) (2 ^ 64 - 1) := by
      rw [h.position]
      rfl
    have hr' : r'.nextSeqNo.toNat = min (r.nextSeqNo.toNat + applied'.length) (2 ^ 64 - 1) := by
      rw [h'.position]
      rfl
    have hmid : r.nextSeqNo.toNat =
        seed.nextSeqNo.toNat + (r.nextSeqNo.toNat - seed.nextSeqNo.toNat) := by omega
    have hsum : r'.nextSeqNo.toNat - seed.nextSeqNo.toNat =
        (r.nextSeqNo.toNat - seed.nextSeqNo.toNat) +
          (r'.nextSeqNo.toNat - r.nextSeqNo.toNat) := by omega
    rw [List.map_append, h.numbers (by omega), h'.numbers hlt, hsum, ← List.range'_append_1,
      ← hmid]
  · obtain ⟨events, hdec, happly⟩ := h.state
    obtain ⟨events', hdec', happly'⟩ := h'.state
    refine ⟨events ++ events', List.rel_append hdec hdec', ?_⟩
    rw [h.id_eq] at happly'
    rw [applyEvents, List.foldlM_append]
    exact (Option.bind_eq_some_iff.mpr ⟨r.state, happly, happly'⟩)

/-- Replaying one more event. -/
lemma Replayed.event {r : Recovered A} {stored : StoredEvent} {event : A.Event} {state : A.State}
    (hno : stored.seqNo = r.nextSeqNo) (hdec : Decodes A stored event)
    (happly : A.apply r.id r.state event = some state) :
    Replayed r [stored] ⟨r.id, state, r.nextSeqNo.succ⟩ where
  id_eq := rfl
  position := rfl
  numbers := by
    intro hlt
    have hsucc : r.nextSeqNo.succ.toNat = min (r.nextSeqNo.toNat + 1) (2 ^ 64 - 1) := rfl
    have hone : r.nextSeqNo.succ.toNat - r.nextSeqNo.toNat = 1 := by
      dsimp only at hlt
      omega
    dsimp only
    rw [hone, List.map_singleton, hno]
    rfl
  state := ⟨[event], .cons hdec .nil, by simp [applyEvents, happly]⟩

/-- **A page which is replayed without a failure is undamaged**, whatever it was. -/
lemma replayPage_replayed {page : List StoredEvent} {r : Recovered A} {state : A.State}
    {next : SeqNo} (h : replayPage A r.id r.state r.nextSeqNo page = .ok (state, next)) :
    Replayed r page ⟨r.id, state, next⟩ := by
  induction page generalizing r with
  | nil =>
      cases h
      exact Replayed.refl r
  | cons stored page ih =>
      unfold replayPage at h
      split at h
      · cases h
      · rename_i hno
        split at h
        · rename_i event hdec
          split at h
          · rename_i state' happly
            have hfirst := Replayed.event (not_not.mp hno) (decodes_of_decodeVersioned hdec) happly
            exact hfirst.trans (@ih ⟨r.id, state', r.nextSeqNo.succ⟩ h)
          · cases h
        · cases h
        · cases h

/-! ### What the calls account for -/

/-- The calls of an event-sourced actor's task. -/
abbrev Calls (A : EventSourced I) := History (Op A) Op.Ans

/-- The calls of one recovery, which account for `r`: its ID, a snapshot to start from or none,
and the pages read since, whose events have been replayed. -/
def Recovery (calls : Calls A) (r : Recovered A) : Prop :=
  ∃ (snapshot : Option StoredSnapshot) (seed : Recovered A)
    (pages : List (SeqNo × List StoredEvent)),
    calls = ⟨.persistenceId, some r.id⟩ :: ⟨.load r.id, .ok snapshot⟩ ::
      pages.map (fun page => ⟨.read r.id page.1 replayPageLimit, .ok page.2⟩) ∧
    seedOf A r.id snapshot = some seed ∧ Replayed seed (pages.flatMap Prod.snd) r

/-- The latest calls are a recovery. -/
def JustRecovered (h : Calls A) (r : Recovered A) : Prop :=
  ∃ before calls, h = before ++ calls ∧ Recovery calls r

/-- Since the latest recovery was begun it has been completed, `recovered` has accepted its
state, and `state` is what applying events has made of that. -/
def Live (h : Calls A) (id : I) (state : A.State) : Prop :=
  ∃ (before calls : Calls A) (r : Recovered A) (accepted : A.State) (rest : Calls A)
    (events : List A.Event),
    h = before ++ calls ++ ⟨.recovered r.state, .ok accepted⟩ :: rest ∧ Recovery calls r ∧
      (∀ call ∈ rest, call.1 ≠ .persistenceId) ∧ r.id = id ∧
      applyEvents A id accepted events = some state

/-- What is due before a callback: a completed recovery, and no other state than its own. -/
def Due (h : Calls A) : Op A → Prop
  | .recovered state => ∃ r, JustRecovered h r ∧ r.state = state
  | .handle _ state => ∃ id, Live h id state
  | .continuation _ state => ∃ id, Live h id state
  | .snapshot state => ∃ id, Live h id state
  | _ => True

/-- What is due at each place of the run loop. -/
def DueAt (h : Calls A) : Point A → Prop
  | .replay r => JustRecovered h r
  | .recovered r => JustRecovered h r
  | .running r => Live h r.id r.state
  | _ => True

/-- Asking whether the parent has stopped the actor leaves no trace. -/
def polls : Op A → Bool
  | .stoppedByParent => true
  | _ => false

variable (A) in
/-- The contract of a task whose calls may be answered in any way. -/
abbrev recoveryContract : Contract Unit (Op A) Op.Ans (Calls A) :=
  History.contract polls (fun _ _ _ => True) Due

section Steps

variable {h : Calls A} {r : Recovered A} {id : I} {state : A.State}

/-- A seed accounts for itself. -/
lemma JustRecovered.seed {snapshot : Option StoredSnapshot}
    (hseed : seedOf A id snapshot = some r) :
    JustRecovered (h ++ [⟨.persistenceId, some id⟩] ++ [⟨.load id, .ok snapshot⟩]) r := by
  have hid : r.id = id := by
    unfold seedOf at hseed
    split at hseed <;>
      (obtain ⟨_, -, rfl⟩ := Option.map_eq_some_iff.mp hseed
       rfl)
  subst hid
  exact ⟨h, _, List.append_assoc _ _ _, snapshot, r, [], rfl, hseed, Replayed.refl r⟩

/-- A page replayed accounts for where it leads. -/
lemma JustRecovered.page {page : List StoredEvent} {next : SeqNo} (hr : JustRecovered h r)
    (hpage : replayPage A r.id r.state r.nextSeqNo page = .ok (state, next)) :
    JustRecovered (h ++ [⟨.read r.id r.nextSeqNo replayPageLimit, .ok page⟩])
      ⟨r.id, state, next⟩ := by
  obtain ⟨before, calls, rfl, snapshot, seed, pages, rfl, hseed, hrep⟩ := hr
  refine ⟨before, _, List.append_assoc _ _ _, snapshot, seed,
    pages ++ [(r.nextSeqNo, page)], ?_, hseed, ?_⟩
  · simp
  · rw [List.flatMap_append, List.flatMap_singleton]
    exact hrep.trans (replayPage_replayed hpage)

/-- Once `recovered` has accepted the state, the actor is live. -/
lemma JustRecovered.live (hr : JustRecovered h r) (accepted : A.State) :
    Live (h ++ [⟨.recovered r.state, .ok accepted⟩]) r.id accepted := by
  obtain ⟨before, calls, rfl, hcalls⟩ := hr
  exact ⟨before, calls, r, accepted, [], [], rfl, hcalls, by simp, rfl, rfl⟩

/-- The actor stays live until the next recovery is begun. -/
lemma Live.record (hl : Live h id state) {op : Op A} (hop : op ≠ .persistenceId) (x : op.Ans) :
    Live (h.record polls op x) id state := by
  unfold History.record
  split
  · exact hl
  · obtain ⟨before, calls, r, accepted, rest, events, rfl, hcalls, hrest, hid, hfold⟩ := hl
    refine ⟨before, calls, r, accepted, rest ++ [⟨op, x⟩], events, by simp, hcalls, ?_, hid, hfold⟩
    intro call hcall
    rcases List.mem_append.mp hcall with hmem | hmem
    · exact hrest call hmem
    · rw [List.mem_singleton] at hmem
      subst hmem
      exact hop

/-- Applying events leads from one live state to the next. -/
lemma Live.apply {events : List A.Event} {state' : A.State} (hl : Live h id state)
    (happly : applyEvents A id state events = some state') : Live h id state' := by
  obtain ⟨before, calls, r, accepted, rest, events', rfl, hcalls, hrest, hid, hfold⟩ := hl
  refine ⟨before, calls, r, accepted, rest, events' ++ events, rfl, hcalls, hrest, hid, ?_⟩
  rw [applyEvents, List.foldlM_append]
  exact Option.bind_eq_some_iff.mpr ⟨state, hfold, happly⟩

end Steps

/-! ### The blocks -/

section Blocks

variable {h : Calls A} {r : Recovered A} {id : I} {state : A.State}

/-- A call which is not a callback and begins no recovery keeps the actor live. -/
lemma safe_quiet {α : Type} {post : Calls A → α → Prop} {op : Op A} {k : op.Ans → Task A α}
    (hl : Live h id state) (hop : op ≠ .persistenceId) (hdue : Due h op)
    (hk : ∀ h x, Live h id state → Safe (recoveryContract A) () post (k x) h) :
    Safe (recoveryContract A) () post (.call op k) h :=
  History.safe_call.mpr ⟨hdue, fun x _ => hk _ x (hl.record hop x)⟩

lemma encodeEvents_live (events : List A.Event) (hl : Live h id state) :
    Safe (recoveryContract A) () (fun h _ => Live h id state) (encodeEvents A events) h := by
  induction events generalizing h with
  | nil => exact History.safe_ret.mpr hl
  | cons event events ih =>
      refine safe_quiet hl (by simp) trivial fun h x hl => ?_
      cases x with
      | ok payload =>
          refine (ih hl).bind fun h encoded _ hl => ?_
          cases encoded <;> exact History.safe_ret.mpr hl
      | err e => exact History.safe_ret.mpr hl
      | panic => exact History.safe_ret.mpr hl

/-- Appending leaves the actor live in the state it applies the events to. -/
lemma persist_live (next : SeqNo) (events : List A.Event) (hl : Live h id state) :
    Safe (recoveryContract A) () (fun h result => ∀ p ∈ result, Live h id p.1)
      (persist A id state next events) h := by
  refine (encodeEvents_live events hl).bind fun h encoded _ hl => ?_
  cases encoded with
  | none => exact History.safe_ret.mpr (by simp)
  | some encoded =>
      refine safe_quiet hl (by simp) trivial fun h x hl => ?_
      cases x with
      | ok _ =>
          refine History.safe_ret.mpr fun p hp => ?_
          obtain ⟨state', happly, rfl⟩ := Option.map_eq_some_iff.mp (Option.mem_def.mp hp)
          exact hl.apply happly
      | err e => exact History.safe_ret.mpr (by simp)
      | panic => exact History.safe_ret.mpr (by simp)

lemma runThens_live (thens : List A.Then) (hl : Live h id state) :
    Safe (recoveryContract A) () (fun h _ => Live h id state) (runThens A state thens) h := by
  induction thens generalizing h with
  | nil => exact History.safe_ret.mpr hl
  | cons t thens ih =>
      refine safe_quiet hl (by simp) ⟨id, hl⟩ fun h x hl => ?_
      cases x with
      | ok _ => exact ih hl
      | err e => exact nomatch e
      | panic => exact History.safe_ret.mpr hl

lemma saveSnapshot_live (next : SeqNo) (hl : Live h id state) :
    Safe (recoveryContract A) () (fun h _ => Live h id state) (saveSnapshot A id state next) h := by
  have hencode : Safe (recoveryContract A) () (fun h _ => Live h id state)
      (encodeSnapshot A state) h := by
    refine safe_quiet hl (by simp) ⟨id, hl⟩ fun h x hl => ?_
    rcases x with (_ | snapshot) | e | _
    · exact History.safe_ret.mpr hl
    · refine safe_quiet hl (by simp) trivial fun h x hl => ?_
      cases x <;> exact History.safe_ret.mpr hl
    · exact History.safe_ret.mpr hl
    · exact History.safe_ret.mpr hl
  refine hencode.bind fun h x _ hl => ?_
  rcases x with (_ | snapshot) | e | _
  · exact History.safe_ret.mpr hl
  · exact safe_quiet hl (by simp) trivial fun h x hl => History.safe_ret.mpr hl
  · exact History.safe_ret.mpr hl
  · exact History.safe_ret.mpr hl

/-- A settled effect leaves the actor live in the settled state. -/
lemma settle_live (next : SeqNo) (effect : Effect A) (hl : Live h id state) :
    Safe (recoveryContract A) () (fun h result => ∀ settled ∈ result, Live h id settled.state)
      (settle A id state next effect) h := by
  have happended : Safe (recoveryContract A) () (fun h result => ∀ p ∈ result, Live h id p.1)
      (if !effect.events.isEmpty then persist A id state next effect.events
        else return some (state, next)) h := by
    split
    · exact persist_live next effect.events hl
    · exact History.safe_ret.mpr (by simpa using hl)
  refine happended.bind fun h result _ hresult => ?_
  cases result with
  | none => exact History.safe_ret.mpr (by simp)
  | some p =>
      obtain ⟨state, next⟩ := p
      refine (runThens_live effect.thens (hresult _ rfl)).bind fun h done _ hl => ?_
      cases done with
      | false => exact History.safe_ret.mpr (by simp)
      | true =>
          have hret : ∀ h, Live h id state → Safe (recoveryContract A) ()
              (fun h result => ∀ settled ∈ result, Live h id settled.state)
              (.ret (some (⟨state, next, effect.stop⟩ : Settled A))) h := by
            intro h hl
            exact History.safe_ret.mpr (by simpa using hl)
          dsimp only
          split
          · exact (saveSnapshot_live next hl).bind fun h _ _ hl => hret h hl
          · exact hret h hl

lemma recoverSeed_due (h : Calls A) : Safe (recoveryContract A) ()
    (fun h result => ∀ r ∈ result, JustRecovered h r) (recoverSeed A) h := by
  refine History.safe_call.mpr ⟨trivial, fun x _ => ?_⟩
  cases x with
  | none => exact History.safe_ret.mpr (by simp)
  | some id =>
      refine History.safe_call.mpr ⟨trivial, fun x _ => ?_⟩
      cases x with
      | ok snapshot => exact History.safe_ret.mpr fun r hr => JustRecovered.seed hr
      | err e => exact History.safe_ret.mpr (by simp)
      | panic => exact History.safe_ret.mpr (by simp)

/-- A page is replayed on top of what has been recovered, or nothing is returned. -/
lemma recoverPage_due {h : Calls A} {r : Recovered A} (hr : JustRecovered h r) :
    Safe (recoveryContract A) () (fun h result => ∀ p ∈ result, JustRecovered h p.1)
      (recoverPage A r) h := by
  refine History.safe_call.mpr ⟨trivial, fun x _ => ?_⟩
  cases x with
  | ok page =>
      refine History.safe_ret.mpr fun p hp => ?_
      obtain ⟨⟨state, next⟩, hreplay, rfl⟩ := Option.map_eq_some_iff.mp (Option.mem_def.mp hp)
      exact JustRecovered.page hr (catchAndLog_eq_some.mp hreplay)
  | err e => exact History.safe_ret.mpr (by simp)
  | panic => exact History.safe_ret.mpr (by simp)

/-- Every block of the run loop keeps to what is due. -/
lemma code_due (h : Calls A) (pt : Point A) (hpt : DueAt h pt) :
    Safe (recoveryContract A) () DueAt (code A pt) h := by
  cases pt with
  | run =>
      refine (History.safe_interruptible rfl (fun _ => trivial) (recoverSeed_due h)).bind ?_
      rintro h (_ | _ | r) - hr
      · exact History.safe_ret.mpr trivial
      · exact History.safe_ret.mpr trivial
      · exact History.safe_ret.mpr (hr _ rfl r rfl)
  | replay r =>
      refine (History.safe_interruptible rfl (fun _ => trivial) (recoverPage_due hpt)).bind ?_
      rintro h (_ | _ | ⟨r, _ | _⟩) - hr
      · exact History.safe_ret.mpr trivial
      · exact History.safe_ret.mpr trivial
      · exact History.safe_ret.mpr (hr _ rfl _ rfl)
      · exact History.safe_ret.mpr (hr _ rfl _ rfl)
  | recovered r =>
      refine History.safe_call.mpr ⟨⟨r, hpt, rfl⟩, fun x _ => ?_⟩
      cases x with
      | ok accepted => exact History.safe_ret.mpr (JustRecovered.live hpt accepted)
      | err e => exact History.safe_ret.mpr trivial
      | panic => exact History.safe_ret.mpr trivial
  | running r =>
      refine safe_quiet hpt (by simp) trivial fun h x hl => ?_
      cases x with
      | none => exact History.safe_ret.mpr trivial
      | some incoming =>
          refine safe_quiet hl (by simp) ⟨r.id, hl⟩ fun h x hl => ?_
          cases x with
          | ok effect =>
              refine (settle_live r.nextSeqNo effect hl).bind fun h settled _ hs => ?_
              cases settled with
              | none => exact History.safe_ret.mpr trivial
              | some settled =>
                  dsimp only
                  split
                  · exact History.safe_ret.mpr trivial
                  · exact History.safe_ret.mpr (hs _ rfl)
          | err e => exact History.safe_ret.mpr trivial
          | panic => exact History.safe_ret.mpr trivial
  | failed =>
      refine History.safe_call.mpr ⟨trivial, fun x _ => ?_⟩
      cases x <;> exact History.safe_ret.mpr trivial
  | terminate => exact History.safe_ret.mpr trivial

end Blocks

/-! ### Every run -/

variable (A) in
/-- The states an event-sourced actor's task gets into, whatever its calls are answered. -/
abbrev Answered : Tasks Unit (Op A) Op.Ans (Calls A) (Point A) → Prop :=
  Tasks.Reaches (fun _ => code A) (recoveryContract A).exec (fun _ _ => False)
    (.solo [] (.ret .run))

/-- Any answer will do. -/
lemma answers (h : Calls A) (op : Op A) (x : op.Ans) :
    (recoveryContract A).exec () h op x (h.record polls op x) :=
  ⟨trivial, rfl⟩

/-- **Recovery never builds a state from a damaged history.**  Whatever the stores answer, what
`recover` returns is accounted for by its own calls: the seed is that of the snapshot loaded or
of `init`, the events of the pages carry the numbers from there to the position returned, every
one of them is the actor's own and decodes, and the state is their fold.  And no callback runs
before such a recovery has been completed, nor on a state which does not come from it. -/
theorem recovery_undamaged {st : Tasks Unit (Op A) Op.Ans (Calls A) (Point A)}
    (h : Answered A st) :
    (∀ r, st.task () = .ret (.recovered r) → JustRecovered st.shared r) ∧
      ∀ op k, st.task () = .call op k → Due st.shared op := by
  have hstart : DueAt ([] : Calls A) .run := trivial
  have hsafe := History.invariant code_due hstart h
  constructor
  · intro r hr
    rw [hr] at hsafe
    exact History.safe_ret.mp hsafe
  · intro op k hop
    rw [hop] at hsafe
    exact hsafe.pre trivial

/-- The counter recovers from a page of one event. -/
theorem counter_recovers : ∃ calls : Calls counter,
    Answered counter (.solo calls (.ret (.recovered ⟨(), (1 : ℕ), SeqNo.new 1⟩))) ∧
      JustRecovered calls (⟨(), (1 : ℕ), SeqNo.new 1⟩ : Recovered counter) := by
  have h : Answered counter (.solo [] (.ret .run)) := .refl
  have h := Tasks.solo_jump h
  have h := Tasks.solo_answer h (answers _ .stoppedByParent false)
  have h := Tasks.solo_answer h (answers _ .persistenceId (some ()))
  have h := Tasks.solo_answer h (answers _ .stoppedByParent false)
  have h := Tasks.solo_answer h (answers _ (.load ()) (.ok none))
  have h := Tasks.solo_answer h (answers _ .stoppedByParent false)
  have h := Tasks.solo_jump h
  have h := Tasks.solo_answer h (answers _ .stoppedByParent false)
  have h := Tasks.solo_answer h
    (answers _ (.read () SeqNo.zero replayPageLimit) (.ok [⟨SeqNo.zero, counted⟩]))
  have h := Tasks.solo_answer h (answers _ .stoppedByParent false)
  exact ⟨_, h, (recovery_undamaged h).1 _ rfl⟩

end Tellus
