import Mathlib.Tactic
import Tellus.Postgres.Actors
import Tellus.Postgres.Linearizable

/-!
Event-sourced actors on the PostgreSQL store do what they do on an atomic one.

Every store call of an actor is carried out by one statement, whose last step answers it: a guard
which passes goes unnoticed, and what a call was told of as a failure and takes effect later is one
of the late calls the atomic store has.  So every run on the database is a run on the store of
`Tellus.Exec`, and what holds of those runs holds of the tables.

* `Represents`: the tables hold what the atomic store holds, and every orphan is a late call.
* `Pending`: a store call which is under way.
* `Pending.steps`, `orphan_steps`: what a statement and an orphan do, seen from the atomic store.
* `atomicStore`: the programs of the store calls are atomic.
* `postgres_serialises_decisions`: what follows for the tables.
-/

namespace Tellus.Postgres

open Concurrent

variable {A : EventSourced PersistenceId} {ι : Type} {text : Error → String}

/-! ### What the calls come to -/

/-- What `load` makes of the answer. -/
def loaded : Except SqlxError (Option SnapshotRow) → Except Error (Option StoredSnapshot)
  | .error e => .error (.sqlx e)
  | .ok none => .ok none
  | .ok (some r) => (storedSnapshot r).map some

lemma loaded_map (id : PersistenceId) (stored : Option StoredSnapshot) :
    loaded (.ok (stored.map (snapshotRow id))) = .ok stored := by
  cases stored with
  | none => rfl
  | some stored =>
      rw [Option.map_some, loaded, storedSnapshot_snapshotRow]
      rfl

/-- What `read` makes of the answer. -/
def selected : Except SqlxError (List Row) → Except Error (List StoredEvent)
  | .error e => .error (.sqlx e)
  | .ok rows => rows.mapM storedEvent

/-- What `save` makes of the answer. -/
def upserted : Except SqlxError Unit → Except Error Unit
  | .error e => .error (.sqlx e)
  | .ok () => .ok ()

/-- What `append` makes of the answer if there is nothing to append. -/
def compared (next : ℤ) : Except SqlxError ℤ → Except (AppendError Error) Unit
  | .error e => .error (.store (.sqlx e))
  | .ok actual => if actual = next then .ok () else .error .conflict

/-- What `append` makes of the answer to its `INSERT`. -/
def inserted (n : ℕ) : Except SqlxError ℕ → Except (AppendError Error) Unit
  | .ok done => if done = n then .ok () else .error .conflict
  | .error e => if isUniqueViolation e then .error .conflict else .error (.store (.sqlx e))

/-- A conditional `INSERT` whose guard has passed. -/
def committing (text : Error → String) (id : PersistenceId) (next : SeqNo)
    (events : List EncodedEvent) (us : List Unnested) :
    Prog (PgOp A) PgOp.Ans (Outcome (AppendError String) Unit) :=
  .call (PgOp.sql (.append id next events) (.append (.commit id us))) fun y =>
    .ret (appendOutcome text (inserted us.length y))

/-- What is left of it once the guard has been answered. -/
def guarded (text : Error → String) (id : PersistenceId) (next : SeqNo)
    (events : List EncodedEvent) (us : List Unnested) :
    Except SqlxError Bool → Prog (PgOp A) PgOp.Ans (Outcome (AppendError String) Unit)
  | .error e => .ret (appendOutcome text (inserted us.length (.error e)))
  | .ok false => .ret (appendOutcome text (inserted us.length (.ok 0)))
  | .ok true => committing text id next events us

/-! ### The relation -/

/-- The call is one of the late calls of the atomic store. -/
def Late (s : Tellus.Shared A ι) : Request → Prop
  | .append id next events => ∃ d, ⟨id, next, events, d⟩ ∈ s.lateAppends
  | .save id next snapshot => ⟨id, next, snapshot⟩ ∈ s.lateSaves
  | _ => True

lemma Late.mono {s s' : Tellus.Shared A ι} {c : Request} (h : Late s c)
    (happends : ∀ a ∈ s.lateAppends, a ∈ s'.lateAppends)
    (hsaves : ∀ v ∈ s.lateSaves, v ∈ s'.lateSaves) : Late s' c := by
  cases c with
  | append id next events =>
      obtain ⟨d, hd⟩ := h
      exact ⟨d, happends _ hd⟩
  | save id next snapshot => exact hsaves _ h
  | read | load => trivial

/-- The tables hold what the atomic store holds, the decisions are the same, and every orphan is a
late call. -/
structure Represents (s : Tellus.Shared A ι) (t : PgShared A ι) : Prop where
  agrees : Agrees s.store t.db.tables
  decisions : s.decisions = t.decisions
  sent : ∀ o ∈ t.db.orphans, Sent o.request t.db.tables o.op
  late : ∀ o ∈ t.db.orphans, Late s o.request

/-- An operation which has not begun, or a conditional `INSERT` whose guard has passed. -/
inductive Pending (text : Error → String) (t : PgShared A ι) :
    (op : Tellus.Op A) → Prog (PgOp A) PgOp.Ans op.Ans → Prop
  | begun (op : Tellus.Op A) : Pending text t op (overPostgres text op)
  | guarded {id : PersistenceId} {next : SeqNo} {events : List EncodedEvent}
      {us : List Unnested}
      (h : Sent (.append id next events) t.db.tables (.append (.commit id us))) :
      Pending text t (.append id next events) (committing text id next events us)

/-! ### Growing -/

lemma executes_grows {i : ι} {c : Request} {s s' : Shared ι} {op : Op} {x : op.Ans}
    (h : Executes i c s op x s') : Grows s.tables s'.tables := by
  cases h with
  | commit => exact grows_withRows _
  | upsertSnapshot => exact grows_upsertSnapshot _ _
  | _ => exact grows_refl _

lemma orphaned_grows {s s' : Shared ι} (h : Orphaned s s') : Grows s.tables s'.tables := by
  cases h with
  | commit => exact grows_withRows _
  | upsertSnapshot => exact grows_upsertSnapshot _ _
  | _ => exact grows_refl _

lemma Pending.mono {t t' : PgShared A ι} {op : Tellus.Op A}
    {q : Prog (PgOp A) PgOp.Ans op.Ans} (h : Pending text t op q)
    (hgrows : Grows t.db.tables t'.db.tables) : Pending text t' op q := by
  cases h with
  | begun op => exact .begun op
  | guarded h => exact .guarded (h.mono hgrows)

/-! ### Steps of the database -/

variable {ident : ι → PersistenceId} {i : ι} {s : Tellus.Shared A ι} {t : PgShared A ι}
  {id : PersistenceId} {next : SeqNo} {events : List EncodedEvent} {us : List Unnested}

/-- What stays of the relation when the tables grow and some orphans are done. -/
lemma Represents.keep (h : Represents s t) {s' : Tellus.Shared A ι} {db : Shared ι}
    (hagrees : Agrees s'.store db.tables) (hdecisions : s'.decisions = s.decisions)
    (happends : ∀ a ∈ s.lateAppends, a ∈ s'.lateAppends)
    (hsaves : ∀ v ∈ s.lateSaves, v ∈ s'.lateSaves) (hgrows : Grows t.db.tables db.tables)
    (horphans : ∀ o ∈ db.orphans, o ∈ t.db.orphans) :
    Represents s' { t with db } where
  agrees := hagrees
  decisions := hdecisions.trans h.decisions
  sent := fun o ho => (h.sent o (horphans o ho)).mono hgrows
  late := fun o ho => (h.late o (horphans o ho)).mono happends hsaves

/-- A statement which changes nothing the atomic store would know of. -/
lemma Represents.unnoticed (h : Represents s t) (order : List ι) :
    Represents s { t with db := { t.db with order } } :=
  h.keep h.agrees rfl (fun _ ha => ha) (fun _ hv => hv) (grows_refl _) fun _ ho => ho

/-- A commit is an append to the atomic store. -/
lemma Represents.append (h : Represents s t)
    (hsent : Sent (.append id next events) t.db.tables (.append (.commit id us)))
    (hkeys : ((t.db.tables.events ++ us.map (row id)).map Row.key).Nodup)
    (hroom : Roomy (t.db.withRows id us)) :
    ∃ store, s.store.append id next events = (.ok (), store) ∧ Fits store id ∧
      Agrees store (t.db.withRows id us) := by
  obtain ⟨next', events', hcall, hus, hne, hle⟩ := hsent
  obtain ⟨rfl, rfl⟩ : next = next' ∧ events = events' := by simpa using hcall
  have hlen : us.length = events.length := by
    simpa using congrArg List.length (unnested_eq id hus)
  -- the stream has room for the batch, so its numbers are within `BIGINT`
  have hbound : WithinBigint (next.toNat + events.length) := by
    have := hroom id
    rw [Shared.withRows, rowsOf_append, rowsOf_rows, if_pos rfl, List.length_append,
      List.length_map, hlen] at this
    simp only [WithinBigint, bigintMax, vecMax] at this ⊢
    omega
  rw [h.agrees.length_rows] at hle
  have hnext := h.agrees.next_eq hbound hus hne hle hkeys
  have hextend := h.agrees.extend hnext hbound
  refine ⟨_, InMemoryStore.append_eq (h.agrees.fits id) next events |>.trans (if_pos hnext),
    hextend.fits id, ?_⟩
  rw [Shared.withRows, unnested_stored hbound hus]
  exact hextend

/-- An orphan is left behind for a call which becomes a late one. -/
lemma Represents.orphan (h : Represents s t) {s' : Tellus.Shared A ι} {o : Orphan ι}
    (hstore : s'.store = s.store) (hdecisions : s'.decisions = s.decisions)
    (happends : ∀ a ∈ s.lateAppends, a ∈ s'.lateAppends)
    (hsaves : ∀ v ∈ s.lateSaves, v ∈ s'.lateSaves)
    (hsent : Sent o.request t.db.tables o.op) (hlate : Late s' o.request) :
    Represents s' { t with db := { t.db with orphans := o :: t.db.orphans } } := by
  have hkept : Represents s' { t with db := t.db } :=
    h.keep (hstore ▸ h.agrees) hdecisions happends hsaves (grows_refl _) fun _ ho => ho
  refine ⟨hkept.agrees, hkept.decisions, fun o' ho' => ?_, fun o' ho' => ?_⟩
  · rcases List.mem_cons.mp ho' with rfl | ho'
    · exact hsent
    · exact hkept.sent o' ho'
  · rcases List.mem_cons.mp ho' with rfl | ho'
    · exact hlate
    · exact hkept.late o' ho'

/-! ### The store calls are atomic -/

variable [DecidableEq ι]

/-- A call of the store. -/
def isStore : Tellus.Op A → Bool
  | .load _ => true
  | .read _ _ _ => true
  | .append _ _ _ => true
  | .save _ _ _ => true
  | _ => false

/-- What is not a store call is answered by the application as on the atomic store. -/
lemma Answers.exec {op : Tellus.Op A} {x : op.Ans} (h : Answers ident i op x)
    (hop : isStore op = false) (s : Tellus.Shared A ι) :
    ∃ s', Tellus.Exec ident True i s op x s' ∧ s'.store = s.store ∧
      s'.lateAppends = s.lateAppends ∧ s'.lateSaves = s.lateSaves ∧
      s'.decisions = s.decisions ++ decided (ident i) op x := by
  have hsame : Tellus.Exec ident True i s op x s → decided (ident i) op x = [] →
      ∃ s', Tellus.Exec ident True i s op x s' ∧ s'.store = s.store ∧
        s'.lateAppends = s.lateAppends ∧ s'.lateSaves = s.lateSaves ∧
        s'.decisions = s.decisions ++ decided (ident i) op x :=
    fun hx hnil => ⟨s, hx, rfl, rfl, rfl, by rw [hnil, List.append_nil]⟩
  obtain ⟨s₀, s₀', hx⟩ := h
  cases hx with
  | load | loadFails | read | readFails | appendLands | appendConflicts | appendFails
  | appendLate | save | saveFails | saveLate => cases hop
  | persistenceId => exact hsame .persistenceId rfl
  | persistenceIdPanics => exact hsame .persistenceIdPanics rfl
  | recovered state => exact hsame (.recovered state) rfl
  | recoveredFails state h => exact hsame (.recoveredFails state h) rfl
  | handle incoming state effect =>
      exact ⟨_, .handle incoming state effect, rfl, rfl, rfl, rfl⟩
  | @handleFails incoming state r h =>
      refine hsame (.handleFails incoming state h) ?_
      cases r with
      | ok effect => cases h
      | _ => rfl
  | continuation th state r => exact hsame (.continuation th state r) rfl
  | snapshot h => exact hsame (.snapshot h) rfl
  | noSnapshot state h => exact hsame (.noSnapshot state h) rfl
  | encodeEvent h => exact hsame (.encodeEvent h) rfl
  | encodeEventFails e h => exact hsame (.encodeEventFails e h) rfl
  | encodeSnapshot h => exact hsame (.encodeSnapshot h) rfl
  | encodeSnapshotFails e h => exact hsame (.encodeSnapshotFails e h) rfl
  | stoppedByParent b => exact hsame (.stoppedByParent b) rfl
  | nextIncoming held r => exact hsame (.nextIncoming held r) rfl
  | awaitRestart b => exact hsame (.awaitRestart b) rfl

/-- What a step of a store call comes to: it goes unnoticed, or it answers the call. -/
def StepsTo (ident : ι → PersistenceId) (text : Error → String) (i : ι) (s : Tellus.Shared A ι)
    (op : Tellus.Op A) (q : Prog (PgOp A) PgOp.Ans op.Ans) (t : PgShared A ι) : Prop :=
  (Represents s t ∧ Pending text t op q) ∨
    ∃ x s', q = .ret x ∧ Tellus.Exec ident True i s op x s' ∧ Represents s' t

/-! ### The programs of the calls -/

section Programs

variable {start : SeqNo} {limit : ℕ} {snapshot : EncodedSnapshot} {n : ℤ} {e : Error}

lemma overPostgres_load : overPostgres (A := A) text (.load id) =
    .call (.sql (.load id) (.selectSnapshot id)) fun y => .ret (storeOutcome text (loaded y)) := by
  refine congrArg (Prog.call _) (funext fun y => ?_)
  rcases y with e | _ | r <;> rfl

lemma overPostgres_read (h : intoBigint start = .ok n) :
    overPostgres (A := A) text (.read id start limit) =
      .call (.sql (.read id start limit) (.selectEvents id n (min limit (2 ^ 63 - 1)))) fun y =>
        .ret (storeOutcome text (selected y)) := by
  rw [overPostgres, read, h]
  refine congrArg (Prog.call _) (funext fun y => ?_)
  rcases y with e | rows <;> rfl

lemma overPostgres_read_error (h : intoBigint start = .error e) :
    overPostgres (A := A) text (.read id start limit) = .ret (.err (text e)) := by
  rw [overPostgres, read, h]
  rfl

lemma overPostgres_save (h : intoBigint next = .ok n) :
    overPostgres (A := A) text (.save id next snapshot) =
      .call (.sql (.save id next snapshot) (.upsertSnapshot id (snapshotRow id ⟨next, snapshot⟩)))
        fun y => .ret (storeOutcome text (upserted y)) := by
  rw [overPostgres, save, h]
  obtain rfl := intoBigint_eq h
  refine congrArg (Prog.call _) (funext fun y => ?_)
  rcases y with e | rows <;> rfl

lemma overPostgres_save_error (h : intoBigint next = .error e) :
    overPostgres (A := A) text (.save id next snapshot) = .ret (.err (text e)) := by
  rw [overPostgres, save, h]
  rfl

lemma overPostgres_append_error (h : intoBigint next = .error e) :
    overPostgres (A := A) text (.append id next events) = .ret (.err (.store (text e))) := by
  rw [overPostgres, append, h]
  rfl

lemma overPostgres_append_nil (h : intoBigint next = .ok n) :
    overPostgres (A := A) text (.append id next []) =
      .call (.sql (.append id next []) (.append (.selectNext id))) fun y =>
        .ret (appendOutcome text (compared n y)) := by
  rw [overPostgres, append, h]
  refine congrArg (Prog.call _) (funext fun y => ?_)
  rcases y with e | actual
  · rfl
  · by_cases hactual : actual = n
    · simp [compared, hactual]
    · simp [compared, hactual]

lemma overPostgres_append_unnested (h : intoBigint next = .ok n) (hne : events ≠ [])
    (hus : unnested n 0 events = .error e) :
    overPostgres (A := A) text (.append id next events) = .ret (.err (.store (text e))) := by
  have hempty : events.isEmpty = false := by simpa using hne
  rw [overPostgres, append, h]
  dsimp only
  rw [hempty, hus]
  rfl

lemma overPostgres_append (h : intoBigint next = .ok n) (hne : events ≠ [])
    (hus : unnested n 0 events = .ok us) :
    overPostgres (A := A) text (.append id next events) =
      .call (.sql (.append id next events) (.append (.guard id n)))
        (guarded text id next events us) := by
  have hempty : events.isEmpty = false := by simpa using hne
  rw [overPostgres, append, h]
  dsimp only
  rw [hempty, hus]
  refine congrArg (Prog.call _) (funext fun y => ?_)
  rcases y with e | _ | _
  · rw [guarded, inserted]
    cases hviolation : isUniqueViolation e <;> simp [query, executeFor, hviolation]
  · rw [guarded, inserted]
    by_cases h0 : 0 = us.length <;> simp [query, executeFor, h0]
  · refine congrArg (Prog.call _) (funext fun y => ?_)
    rcases y with e | done
    · rw [inserted]
      cases hviolation : isUniqueViolation e <;> simp [hviolation]
    · rw [inserted]
      by_cases hdone : done = us.length <;> simp [hdone]

lemma overPostgres_app {op : Tellus.Op A} (hop : isStore op = false) :
    overPostgres text op = Prog.op (PgOp.app op) := by
  cases op with
  | load | read | append | save => cases hop
  | _ => rfl

/-- A store call issues a statement, or fails before any. -/
lemma overPostgres_store (text : Error → String) {op : Tellus.Op A} (hop : isStore op = true) :
    (∃ x, overPostgres text op = .ret x ∧ ∀ {ι : Type} [DecidableEq ι] (ident : ι → PersistenceId)
      (i : ι) (s : Tellus.Shared A ι), Tellus.Exec ident True i s op x s) ∨
      ∃ c o k, overPostgres text op = .call (.sql c o) k := by
  cases op with
  | load id => exact .inr ⟨_, _, _, overPostgres_load⟩
  | read id start limit =>
      cases hstart : intoBigint start with
      | ok n => exact .inr ⟨_, _, _, overPostgres_read hstart⟩
      | error e =>
          exact .inl ⟨_, overPostgres_read_error hstart, fun _ _ _ => .readFails id start limit rfl⟩
  | save id next snapshot =>
      cases hnext : intoBigint next with
      | ok n => exact .inr ⟨_, _, _, overPostgres_save hnext⟩
      | error e =>
          exact .inl ⟨_, overPostgres_save_error hnext,
            fun _ _ _ => .saveFails id next snapshot rfl⟩
  | append id next events =>
      cases hnext : intoBigint next with
      | error e =>
          exact .inl ⟨_, overPostgres_append_error hnext,
            fun _ _ _ => .appendFails id next events rfl⟩
      | ok n =>
          by_cases hne : events = []
          · subst hne
            exact .inr ⟨_, _, _, overPostgres_append_nil hnext⟩
          cases hus : unnested n 0 events with
          | ok us => exact .inr ⟨_, _, _, overPostgres_append hnext hne hus⟩
          | error e =>
              exact .inl ⟨_, overPostgres_append_unnested hnext hne hus,
                fun _ _ _ => .appendFails id next events rfl⟩
  | _ => cases hop

end Programs

/-! ### The steps of the calls -/

section Steps

variable {o : PgOp A} {y : o.Ans} {t' : PgShared A ι} {start : SeqNo} {limit : ℕ}
  {snapshot : EncodedSnapshot}

/-- A load is answered by its one statement. -/
lemma load_steps (h : Represents s t)
    {k : o.Ans → Prog (PgOp A) PgOp.Ans (Outcome String (Option StoredSnapshot))}
    (hq : overPostgres text (.load id) = .call o k) (hx : PgExec ident i t o y t') :
    StepsTo ident text i s (.load id) (k y) t' := by
  rw [overPostgres_load] at hq
  cases hq
  cases hx with
  | sql hx hroom =>
      cases hx with
      | selectSnapshotFails _ e => exact .inr ⟨_, s, rfl, .loadFails id rfl, h⟩
      | selectSnapshot _ =>
          refine .inr ⟨.ok (s.store.load id), s, ?_, .load id, h.unnoticed _⟩
          rw [h.agrees.find_snapshot]
          exact congrArg (fun r => Prog.ret (storeOutcome text r)) (loaded_map id (s.store.load id))

/-- So is a read. -/
lemma read_steps (h : Represents s t)
    {k : o.Ans → Prog (PgOp A) PgOp.Ans (Outcome String (List StoredEvent))}
    (hq : overPostgres text (.read id start limit) = .call o k) (hx : PgExec ident i t o y t') :
    StepsTo ident text i s (.read id start limit) (k y) t' := by
  cases hstart : intoBigint start with
  | error e =>
      rw [overPostgres_read_error hstart] at hq
      cases hq
  | ok n =>
      rw [overPostgres_read hstart] at hq
      obtain rfl := intoBigint_eq hstart
      cases hq
      cases hx with
      | sql hx hroom =>
          cases hx with
          | selectEventsFails _ _ _ e =>
              exact .inr ⟨_, s, rfl, .readFails id start limit rfl, h⟩
          | selectEvents _ _ _ =>
              refine .inr ⟨.ok (s.store.read id start limit), s, ?_, .read id start limit,
                h.unnoticed _⟩
              exact congrArg (fun r => Prog.ret (storeOutcome text r))
                (h.agrees.mapM_selectEvents start limit)

/-- A save is answered by its one statement, or becomes a late one. -/
lemma save_steps (h : Represents s t)
    {k : o.Ans → Prog (PgOp A) PgOp.Ans (Outcome String Unit)}
    (hq : overPostgres text (.save id next snapshot) = .call o k)
    (hx : PgExec ident i t o y t') : StepsTo ident text i s (.save id next snapshot) (k y) t' := by
  cases hnext : intoBigint next with
  | error e =>
      rw [overPostgres_save_error hnext] at hq
      cases hq
  | ok n =>
      rw [overPostgres_save hnext] at hq
      cases hq
      cases hx with
      | sql hx hroom =>
          cases hx with
          | upsertSnapshotFails _ _ e =>
              exact .inr ⟨_, _, rfl, .saveLate id next snapshot rfl,
                h.orphan rfl rfl (fun _ ha => ha) (fun _ hv => List.mem_cons_of_mem _ hv)
                  ⟨next, snapshot, rfl, rfl⟩ List.mem_cons_self⟩
          | upsertSnapshot _ _ =>
              exact .inr ⟨_, _, rfl, .save id next snapshot _,
                h.keep (h.agrees.upsert next snapshot) rfl (fun _ ha => ha) (fun _ hv => hv)
                  (grows_upsertSnapshot _ _) fun _ ho => ho⟩

/-- An append of nothing is answered by its one statement. -/
lemma append_nil_steps (h : Represents s t) {n : ℤ} (hnext : intoBigint next = .ok n)
    {y : Except SqlxError ℤ}
    (hx : PgExec ident i t (.sql (.append id next []) (.append (.selectNext id))) y t') :
    StepsTo ident text i s (.append id next []) (.ret (appendOutcome text (compared n y))) t' := by
  obtain rfl := intoBigint_eq hnext
  cases hx with
  | sql hx hroom =>
      cases hx with
      | selectNextFails _ e => exact .inr ⟨_, s, rfl, .appendFails id next [] rfl, h⟩
      | selectNext hn =>
          rw [h.agrees.coalesceMax] at hn
          obtain rfl := Option.some.inj hn
          by_cases hsame : next.toNat = (s.store.streams id).length
          · have hstore : s.store.append id next [] = (.ok (), s.store) := by
              rw [InMemoryStore.append_eq (h.agrees.fits id), if_pos hsame]
              simp [InMemoryStore.stored]
            refine .inr ⟨.ok (), _, ?_, .appendLands hstore (h.agrees.fits id),
              (h.unnoticed _).keep h.agrees rfl (fun _ ha => ha) (fun _ hv => hv) (grows_refl _)
                fun _ ho => ho⟩
            rw [compared, if_pos (congrArg Nat.cast hsame.symm)]
            rfl
          · refine .inr ⟨.err .conflict, s, ?_, .appendFails id next [] rfl, h.unnoticed _⟩
            rw [compared, if_neg (by omega)]
            rfl

/-- A commit appends, is a conflict, or becomes a late append. -/
lemma commit_steps (h : Represents s t)
    (hsent : Sent (.append id next events) t.db.tables (.append (.commit id us)))
    {y : Except SqlxError ℕ}
    (hx : PgExec ident i t (.sql (.append id next events) (.append (.commit id us))) y t') :
    StepsTo ident text i s (.append id next events)
      (.ret (appendOutcome text (inserted us.length y))) t' := by
  cases hx with
  | sql hx hroom =>
      cases hx with
      | commit hkeys =>
          obtain ⟨store, happend, hfits, hagrees⟩ := h.append hsent hkeys hroom
          refine .inr ⟨.ok (), _, ?_, .appendLands happend hfits,
            h.keep hagrees rfl (fun _ ha => ha) (fun _ hv => hv) (grows_withRows us)
              fun _ ho => ho⟩
          rw [inserted, if_pos rfl]
          rfl
      | violation hkeys =>
          exact .inr ⟨.err .conflict, s, rfl, .appendFails id next events rfl, h.unnoticed _⟩
      | commitFails _ _ he =>
          refine .inr ⟨_, _, rfl, .appendLate trivial id next events ?_,
            h.orphan rfl rfl (fun _ ha => List.mem_cons_of_mem _ ha) (fun _ hv => hv) hsent
              ⟨s.latest i, List.mem_cons_self⟩⟩
          rw [inserted, he]
          rfl

/-- An append which has not begun. -/
lemma append_steps (h : Represents s t)
    {k : o.Ans → Prog (PgOp A) PgOp.Ans (Outcome (AppendError String) Unit)}
    (hq : overPostgres text (.append id next events) = .call o k)
    (hx : PgExec ident i t o y t') :
    StepsTo ident text i s (.append id next events) (k y) t' := by
  cases hnext : intoBigint next with
  | error e =>
      rw [overPostgres_append_error hnext] at hq
      cases hq
  | ok n =>
      by_cases hne : events = []
      · subst hne
        rw [overPostgres_append_nil hnext] at hq
        cases hq
        exact append_nil_steps h hnext hx
      cases hus : unnested n 0 events with
      | error e =>
          rw [overPostgres_append_unnested hnext hne hus] at hq
          cases hq
      | ok us =>
          rw [overPostgres_append hnext hne hus] at hq
          obtain rfl := intoBigint_eq hnext
          cases hq
          have hsent : Sent (.append id next events) t.db.tables
              (.append (.guard id next.toNat)) := ⟨next, events, rfl, rfl, hne⟩
          cases hx with
          | sql hx hroom =>
              cases hx with
              | guard hn =>
                  exact .inl ⟨h, .guarded (hsent.guarded h.agrees ⟨next, events, rfl, rfl, hus⟩ hn)⟩
              | guardRejects hn hstale =>
                  have hlen : (0 : ℕ) ≠ us.length := by
                    have := congrArg List.length (unnested_eq id hus)
                    rw [List.length_map, List.length_mapIdx] at this
                    rw [this]
                    exact fun h0 => hne (List.eq_nil_of_length_eq_zero h0.symm)
                  refine .inr ⟨.err .conflict, s, ?_, .appendFails id next events rfl,
                    h.unnoticed _⟩
                  rw [guarded, inserted, if_neg hlen]
                  rfl
              | guardFails _ _ he =>
                  refine .inr ⟨_, _, rfl, .appendLate trivial id next events ?_,
                    h.orphan rfl rfl (fun _ ha => List.mem_cons_of_mem _ ha) (fun _ hv => hv)
                      hsent ⟨s.latest i, List.mem_cons_self⟩⟩
                  rw [inserted, he]
                  rfl

/-- What is not a store call is answered at once. -/
lemma app_steps (h : Represents s t) {op : Tellus.Op A} (hop : isStore op = false)
    {k : o.Ans → Prog (PgOp A) PgOp.Ans op.Ans}
    (hq : overPostgres text op = .call o k) (hx : PgExec ident i t o y t') :
    StepsTo ident text i s op (k y) t' := by
  rw [overPostgres_app hop] at hq
  cases hq
  cases hx with
  | app hx =>
      obtain ⟨s', hexec, hstore, happends, hsaves, hdecisions⟩ := hx.exec hop s
      refine .inr ⟨_, s', rfl, hexec, hstore ▸ h.agrees, hdecisions.trans (by rw [h.decisions]),
        h.sent, fun o ho => ?_⟩
      exact (h.late o ho).mono (fun _ ha => happends ▸ ha) fun _ hv => hsaves ▸ hv

/-- **Every step of a call** goes unnoticed or answers it. -/
lemma Pending.steps (h : Represents s t) {op : Tellus.Op A}
    {q : Prog (PgOp A) PgOp.Ans op.Ans} (hpending : Pending text t op q)
    {k : o.Ans → Prog (PgOp A) PgOp.Ans op.Ans} (hq : q = .call o k)
    (hx : PgExec ident i t o y t') : StepsTo ident text i s op (k y) t' := by
  cases hpending with
  | guarded hsent =>
      cases hq
      exact commit_steps h hsent hx
  | begun =>
      cases op with
      | load id => exact load_steps h hq hx
      | read id start limit => exact read_steps h hq hx
      | append id next events => exact append_steps h hq hx
      | save id next snapshot => exact save_steps h hq hx
      | _ => exact app_steps h rfl hq hx

/-- A call which issues no statement has failed on its own. -/
lemma Pending.answered {op : Tellus.Op A} {q : Prog (PgOp A) PgOp.Ans op.Ans} {x : op.Ans}
    (hpending : Pending text t op q) (hq : q = .ret x) (s : Tellus.Shared A ι) :
    Tellus.Exec ident True i s op x s := by
  cases hpending with
  | guarded hsent => cases hq
  | begun =>
      cases hop : isStore op with
      | false =>
          rw [overPostgres_app hop] at hq
          cases hq
      | true =>
          rcases overPostgres_store text hop with ⟨x', hx', hfails⟩ | ⟨c, o, k, hcall⟩
          · rw [hx'] at hq
            cases hq
            exact hfails ident i s
          · rw [hcall] at hq
            cases hq

omit [DecidableEq ι] in
/-- A task which asks its application or its surroundings does so on the atomic store too. -/
lemma Pending.app {op op' : Tellus.Op A} {q : Prog (PgOp A) PgOp.Ans op.Ans}
    {k : (PgOp.app op').Ans → Prog (PgOp A) PgOp.Ans op.Ans} (hpending : Pending text t op q)
    (hq : q = .call (.app op') k) : op = op' := by
  cases hpending with
  | guarded hsent => cases hq
  | begun =>
      cases hop : isStore op with
      | false =>
          rw [overPostgres_app hop] at hq
          cases hq
          rfl
      | true =>
          rcases overPostgres_store text hop with ⟨x', hx', -⟩ | ⟨c, o, k, hcall⟩
          · rw [hx'] at hq
            cases hq
          · rw [hcall] at hq
            cases hq

omit [DecidableEq ι] in
/-- **What an orphan does** goes unnoticed, or is what a late call does. -/
lemma orphan_steps (h : Represents s t) (hx : PgEnv t t') :
    Represents s t' ∨ ∃ s', Tellus.Env False s s' ∧ Represents s' t' := by
  cases hx with
  | orphaned hx hroom =>
      cases hx with
      | @guard i c id n us before later ho hbinds hn =>
          have hmem : (⟨i, c, .append (.guard id n)⟩ : Orphan ι) ∈ t.db.orphans := by
            rw [ho]
            simp
          have hothers : ∀ o ∈ before ++ ⟨i, c, .append (.commit id us)⟩ :: later,
              o ∈ t.db.orphans ∨ o = ⟨i, c, .append (.commit id us)⟩ := by
            intro o ho'
            rw [List.mem_append, List.mem_cons] at ho'
            rw [ho, List.mem_append, List.mem_cons]
            tauto
          refine .inl ⟨h.agrees, h.decisions, fun o ho' => ?_, fun o ho' => ?_⟩
          · rcases hothers o ho' with ho' | rfl
            · exact h.sent o ho'
            · exact (h.sent _ hmem).guarded h.agrees hbinds hn
          · rcases hothers o ho' with ho' | rfl
            · exact h.late o ho'
            · have hlate := h.late _ hmem
              exact hlate
      | @commit i c id us before later ho hkeys =>
          have hmem : (⟨i, c, .append (.commit id us)⟩ : Orphan ι) ∈ t.db.orphans := by
            rw [ho]
            simp
          have hsent := h.sent _ hmem
          have hlate := h.late _ hmem
          obtain ⟨next, events, hc, -⟩ := h.sent _ hmem
          dsimp only at hc hsent hlate
          rw [hc] at hsent hlate
          obtain ⟨d, hd⟩ := hlate
          obtain ⟨store, happend, hfits, hagrees⟩ := h.append hsent hkeys hroom
          exact .inr ⟨_, .lateAppend hd happend hfits,
            h.keep hagrees rfl (fun _ ha => ha) (fun _ hv => hv) (grows_withRows us)
              fun _ => mem_orphans ho⟩
      | @upsertSnapshot i c id r before later ho =>
          have hmem : (⟨i, c, .upsertSnapshot id r⟩ : Orphan ι) ∈ t.db.orphans := by
            rw [ho]
            simp
          obtain ⟨next, snapshot, hc, rfl⟩ := h.sent _ hmem
          have hlate := h.late _ hmem
          dsimp only at hc
          rw [hc] at hlate
          exact .inr ⟨_, .lateSave hlate,
            h.keep (h.agrees.upsert next snapshot) rfl (fun _ ha => ha) (fun _ hv => hv)
              (grows_upsertSnapshot _ _) fun _ => mem_orphans ho⟩
      | gone ho =>
          exact .inl (h.keep h.agrees rfl (fun _ ha => ha) (fun _ hv => hv) (grows_refl _)
            fun _ => mem_orphans ho)

end Steps

/-- **The store calls are atomic**: the tables and the statements under way are those of the store
of `Tellus.Exec`, with late appends and saves and without foreign writers. -/
def atomicStore (ident : ι → PersistenceId) (text : Error → String) :
    Atomic (Tellus.Exec (A := A) ident True) (Tellus.Env False) (PgExec ident) PgEnv
      (overPostgres text) where
  rel := Represents
  pending := fun _ op q t => Pending text t op q
  grows := fun t t' => Grows t.db.tables t'.db.tables
  exec_grows := fun _ _ _ _ _ hx => by
    cases hx with
    | app => exact grows_refl _
    | sql hx => exact executes_grows hx
  env_grows := fun _ _ hx => by
    cases hx with
    | orphaned hx => exact orphaned_grows hx
  pending_mono := fun _ _ _ _ _ h hgrows => h.mono hgrows
  start := fun _ op _ _ _ => .begun op
  answered := fun _ _ _ s _ h hpending => ⟨s, hpending.answered rfl s, h⟩
  step := fun _ _ _ _ _ _ _ _ h hpending hx => hpending.steps h rfl hx
  step_env := fun _ _ _ h hx => orphan_steps h hx

/-! ### Every run -/

variable {st : Tasks ι (PgOp A) PgOp.Ans (PgShared A ι) (Point A)}

/-- A run on the database is a run on the atomic store. -/
lemma PgReachable.refines (h : PgReachable A ident text st) :
    ∃ abs, Tellus.Reachable A ident True False abs ∧ (atomicStore ident text).Sim abs st := by
  have hinit : (atomicStore ident text).Sim (Incarnations.init A) (PgActors.init A) :=
    ⟨⟨Agrees.empty, rfl, fun _ ho => absurd ho List.not_mem_nil,
      fun _ ho => absurd ho List.not_mem_nil⟩, fun _ => .ret _⟩
  exact Atomic.refines (fun _ => grows_refl _) hinit h

/-- **Event-sourced actors on the PostgreSQL store do what they do on an atomic one.**  However the
statements of their store calls interleave, and whatever becomes of statements which were reported
as failed: there is a run of the same incarnations on the atomic store with the same decisions,
whose store is what the tables hold.  So every stream is the concatenation of the whole event lists
of distinct decisions, each of them taken on the fold of exactly the events before, every snapshot
stands for the events before its position, and an incarnation which waits for its next incoming
has the state of the rows before its own. -/
theorem postgres_serialises_decisions (h : PgReachable A ident text st) :
    ∃ abs, Tellus.Reachable A ident True False abs ∧
      Agrees abs.shared.store st.shared.db.tables ∧
      abs.shared.decisions = st.shared.decisions ∧
      (∀ id, Serialised abs.shared id ∧
        ∀ stored, abs.shared.store.load id = some stored →
          Covers abs.shared id stored.nextSeqNo stored.snapshot) ∧
      ∀ i r k, st.task i = .call (.app (.nextIncoming r)) k →
        r.id = ident i ∧ FoldsTo abs.shared (ident i) r.nextSeqNo r.state := by
  obtain ⟨abs, habs, hsim⟩ := h.refines
  obtain ⟨hinv, hsafe⟩ := habs.good
  refine ⟨abs, habs, hsim.rel.agrees, hsim.rel.decisions,
    fun id => ⟨hinv.serial not_false id, hinv.snapshots id⟩, fun i r k hwait => ?_⟩
  have hsync := hsim.synced i
  rw [hwait] at hsync
  generalize hp : abs.task i = p at hsync
  cases hsync with
  | call hpending =>
      obtain rfl := Pending.app hpending rfl
      have hi := hsafe i
      rw [hp] at hi
      obtain ⟨⟨hid, hfolds⟩, -⟩ := hi.pre hinv
      exact ⟨hid, hid ▸ hfolds⟩

/-! ### An order -/

/-- The number of times an order was placed. -/
def order : EventSourced PersistenceId where
  Command := Unit
  Event := Unit
  State := ℕ
  Snapshot := Empty
  Error := Unit
  Then := Empty
  event := .current "placed" ⟨1⟩ fun _ => some ()
  snapshot := .current "none" ⟨1⟩ fun _ => none
  init := fun _ => .ok 0
  initFromSnapshot := fun _ s => nomatch s
  apply := fun _ n _ => some (n + (1 : ℕ))

/-- The row of its first event. -/
def placed : Unnested := ⟨0, "placed", 1, []⟩

/-- The first incarnation is told that its append has failed, which commits all the same; the
second one recovers the order as placed and waits for its next incoming. -/
lemma order_run : ∃ st, PgReachable order (fun _ : Bool => orderId) (fun _ => "") st ∧
    st.shared.db.tables.events = [row orderId placed] ∧
    ∃ k, st.task false = .call (.app (.nextIncoming ⟨orderId, (1 : ℕ), SeqNo.new 1⟩)) k := by
  have happ : ∀ {i : Bool} {s : PgShared order Bool} {op : Tellus.Op order} {x : op.Ans},
      Tellus.Exec (fun _ => orderId) True i (Tellus.Shared.init : Tellus.Shared order Bool) op x
        Tellus.Shared.init →
      PgExec (fun _ => orderId) i s (.app op) x
        { s with decisions := s.decisions ++ decided orderId op x } :=
    fun h => .app ⟨_, _, h⟩
  have hselects : ∀ {i : Bool} {c : Request} {s : Shared Bool} {rows : List Row},
      s.tables.selectEvents orderId 0 512 = rows →
      Executes i c s (.selectEvents orderId 0 512) (.ok rows) (s.takes i s.tables) := by
    rintro i c s rows rfl
    exact .selectEvents orderId 0 512
  have hnone : Tables.empty.selectEvents orderId 0 512 = [] := by
    simp [Tables.selectEvents, Tables.empty]
  have hone : (⟨[row orderId placed], []⟩ : Tables).selectEvents orderId 0 512 =
      [row orderId placed] := by
    simp [Tables.selectEvents, row, placed]
  have hencode : Tellus.Exec (fun _ => orderId) True true
      (Tellus.Shared.init : Tellus.Shared order Bool) (.encodeEvent ()) (.ok [])
        Tellus.Shared.init := .encodeEvent rfl
  have hempty : Roomy Tables.empty := fun _ => Nat.zero_le _
  have hroom : Roomy ⟨[row orderId placed], []⟩ := fun id =>
    (List.length_filter_le _ _).trans (by norm_num [vecMax])
  have hfree : ((([] : List Row) ++ [placed].map (row orderId)).map Row.key).Nodup := by simp
  have h : PgReachable order (fun _ : Bool => orderId) (fun _ => "") (PgActors.init order) := .refl
  have h : PgReachable order _ _ _ := h.tail (.jump true rfl)
  have h : PgReachable order _ _ _ := h.tail (.answer true rfl (happ (.stoppedByParent false)))
  have h : PgReachable order _ _ _ := h.tail (.answer true rfl (happ .persistenceId))
  have h : PgReachable order _ _ _ := h.tail (.answer true rfl (happ (.stoppedByParent false)))
  have h : PgReachable order _ _ _ :=
    h.tail (.answer true rfl (.sql (.selectSnapshot orderId) hempty))
  have h : PgReachable order _ _ _ := h.tail (.answer true rfl (happ (.stoppedByParent false)))
  have h : PgReachable order _ _ _ := h.tail (.jump true rfl)
  have h : PgReachable order _ _ _ := h.tail (.answer true rfl (happ (.stoppedByParent false)))
  have h : PgReachable order _ _ _ :=
    h.tail (.answer true rfl (.sql (hselects (show _ = [] from hnone)) hempty))
  have h : PgReachable order _ _ _ := h.tail (.answer true rfl (happ (.stoppedByParent false)))
  have h : PgReachable order _ _ _ := h.tail (.jump true rfl)
  have h : PgReachable order _ _ _ := h.tail (.answer true rfl (happ (.recovered _)))
  have h : PgReachable order _ _ _ := h.tail (.jump true rfl)
  have h : PgReachable order _ _ _ :=
    h.tail (.answer true rfl (happ (.nextIncoming _ (some (.message ())))))
  have h : PgReachable order _ _ _ :=
    h.tail (.answer true rfl (.app ⟨Tellus.Shared.init, _, .handle _ _ ⟨[()], false, []⟩⟩))
  have h : PgReachable order _ _ _ := h.tail (.answer true rfl (happ hencode))
  have h : PgReachable order _ _ _ := h.tail (.answer true rfl (.sql (.guard rfl) hempty))
  have h : PgReachable order _ _ _ :=
    h.tail (.answer true rfl (.sql (.commitFails orderId _ (e := .connection) rfl) hempty))
  have h : PgReachable order _ _ _ := h.tail (.jump false rfl)
  have h : PgReachable order _ _ _ := h.tail (.answer false rfl (happ (.stoppedByParent false)))
  have h : PgReachable order _ _ _ := h.tail (.answer false rfl (happ .persistenceId))
  have h : PgReachable order _ _ _ :=
    h.tail (.env (.orphaned (.commit (show _ = [] ++ _ :: [] from rfl) hfree) hroom))
  have h : PgReachable order _ _ _ := h.tail (.answer false rfl (happ (.stoppedByParent false)))
  have h : PgReachable order _ _ _ :=
    h.tail (.answer false rfl (.sql (.selectSnapshot orderId) hroom))
  have h : PgReachable order _ _ _ := h.tail (.answer false rfl (happ (.stoppedByParent false)))
  have h : PgReachable order _ _ _ := h.tail (.jump false rfl)
  have h : PgReachable order _ _ _ := h.tail (.answer false rfl (happ (.stoppedByParent false)))
  have h : PgReachable order _ _ _ :=
    h.tail (.answer false rfl (.sql (hselects (show _ = [row orderId placed] from hone)) hroom))
  have h : PgReachable order _ _ _ := h.tail (.answer false rfl (happ (.stoppedByParent false)))
  have h : PgReachable order _ _ _ := h.tail (.jump false rfl)
  have h : PgReachable order _ _ _ := h.tail (.answer false rfl (happ (.recovered _)))
  have h : PgReachable order _ _ _ := h.tail (.jump false rfl)
  exact ⟨_, h, rfl, _, rfl⟩

/-- The second incarnation has the state of the row which the first one believes lost. -/
theorem postgres_serialises_order :
    ∃ st, PgReachable order (fun _ : Bool => orderId) (fun _ => "") st ∧
      st.shared.db.tables.events = [row orderId placed] ∧
      ∃ abs, Tellus.Reachable order (fun _ : Bool => orderId) True False abs ∧
        Agrees abs.shared.store st.shared.db.tables ∧
        FoldsTo abs.shared orderId (SeqNo.new 1) (1 : ℕ) := by
  obtain ⟨st, h, hrows, k, hwait⟩ := order_run
  obtain ⟨abs, habs, hagrees, -, -, hwaiting⟩ := postgres_serialises_decisions h
  exact ⟨st, h, hrows, abs, habs, hagrees, (hwaiting false _ k hwait).2⟩

end Tellus.Postgres
