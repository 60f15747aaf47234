import Mathlib.Tactic
import Tellus.Postgres.Append

/-!
The PostgreSQL store (`tellus-persistence-postgres/src/lib.rs`), called by one caller at a time.

Each call issues one statement.  The statements have their standard meaning over two tables
(`Tables`): filter, order, limit, maximum, insert and upsert.  Every position goes to a `BIGINT`
and back, every schema version to an `INT` and back.

* `Tables.answer`: the database, one operation after another.
* `storedEvent`, `storedSnapshot`, `seqNo`, `schemaVersion`: rows as the store returns them.
* `PostgresStore.append`, `read`, `save`, `load`: the four store calls.
-/

namespace Tellus.Postgres

open Concurrent

/-! ### Tables -/

/-- A row of the table `snapshots`. -/
structure SnapshotRow where
  entityType : String
  entityId : String
  nextSeqNo : ℤ
  manifest : String
  schemaVersion : ℤ
  payload : Payload
  deriving DecidableEq

/-- The two tables. -/
structure Tables where
  events : List Row
  snapshots : List SnapshotRow

/-- The tables as the migration creates them. -/
def Tables.empty : Tables := ⟨[], []⟩

/-- `TEXT` holds any string without a NUL. -/
def acceptsText (s : String) : Bool := !s.toList.contains '\x00'

/-- A text which is not one, SQLSTATE 22021. -/
def notText : SqlxError := .database (some "22021")

/-- A number which leaves its type, SQLSTATE 22003. -/
def outOfRange : SqlxError := .database (some "22003")

/-- A violated primary key. -/
def uniqueViolation : SqlxError := .database (some "23505")

/-- The database carries out an operation of a statement to which the given texts are bound. -/
def Tables.answer (texts : List String) (t : Tables) : (op : Stmt) → op.Ans × Tables
  | .selectNext id =>
      if texts.all acceptsText then
        match coalesceMax t.events id with
        | some n => (.ok n, t)
        | none => (.error outOfRange, t)
      else (.error notText, t)
  | .guard id next =>
      if texts.all acceptsText then
        match coalesceMax t.events id with
        | some n => (.ok (n == next), t)
        | none => (.error outOfRange, t)
      else (.error notText, t)
  | .commit id us =>
      if texts.all acceptsText then
        if ((t.events ++ us.map (row id)).map Row.key).Nodup then
          (.ok us.length, { t with events := t.events ++ us.map (row id) })
        else (.error uniqueViolation, t)
      else (.error notText, t)

/-- Alone with the database, a call sees nothing it could not see among others. -/
lemma Tables.answer_exec {ι : Type} (i : ι) (texts : List String) (t : Tables)
    (commits : List (Commit ι)) (op : Stmt) :
    ∃ commits', Exec i ⟨t.events, commits⟩ op (t.answer texts op).1
      ⟨(t.answer texts op).2.events, commits'⟩ := by
  cases op with
  | selectNext id =>
      simp only [answer]
      split
      · split
        · exact ⟨commits, .selectNext ‹_›⟩
        · exact ⟨commits, .selectFails id outOfRange⟩
      · exact ⟨commits, .selectFails id notText⟩
  | guard id next =>
      simp only [answer]
      split
      · split
        · exact ⟨commits, .guard next ‹_›⟩
        · exact ⟨commits, .guardFails id next outOfRange⟩
      · exact ⟨commits, .guardFails id next notText⟩
  | commit id us =>
      simp only [answer]
      split
      · split
        · exact ⟨_, .commit id ‹_›⟩
        · exact ⟨commits, .violation id ‹_›⟩
      · exact ⟨commits, .commitFails id us notText⟩

/-- `SELECT .. WHERE .. AND seq_no >= $3 ORDER BY seq_no LIMIT $4`. -/
def Tables.selectEvents (t : Tables) (id : PersistenceId) (start : ℤ) (limit : ℕ) : List Row :=
  ((t.events.filter fun r =>
      (r.entityType = id.entityType ∧ r.entityId = id.entityId) ∧ start ≤ r.seqNo).mergeSort
    fun r r' => r.seqNo ≤ r'.seqNo).take limit

/-- Whether the row is the snapshot of the given ID. -/
def SnapshotRow.isOf (id : PersistenceId) (r : SnapshotRow) : Bool :=
  r.entityType = id.entityType ∧ r.entityId = id.entityId

/-- `INSERT .. ON CONFLICT (entity_type, entity_id) DO UPDATE`. -/
def Tables.upsertSnapshot (t : Tables) (id : PersistenceId) (r : SnapshotRow) : Tables :=
  if t.snapshots.any (SnapshotRow.isOf id) then
    { t with snapshots := t.snapshots.map fun r' => if r'.isOf id then r else r' }
  else
    { t with snapshots := t.snapshots ++ [r] }

/-! ### Rows -/

/-- A column of positions as a position. -/
def seqNo (n : ℤ) : Except Error SeqNo :=
  if 0 ≤ n then .ok (SeqNo.new n.toNat) else .error .seqNoOutOfRange

/-- A column of schema versions as a schema version. -/
def schemaVersion (n : ℤ) : Except Error SchemaVersion :=
  if 0 ≤ n ∧ n < 2 ^ 16 then .ok ⟨UInt16.ofNat n.toNat⟩ else .error .schemaVersionOutOfRange

/-- A row of `events` as the store returns it. -/
def storedEvent (r : Row) : Except Error StoredEvent := do
  let no ← seqNo r.seqNo
  let version ← schemaVersion r.schemaVersion
  return ⟨no, r.manifest, version, r.payload⟩

/-- A row of `snapshots` as the store returns it. -/
def storedSnapshot (r : SnapshotRow) : Except Error StoredSnapshot := do
  let next ← seqNo r.nextSeqNo
  let version ← schemaVersion r.schemaVersion
  return ⟨next, r.manifest, version, r.payload⟩

/-! ### The store calls -/

/-- The texts of an ID. -/
def idTexts (id : PersistenceId) : List String := [id.entityType, id.entityId]

/-- Append the events at `next`. -/
def PostgresStore.append (t : Tables) (id : PersistenceId) (next : SeqNo)
    (events : List EncodedEvent) : Except (AppendError Error) Unit × Tables :=
  (Postgres.append id next events).runOn
    (Tables.answer (idTexts id ++ events.map EncodedEvent.manifest)) t

/-- Up to `limit` events from position `start` on. -/
def PostgresStore.read (t : Tables) (id : PersistenceId) (start : SeqNo) (limit : ℕ) :
    Except Error (List StoredEvent) := do
  let start ← intoBigint start
  let limit := min limit (2 ^ 63 - 1)
  if (idTexts id).all acceptsText then
    (t.selectEvents id start limit).mapM storedEvent
  else .error (.sqlx notText)

/-- Replace the snapshot. -/
def PostgresStore.save (t : Tables) (id : PersistenceId) (next : SeqNo)
    (snapshot : EncodedSnapshot) : Except Error Unit × Tables :=
  match intoBigint next with
  | .error e => (.error e, t)
  | .ok next =>
      if (idTexts id ++ [snapshot.manifest]).all acceptsText then
        (.ok (), t.upsertSnapshot id ⟨id.entityType, id.entityId, next, snapshot.manifest,
          snapshot.schemaVersion.val.toNat, snapshot.payload⟩)
      else (.error (.sqlx notText), t)

/-- The latest snapshot, if any. -/
def PostgresStore.load (t : Tables) (id : PersistenceId) : Except Error (Option StoredSnapshot) :=
  if (idTexts id).all acceptsText then
    match t.snapshots.find? (SnapshotRow.isOf id) with
    | some r => (storedSnapshot r).map some
    | none => .ok none
  else .error (.sqlx notText)

end Tellus.Postgres
