import Mathlib.Tactic
import Tellus.Lib.Linear
import Tellus.Lib.Traces
import Tellus.Postgres.Agreement

/-!
The PostgreSQL store (`tellus-persistence-postgres/src/lib.rs`), called by any number of callers at
once and over connections which may break.

Every call of `append`, `read`, `save` and `load` issues one statement over a connection of the
pool.  A statement which only reads takes effect at one point; the conditional `INSERT` has its
guard and its commit, and the statements of other calls may come in between.  When a call is told
of a failure its statement may still be under way: it is an orphan, and takes effect later or not
at all.  The database reports 23505 for a violated key and for nothing else.

* `Request.perform`: the four calls, over the statements of the database (`Op`).
* `Shared`: the tables, the order in which calls have taken effect, and the orphans.
* `Executes`, `Orphaned`: what the database does for a call, and for an orphan.
-/

namespace Tellus.Postgres

open Concurrent

/-! ### The code -/

/-- The statements, the conditional `INSERT` being cut into its guard and its commit. -/
inductive Op where
  | append (op : Stmt)
  | selectEvents (id : PersistenceId) (start : ℤ) (limit : ℕ)
  | upsertSnapshot (id : PersistenceId) (r : SnapshotRow)
  | selectSnapshot (id : PersistenceId)

/-- How a statement is answered. -/
abbrev Op.Ans : Op → Type
  | .append op => op.Ans
  | .selectEvents _ _ _ => Except SqlxError (List Row)
  | .upsertSnapshot _ _ => Except SqlxError Unit
  | .selectSnapshot _ => Except SqlxError (Option SnapshotRow)

/-- Have the database execute a statement and wait for its answer. -/
def execute (op : Op) : Prog Op Op.Ans op.Ans := Prog.op op

/-- Up to `limit` events from position `start` on. -/
def read (id : PersistenceId) (start : SeqNo) (limit : ℕ) :
    Prog Op Op.Ans (Except Error (List StoredEvent)) :=
  match intoBigint start with
  | .error e => return .error e
  | .ok start => do
      match ← execute (.selectEvents id start (min limit (2 ^ 63 - 1))) with
      | .error e => return .error (.sqlx e)
      | .ok rows => return rows.mapM storedEvent

/-- Replace the snapshot. -/
def save (id : PersistenceId) (next : SeqNo) (snapshot : EncodedSnapshot) :
    Prog Op Op.Ans (Except Error Unit) :=
  match intoBigint next with
  | .error e => return .error e
  | .ok next => do
      match ← execute (.upsertSnapshot id ⟨id.entityType, id.entityId, next, snapshot.manifest,
        snapshot.schemaVersion.val.toNat, snapshot.payload⟩) with
      | .error e => return .error (.sqlx e)
      | .ok () => return .ok ()

/-- The latest snapshot, if any. -/
def load (id : PersistenceId) : Prog Op Op.Ans (Except Error (Option StoredSnapshot)) := do
  match ← execute (.selectSnapshot id) with
  | .error e => return .error (.sqlx e)
  | .ok none => return .ok none
  | .ok (some r) => return (storedSnapshot r).map some

/-- A call. -/
def Request.perform : Request → Prog Op Op.Ans Reply
  | .append id next events => do
      let result ← (Postgres.append id next events).translate fun op => execute (.append op)
      return .append result
  | .read id start limit => do
      let result ← Postgres.read id start limit
      return .read result
  | .save id next snapshot => do
      let result ← Postgres.save id next snapshot
      return .save result
  | .load id => do
      let result ← Postgres.load id
      return .load result

/-- What a call does: it begins at some time, and ends with its reply. -/
def Request.code (c : Request) : Option Reply → Prog Op Op.Ans (Option Reply)
  | none => c.perform.bind fun reply => .ret (some reply)
  | some reply => .ret (some reply)

/-- The call was told of a failure of the store. -/
def Reply.failed : Reply → Bool
  | .append (.error (.store _)) => true
  | .read (.error _) => true
  | .save (.error _) => true
  | .load (.error _) => true
  | _ => false

/-! ### The database -/

/-- A statement under way whose call has been told of a failure. -/
structure Orphan (ι : Type) where
  call : ι
  request : Request
  op : Op

/-- The tables, the calls which have taken effect, in that order, and the orphans. -/
structure Shared (ι : Type) where
  tables : Tables
  order : List ι
  orphans : List (Orphan ι)

namespace Shared

variable {ι : Type} (s : Shared ι)

/-- Nothing has been stored. -/
def init : Shared ι := ⟨Tables.empty, [], []⟩

/-- Call `i` takes effect, leaving the tables as given. -/
def takes (i : ι) (tables : Tables) : Shared ι := { s with tables, order := s.order ++ [i] }

/-- The rows of a batch are there. -/
def withRows (id : PersistenceId) (us : List Unnested) : Tables :=
  { s.tables with events := s.tables.events ++ us.map (row id) }

end Shared

variable {ι : Type}

/-- What the database may do for call `i`, which is the given one. -/
inductive Executes (i : ι) (c : Request) (s : Shared ι) : (op : Op) → op.Ans → Shared ι → Prop
  | selectNext {id : PersistenceId} {n : ℤ} (h : coalesceMax s.tables.events id = some n) :
      Executes i c s (.append (.selectNext id)) (.ok n) (s.takes i s.tables)
  | selectNextFails (id : PersistenceId) (e : SqlxError) :
      Executes i c s (.append (.selectNext id)) (.error e) s
  | guard {id : PersistenceId} {n : ℤ} (h : coalesceMax s.tables.events id = some n) :
      Executes i c s (.append (.guard id n)) (.ok true) s
  /-- No row is inserted. -/
  | guardRejects {id : PersistenceId} {n next : ℤ} (h : coalesceMax s.tables.events id = some n)
      (hne : n ≠ next) :
      Executes i c s (.append (.guard id next)) (.ok false) (s.takes i s.tables)
  | commit {id : PersistenceId} {us : List Unnested}
      (h : ((s.tables.events ++ us.map (row id)).map Row.key).Nodup) :
      Executes i c s (.append (.commit id us)) (.ok us.length) (s.takes i (s.withRows id us))
  | violation {id : PersistenceId} {us : List Unnested}
      (h : ¬((s.tables.events ++ us.map (row id)).map Row.key).Nodup) :
      Executes i c s (.append (.commit id us)) (.error uniqueViolation) (s.takes i s.tables)
  | guardFails (id : PersistenceId) (next : ℤ) {e : SqlxError}
      (he : isUniqueViolation e = false) :
      Executes i c s (.append (.guard id next)) (.error e)
        { s with orphans := ⟨i, c, .append (.guard id next)⟩ :: s.orphans }
  | commitFails (id : PersistenceId) (us : List Unnested) {e : SqlxError}
      (he : isUniqueViolation e = false) :
      Executes i c s (.append (.commit id us)) (.error e)
        { s with orphans := ⟨i, c, .append (.commit id us)⟩ :: s.orphans }
  | selectEvents (id : PersistenceId) (start : ℤ) (limit : ℕ) :
      Executes i c s (.selectEvents id start limit) (.ok (s.tables.selectEvents id start limit))
        (s.takes i s.tables)
  | selectEventsFails (id : PersistenceId) (start : ℤ) (limit : ℕ) (e : SqlxError) :
      Executes i c s (.selectEvents id start limit) (.error e) s
  | upsertSnapshot (id : PersistenceId) (r : SnapshotRow) :
      Executes i c s (.upsertSnapshot id r) (.ok ()) (s.takes i (s.tables.upsertSnapshot id r))
  | upsertSnapshotFails (id : PersistenceId) (r : SnapshotRow) (e : SqlxError) :
      Executes i c s (.upsertSnapshot id r) (.error e)
        { s with orphans := ⟨i, c, .upsertSnapshot id r⟩ :: s.orphans }
  | selectSnapshot (id : PersistenceId) :
      Executes i c s (.selectSnapshot id) (.ok (s.tables.snapshots.find? (SnapshotRow.isOf id)))
        (s.takes i s.tables)
  | selectSnapshotFails (id : PersistenceId) (e : SqlxError) :
      Executes i c s (.selectSnapshot id) (.error e) s

/-- The arrays bound to the conditional `INSERT` of a call. -/
def Request.Binds (c : Request) (id : PersistenceId) (next : ℤ) (us : List Unnested) : Prop :=
  ∃ n events, c = .append id n events ∧ next = n.toNat ∧ unnested next 0 events = .ok us

/-- An orphan goes on, takes effect, or comes to nothing. -/
inductive Orphaned (s : Shared ι) : Shared ι → Prop
  | guard {i : ι} {c : Request} {id : PersistenceId} {n : ℤ} {us : List Unnested}
      {before after : List (Orphan ι)}
      (ho : s.orphans = before ++ ⟨i, c, .append (.guard id n)⟩ :: after)
      (hbinds : c.Binds id n us) (h : coalesceMax s.tables.events id = some n) :
      Orphaned s { s with orphans := before ++ ⟨i, c, .append (.commit id us)⟩ :: after }
  | commit {i : ι} {c : Request} {id : PersistenceId} {us : List Unnested}
      {before after : List (Orphan ι)}
      (ho : s.orphans = before ++ ⟨i, c, .append (.commit id us)⟩ :: after)
      (h : ((s.tables.events ++ us.map (row id)).map Row.key).Nodup) :
      Orphaned s { s.takes i (s.withRows id us) with orphans := before ++ after }
  | upsertSnapshot {i : ι} {c : Request} {id : PersistenceId} {r : SnapshotRow}
      {before after : List (Orphan ι)}
      (ho : s.orphans = before ++ ⟨i, c, .upsertSnapshot id r⟩ :: after) :
      Orphaned s
        { s.takes i (s.tables.upsertSnapshot id r) with orphans := before ++ after }
  | gone {orphan : Orphan ι} {before after : List (Orphan ι)}
      (ho : s.orphans = before ++ orphan :: after) :
      Orphaned s { s with orphans := before ++ after }

/-- The states any number of calls can get into, from empty tables on. -/
def Reaches [DecidableEq ι] (calls : ι → Request) :
    Tasks ι Op Op.Ans (Shared ι) (Option Reply) → Prop :=
  Tasks.Reaches (fun i => (calls i).code) (fun i => Executes i (calls i)) Orphaned
    ⟨Shared.init, fun _ => .ret none⟩

end Tellus.Postgres
