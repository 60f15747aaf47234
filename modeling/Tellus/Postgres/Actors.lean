import Mathlib.Tactic
import Tellus.Lib.Refinement
import Tellus.Persistence.Incarnations
import Tellus.Postgres.Concurrent

/-!
Event-sourced actors on the PostgreSQL store.

The run loop of `persistence/spawn.rs` is the one of `Tellus.code`; its store calls are those of
`tellus-persistence-postgres/src/lib.rs`, statement by statement.  A text is logged for every error
of the store, and the rest of an error is the caller's to see.

* `overPostgres`: every operation of an actor's task, the store calls as programs over the
  statements of the database.
* `PgShared`: the database, and every decision so far.
* `PgExec`, `PgEnv`: how the application and the database answer, and what orphans do.
-/

namespace Tellus.Postgres

open Concurrent

variable {A : EventSourced PersistenceId}

/-! ### The code -/

/-- What an actor's task calls: its application and its surroundings, and for its store calls the
database, with the call a statement belongs to. -/
inductive PgOp (A : EventSourced PersistenceId) where
  | app (op : Tellus.Op A)
  | sql (c : Request) (op : Op)

/-- How a call is answered. -/
abbrev PgOp.Ans : PgOp A → Type
  | .app op => op.Ans
  | .sql _ op => op.Ans

/-- Have the database execute a statement of a call. -/
def executeFor (c : Request) (op : Op) : Prog (PgOp A) PgOp.Ans op.Ans :=
  Prog.op (PgOp.sql c op)

section Code

variable (text : Error → String)

/-- The result of an append, as the run loop sees it. -/
def appendOutcome : Except (AppendError Error) Unit → Outcome (AppendError String) Unit
  | .ok () => .ok ()
  | .error .conflict => .err .conflict
  | .error (.store e) => .err (.store (text e))

/-- The result of another store call, as the run loop sees it. -/
def storeOutcome {α : Type} : Except Error α → Outcome String α
  | .ok a => .ok a
  | .error e => .err (text e)

/-- An operation of an actor's task, its store being the PostgreSQL one. -/
def overPostgres : (op : Tellus.Op A) → Prog (PgOp A) PgOp.Ans op.Ans
  | .load id => do
      let result ← (load id).translate (executeFor (.load id))
      return storeOutcome text result
  | .read id start limit => do
      let result ← (read id start limit).translate (executeFor (.read id start limit))
      return storeOutcome text result
  | .append id next events => do
      let result ← (append id next events).translate fun op =>
        executeFor (.append id next events) (.append op)
      return appendOutcome text result
  | .save id next snapshot => do
      let result ← (save id next snapshot).translate (executeFor (.save id next snapshot))
      return storeOutcome text result
  | op => Prog.op (PgOp.app op)

end Code

/-! ### The surroundings -/

/-- The database, and every decision so far, oldest first. -/
structure PgShared (A : EventSourced PersistenceId) (ι : Type) where
  db : Shared ι
  decisions : List (Decision A)

variable {ι : Type} [DecidableEq ι]

/-- The application, the codec and the surroundings may answer so: they know nothing of the
store. -/
def Answers (ident : ι → PersistenceId) (i : ι) (op : Tellus.Op A) (x : op.Ans) : Prop :=
  ∃ s s' : Tellus.Shared A ι, Tellus.Exec ident True i s op x s'

/-- The decision a call of `handle` has taken. -/
def decided (id : PersistenceId) : (op : Tellus.Op A) → op.Ans → List (Decision A)
  | .handle _ state, .ok effect => [⟨id, state, effect⟩]
  | _, _ => []

/-- No stream has more events than a vector can hold. -/
def Roomy (t : Tables) : Prop := ∀ id, (rowsOf t.events id).length ≤ vecMax

/-- How a call of incarnation `i` is answered. -/
inductive PgExec (ident : ι → PersistenceId) (i : ι) (s : PgShared A ι) :
    (op : PgOp A) → op.Ans → PgShared A ι → Prop
  | app {op : Tellus.Op A} {x : op.Ans} (h : Answers ident i op x) :
      PgExec ident i s (.app op) x
        { s with decisions := s.decisions ++ decided (ident i) op x }
  | sql {c : Request} {op : Op} {x : op.Ans} {db : Shared ι} (h : Executes i c s.db op x db)
      (hroom : Roomy db.tables) : PgExec ident i s (.sql c op) x { s with db }

/-- What happens besides: an orphan goes on. -/
inductive PgEnv (s : PgShared A ι) : PgShared A ι → Prop
  | orphaned {db : Shared ι} (h : Orphaned s.db db) (hroom : Roomy db.tables) :
      PgEnv s { s with db }

section Runs

variable (A) (ident : ι → PersistenceId) (text : Error → String)

/-- The incarnations before their first step, and empty tables. -/
def PgActors.init : Tasks ι (PgOp A) PgOp.Ans (PgShared A ι) (Point A) :=
  ⟨⟨Shared.init, []⟩, fun _ => .ret .run⟩

/-- The states any number of event-sourced incarnations can get into on one PostgreSQL database. -/
def PgReachable (st : Tasks ι (PgOp A) PgOp.Ans (PgShared A ι) (Point A)) : Prop :=
  Tasks.Reaches (fun _ pt => (code A pt).translate (overPostgres text)) (PgExec ident) PgEnv
    (PgActors.init A) st

end Runs

end Tellus.Postgres
