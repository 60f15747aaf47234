import Mathlib.Tactic
import Tellus.Actor.Loop
import Tellus.Lib.Unwind

/-!
What the destructors of an actor's values may do to its task (`actor_context.rs`).

Every value of the application which the task drops is a call here, answered by whether its
destructor panics.  Where the code drops under a catch (`contained`) the panic is logged and
its payload is dropped; where it does not (`bare`) the task unwinds.  After the loop comes
`terminate`, whose channel may still hold a message which slipped in behind the drain, and
which signals the watchers.

* `catchAndLog`, `catchPanicAndLog`, `dropContainingPanic`: the functions of these names.
* `terminate`, `code`: the end of a task, and the whole of it.
* `Value.uncaught`: the values which are dropped outside of every catch.
* `Exec`, `Elsewhere`: the channel, its senders and the watchers.
* `safe_code`: a task does not unwind, whatever destructors panic but those of such values.
-/

namespace Tellus.Dropping

open Concurrent

variable {M Base : Type} {BaseAns : Base → Type} {α E : Type}

/-! ### Drops -/

/-- What the task drops: its own values, several of them at once (`values`), a message it has
drained or one left behind in a channel without a receiver, what a failed callback returned, the
payload of a caught panic, and what an event-sourced actor stores and encodes with. -/
inductive Value where
  | state
  | actor
  | queued
  | leftBehind
  | values
  | recovery
  | failure
  | payload
  | stores
  | codec
  deriving DecidableEq

/-- The values which the task drops outside of every catch. -/
def Value.uncaught : Value → Bool
  | .failure | .payload | .leftBehind | .stores | .codec => true
  | _ => false

/-- The calls of a body with its drops, and those of `terminate`. -/
inductive Op (M Base : Type) : Type where
  | base (op : Base)
  | contained (value : Value)
  | bare (value : Value)
  /-- Move the queued messages out of the channel. -/
  | drain
  /-- Drop the receiver, under a catch. -/
  | dropReceiver
  /-- Leave the registries of all watched actors, not under a catch: the registry of an actor
  whose task has unwound still holds its watchers. -/
  | unwatchAll
  /-- Drop the context and with it the task's own sender, not under a catch. -/
  | dropContext
  | takeWatchers
  | sendTerminated (watcher : ActorId)
  /-- Drop a watcher and with it a sender of its channel, not under a catch. -/
  | dropSink (watcher : ActorId)

/-- How a call is answered, a drop by whether a destructor has panicked. -/
abbrev Op.Ans {M Base : Type} (BaseAns : Base → Type) : Op M Base → Type
  | .base op => BaseAns op
  | .contained _ => Bool
  | .bare _ => Bool
  | .drain => List (Incoming M)
  | .dropReceiver => Bool
  | .unwatchAll => Bool
  | .dropContext => Bool
  | .takeWatchers => List ActorId
  | .sendTerminated _ => Bool
  | .dropSink _ => Bool

/-- The programs of a body with its drops. -/
abbrev Drops (M : Type) (BaseAns : Base → Type) (α : Type) :=
  Unwinding (Op M Base) (Op.Ans BaseAns) α

/-- Call out and wait for the answer. -/
def ask (op : Op M Base) : Drops M BaseAns (op.Ans BaseAns) := Unwinding.lift (Prog.op op)

/-- A destructor has been run outside of every catch. -/
def unwindIf (panicked : Bool) : Drops M BaseAns Unit :=
  if panicked then Unwinding.unwind else pure ()

/-- Drop a value outside of every catch. -/
def dropBare (value : Value) : Drops M BaseAns Unit := do
  unwindIf (← ask (.bare value))

/-- `drop_containing_panic`: the payload of a caught panic is dropped where it is logged. -/
def dropContainingPanic (value : Value) : Drops M BaseAns Unit := do
  if ← ask (.contained value) then
    dropBare .payload

/-- `catch_panic_and_log`, given how the callback ended. -/
def catchPanicAndLog : Option α → Drops M BaseAns (Option α)
  | some a => return some a
  | none => do
      dropBare .payload
      return none

/-- `catch_and_log`, given how the callback ended: a failure it returned is dropped where it is
logged. -/
def catchAndLog : Outcome E α → Drops M BaseAns (Option α)
  | .ok a => return some a
  | .err _ => do
      dropBare .failure
      return none
  | .panic => do
      dropBare .payload
      return none

/-! ### The end of a task -/

/-- Drop the drained messages one by one. -/
def dropQueued : List (Incoming M) → Drops M BaseAns Unit
  | [] => return ()
  | _ :: drained => do
      dropContainingPanic .queued
      dropQueued drained

/-- Signal the watchers one by one, dropping each of them afterwards. -/
def signal : List ActorId → Drops M BaseAns Unit
  | [] => return ()
  | watcher :: watchers => do
      let _ ← ask (.sendTerminated watcher)
      unwindIf (← ask (.dropSink watcher))
      signal watchers

/-- `terminate` until it waits for the children. -/
def closeMailbox : Drops M BaseAns Unit := do
  let drained ← ask .drain
  if ← ask .dropReceiver then
    dropBare .payload
  dropQueued drained
  unwindIf (← ask .unwatchAll)

/-- `terminate` from there on. -/
def dropAndSignal : Drops M BaseAns Unit := do
  unwindIf (← ask .dropContext)
  dropContainingPanic .actor
  signal (← ask .takeWatchers)

/-- `terminate`. -/
def terminate : Loop.Task M (Op.Ans (M := M) BaseAns) (Option Unit) := do
  match ← Loop.emb (closeMailbox : Drops M BaseAns Unit).run with
  | none => return none
  | some () =>
      Loop.ask .stopChildren
      Loop.emb (dropAndSignal : Drops M BaseAns Unit).run

section Code

variable (b : Loop.Body M (Op.Ans (M := M) BaseAns)) (leave : Drops M BaseAns Unit)

/-- The places of a task: those of its loop, and its end. -/
inductive Point where
  | loop (pt : Loop.Point b)
  | terminated

/-- The block at each place of a task.  After `terminate` comes what the task drops last. -/
def code (strategy : SupervisionStrategy) :
    Point b → Loop.Task M (Op.Ans (M := M) BaseAns) (Point b)
  | .loop .terminate => do
      match ← terminate with
      | none => return .loop .unwound
      | some () =>
          match ← Loop.emb leave.run with
          | none => return .loop .unwound
          | some () => return .terminated
  | .loop pt => do
      return .loop (← Loop.code b strategy pt)
  | .terminated => return .terminated

end Code

/-! ### The channel and the watchers -/

/-- An actor's channel and its watchers. -/
structure World (M : Type) where
  /-- What is in the channel. -/
  queue : List (Incoming M)
  /-- Whether the receiver has not been dropped. -/
  receiver : Bool
  /-- Whether the context, which owns a sender, has not been dropped. -/
  context : Bool
  /-- The other senders. -/
  senders : ℕ
  /-- The registered watchers, `none` once registration is closed. -/
  registry : Option (List ActorId)
  /-- The watchers `terminate` has taken. -/
  taken : List ActorId
  /-- The watchers sent their signal. -/
  sent : List ActorId

/-- A new actor, referred to by its spawner. -/
def World.new : World M := ⟨[], true, true, 1, some [], [], []⟩

/-- What others do: send, clone and drop references, watch and unwatch.  What is left in a
channel without a receiver is dropped by whoever drops its last sender. -/
inductive Elsewhere : World M → World M → Prop
  | send (w : World M) (x : Incoming M) (h : w.receiver = true)
      (hfrom : w.context = true ∨ 0 < w.senders) :
      Elsewhere w { w with queue := w.queue ++ [x] }
  | clone (w : World M) (hfrom : w.context = true ∨ 0 < w.senders) :
      Elsewhere w { w with senders := w.senders + 1 }
  | drop (w : World M) {n : ℕ} (h : w.senders = n + 1) (hmore : w.context = true ∨ 0 < n) :
      Elsewhere w { w with senders := n }
  | dropLast (w : World M) (h : w.senders = 1) (hlast : w.context = false) :
      Elsewhere w { w with senders := 0, queue := [] }
  | watch (w : World M) (id : ActorId) {ws : List ActorId} (h : w.registry = some ws) :
      Elsewhere w { w with registry := some (ws ++ [id]) }
  | unwatch (w : World M) (id : ActorId) {ws : List ActorId} (h : w.registry = some ws) :
      Elsewhere w { w with registry := some (ws.filter (· ≠ id)) }

/-- The calls of the task.  Dropping the context runs the destructor of a message only if one
is left in the channel and nobody else has a sender. -/
inductive Exec (w : World M) :
    (op : Loop.Op M (Op M Base)) → op.Ans (Op.Ans BaseAns) → World M → Prop
  | pollStopped (x : Bool) : Exec w .pollStopped x w
  | hasChanged (x : Option Bool) : Exec w .hasChanged x w
  | pending (h : w.queue = []) : Exec w .recv none w
  | recv {x : Incoming M} {queue : List (Incoming M)} (h : w.queue = x :: queue) :
      Exec w .recv (some x) { w with queue := queue }
  | takeWatchedFor (other : ActorId) (x : Bool) : Exec w (.takeWatchedFor other) x w
  | elapsed (resetAfter : ℕ) (x : Bool) : Exec w (.elapsed resetAfter) x w
  | stopChildren : Exec w .stopChildren () w
  | sleep (delay : ℕ) (x : Bool) : Exec w (.sleep delay) x w
  | base (op : Base) (x : BaseAns op) : Exec w (.own (.base op)) x w
  | contained (value : Value) (x : Bool) : Exec w (.own (.contained value)) x w
  | bare (value : Value) (x : Bool) : Exec w (.own (.bare value)) x w
  | drain : Exec w (.own .drain) w.queue { w with queue := [] }
  | dropReceiver (x : Bool) : Exec w (.own .dropReceiver) x { w with receiver := false }
  | unwatchAll (x : Bool) : Exec w (.own .unwatchAll) x w
  | dropContext (h : 0 < w.senders) :
      Exec w (.own .dropContext) false { w with context := false }
  | dropLast (h : w.senders = 0) {x : Bool} (hx : x = true → w.queue ≠ []) :
      Exec w (.own .dropContext) x { w with context := false, queue := [] }
  | takeWatchers : Exec w (.own .takeWatchers) (w.registry.getD [])
      { w with registry := none, taken := w.registry.getD [] }
  | sendTerminated (watcher : ActorId) (x : Bool) :
      Exec w (.own (.sendTerminated watcher)) x { w with sent := w.sent ++ [watcher] }
  | dropSink (watcher : ActorId) (x : Bool) : Exec w (.own (.dropSink watcher)) x w

/-- The value whose destructor has panicked in a call. -/
def panicked : (op : Loop.Op M (Op M Base)) → op.Ans (Op.Ans BaseAns) → Option Value
  | .own (.contained value), x => if x then some value else none
  | .own (.bare value), x => if x then some value else none
  | .own .dropReceiver, x => if x then some .queued else none
  | .own .unwatchAll, x => if x then some .leftBehind else none
  | .own .dropContext, x => if x then some .leftBehind else none
  | .own (.dropSink _), x => if x then some .leftBehind else none
  | _, _ => none

/-- Only destructors of values which `may` panic do so in the call. -/
def PanicsOnly (may : Value → Prop) (op : Loop.Op M (Op M Base)) (x : op.Ans (Op.Ans BaseAns)) :
    Prop :=
  ∀ value ∈ panicked op x, may value

lemma panicsOnly_none {may : Value → Prop} {op : Loop.Op M (Op M Base)}
    {x : op.Ans (Op.Ans BaseAns)} (h : panicked op x = none) : PanicsOnly may op x := by
  simp [PanicsOnly, h]

lemma panicsOnly_some {may : Value → Prop} {op : Loop.Op M (Op M Base)}
    {x : op.Ans (Op.Ans BaseAns)} {value : Value} (h : panicked op x = some value)
    (hmay : may value) : PanicsOnly may op x := by
  simpa [PanicsOnly, h] using hmay

/-- A value dropped under a catch. -/
abbrev Value.Caught (value : Value) : Prop := value.uncaught = false

/-! ### Contained programs -/

/-- A call which has nothing to do with the watchers, and drops outside of every catch only what
is dropped there. -/
def Quiet : Op M Base → Prop
  | .bare value => value.uncaught = true
  | .takeWatchers => False
  | .sendTerminated _ => False
  | _ => True

/-- No destructor panics but those of values dropped under a catch. -/
def Passes (op : Op M Base) (x : op.Ans BaseAns) : Prop :=
  PanicsOnly Value.Caught (.own op : Loop.Op M (Op M Base)) x

/-- Whatever destructors of other values panic than those dropped outside of every catch, the
program does not unwind. -/
abbrev Tame (p : Drops M BaseAns α) : Prop := p.Contained Quiet Passes

lemma tame_ask (op : Op M Base) (h : Quiet op) : Tame (ask op : Drops M BaseAns _) :=
  Unwinding.contained_lift (Q := fun _ => True) ⟨h, fun _ _ => trivial⟩

lemma tame_dropBare (value : Value) (h : value.uncaught = true) :
    Tame (dropBare value : Drops M BaseAns Unit) := by
  refine And.intro h fun x hx => ?_
  cases x with
  | true => exact absurd (hx value rfl) (by simp [Value.Caught, h])
  | false => rfl

/-- A message left behind does not panic. -/
lemma not_passes_leftBehind (op : Op M Base) {x : op.Ans BaseAns}
    (h : panicked (.own op : Loop.Op M (Op M Base)) x = some .leftBehind) : ¬Passes op x :=
  fun hpass => absurd (hpass .leftBehind h) (by simp [Value.Caught, Value.uncaught])

lemma tame_dropContainingPanic (value : Value) :
    Tame (dropContainingPanic value : Drops M BaseAns Unit) := by
  refine (tame_ask (.contained value) trivial).bind fun panicked => ?_
  cases panicked with
  | true => exact tame_dropBare .payload rfl
  | false => exact Unwinding.contained_pure ()

lemma tame_catchPanicAndLog (r : Option α) :
    Tame (catchPanicAndLog r : Drops M BaseAns (Option α)) := by
  cases r with
  | some a => exact Unwinding.contained_pure _
  | none => exact (tame_dropBare .payload rfl).bind fun _ => Unwinding.contained_pure _

lemma tame_catchAndLog (r : Outcome E α) :
    Tame (catchAndLog r : Drops M BaseAns (Option α)) := by
  cases r with
  | ok a => exact Unwinding.contained_pure _
  | err e => exact (tame_dropBare .failure rfl).bind fun _ => Unwinding.contained_pure _
  | panic => exact (tame_dropBare .payload rfl).bind fun _ => Unwinding.contained_pure _

lemma tame_dropQueued (drained : List (Incoming M)) :
    Tame (dropQueued drained : Drops M BaseAns Unit) := by
  induction drained with
  | nil => exact Unwinding.contained_pure ()
  | cons x drained ih => exact (tame_dropContainingPanic .queued).bind fun _ => ih

lemma tame_closeMailbox : Tame (closeMailbox : Drops M BaseAns Unit) := by
  refine (tame_ask .drain trivial).bind fun drained => ?_
  refine (tame_ask .dropReceiver trivial).bind fun panicked => ?_
  have hrest : Tame (do dropQueued drained; unwindIf (← ask .unwatchAll) :
      Drops M BaseAns Unit) := by
    refine (tame_dropQueued drained).bind fun _ => And.intro trivial fun x hx => ?_
    cases x with
    | true => exact absurd hx (not_passes_leftBehind .unwatchAll rfl)
    | false => rfl
  cases panicked with
  | true => exact (tame_dropBare .payload rfl).bind fun _ => hrest
  | false => exact hrest

lemma ends_signal (watchers : List ActorId) :
    (signal watchers : Drops M BaseAns Unit).Contained (fun _ => True) Passes := by
  induction watchers with
  | nil => exact Unwinding.contained_pure ()
  | cons watcher watchers ih =>
      refine And.intro trivial fun _ _ => And.intro trivial fun panicked hpass => ?_
      cases panicked with
      | true => exact absurd hpass (not_passes_leftBehind (.dropSink watcher) rfl)
      | false => exact ih

lemma ends_dropAndSignal :
    (dropAndSignal : Drops M BaseAns Unit).Contained (fun _ => True) Passes := by
  refine And.intro trivial fun panicked hpass => ?_
  cases panicked with
  | true => exact absurd hpass (not_passes_leftBehind .dropContext rfl)
  | false =>
      have hactor : (dropContainingPanic .actor : Drops M BaseAns Unit).Contained
          (fun _ => True) Passes :=
        (tame_dropContainingPanic .actor).mono fun _ _ => trivial
      refine hactor.bind fun _ => ?_
      exact And.intro trivial fun watchers _ => ends_signal watchers

/-! ### Contained loops -/

/-- The calls of a loop, those of its body meeting `P`. -/
def OwnMeet (P : Op M Base → Prop) : Loop.Op M (Op M Base) → Prop
  | .own op => P op
  | _ => True

/-- A program of the loop which, whatever destructors of values dropped under a catch panic, ends
as `Q` says. -/
abbrev EndsIn (P : Op M Base → Prop) (Q : α → Prop)
    (p : Loop.Task M (Op.Ans (M := M) BaseAns) α) : Prop :=
  p.Ends (OwnMeet P) (PanicsOnly Value.Caught) Q

lemma endsIn_emb {P : Op M Base → Prop} {Q : α → Prop}
    {p : Prog (Op M Base) (Op.Ans BaseAns) α} (h : p.Ends P Passes Q) :
    EndsIn P Q (Loop.emb p) := by
  induction p with
  | ret a => exact h
  | call op k ih => exact ⟨h.1, fun x hx => ih x (h.2 x hx)⟩

lemma endsIn_nextIncoming :
    EndsIn Quiet (fun _ => True) (Loop.nextIncoming : Loop.Task M (Op.Ans (M := M) BaseAns) _) := by
  refine And.intro trivial fun x _ => ?_
  cases x with
  | true => trivial
  | false =>
      refine And.intro trivial fun x _ => ?_
      match x with
      | none => trivial
      | some (.message m) => trivial
      | some (.terminated other) =>
          refine And.intro trivial fun x _ => ?_
          cases x <;> trivial

lemma endsIn_awaitRestart (strategy : SupervisionStrategy) (up : Bool) (restarts : ℕ) :
    EndsIn Quiet (fun _ => True)
      (Loop.awaitRestart strategy up restarts : Loop.Task M (Op.Ans (M := M) BaseAns) _) := by
  have hreset : EndsIn Quiet (fun _ => True)
      (Loop.elapsed strategy up : Loop.Task M (Op.Ans (M := M) BaseAns) _) := by
    unfold Loop.elapsed
    split
    · exact And.intro trivial fun _ _ => trivial
    · trivial
  refine Prog.Ends.bind hreset fun reset _ => ?_
  split
  · trivial
  · trivial
  · refine And.intro trivial fun x _ => ?_
    simp only [Prog.ret_bind]
    split
    · trivial
    · refine And.intro trivial fun _ _ => ?_
      simp only [Prog.ret_bind]
      split
      · refine And.intro trivial fun x _ => ?_
        simp only [Prog.ret_bind]
        split <;> trivial
      · trivial

/-- **`terminate` runs to its end**, whatever destructors of values dropped under a catch panic. -/
lemma terminate_yields {tr : History (Loop.Op M (Op M Base)) (Loop.Op.Ans (Op.Ans BaseAns))}
    {r : Option Unit} (h : terminate.Yields tr r)
    (htr : ∀ c ∈ tr, PanicsOnly Value.Caught c.1 c.2) : r = some () := by
  have hends : EndsIn (fun _ => True) (fun r => r.isSome = true)
      (terminate : Loop.Task M (Op.Ans (M := M) BaseAns) _) := by
    refine (endsIn_emb (tame_closeMailbox.mono fun _ _ => trivial)).bind fun r hr => ?_
    match r with
    | none => cases hr
    | some () => exact And.intro trivial fun _ _ => endsIn_emb ends_dropAndSignal
  exact Option.isSome_iff_exists.mp (hends.yields h htr) |>.elim fun _ hr => hr

section Body

variable {b : Loop.Body M (Op.Ans (M := M) BaseAns)} {leave : Drops M BaseAns Unit}

/-- What a body owes: it drops outside of every catch only what is dropped there, and none of its
programs unwinds unless the destructor of such a value panics. -/
structure Contains (b : Loop.Body M (Op.Ans (M := M) BaseAns)) (leave : Drops M BaseAns Unit) :
    Prop where
  start : ∀ phase, EndsIn Quiet (fun r => r.isSome = true) (b.start phase)
  handle : ∀ x held, (b.handle x held).Ends Quiet Passes fun r => r.isSome = true
  release : ∀ held, (b.release held).Ends Quiet Passes fun r => r.isSome = true
  leave : Tame leave

/-- The task has not unwound. -/
def InPlace : Loop.Point b → Prop
  | .unwound => False
  | _ => True

/-- The loop around such a body does not unwind. -/
lemma Contains.code (hb : Contains b leave) (strategy : SupervisionStrategy) {pt : Loop.Point b}
    (hpt : InPlace pt) : EndsIn Quiet InPlace (Loop.code b strategy pt) := by
  cases pt with
  | starting restarts phase =>
      refine (hb.start phase).bind fun started hs => ?_
      match started with
      | none => cases hs
      | some (.again phase) => trivial
      | some (.up held) => trivial
      | some .failed => trivial
      | some .stopped => trivial
  | running restarts held =>
      refine Prog.Ends.bind endsIn_nextIncoming fun next _ => ?_
      cases next with
      | again => trivial
      | stopped =>
          refine (endsIn_emb (hb.release held)).bind fun r hr => ?_
          match r with
          | none => cases hr
          | some () => trivial
      | incoming x =>
          refine (endsIn_emb (hb.handle x held)).bind fun r hr => ?_
          match r with
          | none => cases hr
          | some (.goOn held) => trivial
          | some .stop => trivial
          | some .failed => trivial
  | failed restarts up =>
      refine Prog.Ends.bind (endsIn_awaitRestart strategy up restarts) fun awaited _ => ?_
      cases awaited <;> trivial
  | backoff restarts delay =>
      refine And.intro trivial fun x _ => ?_
      cases x with
      | true => trivial
      | false =>
          refine And.intro trivial fun x _ => ?_
          cases x <;> trivial
  | terminate => trivial
  | unwound => cases hpt

/-! ### The contract -/

/-- The contract of the task: only it takes and signals the watchers, and no destructors panic but
those of values dropped under a catch. -/
def contract (M : Type) (BaseAns : Base → Type) :
    Contract Unit (Loop.Op M (Op M Base)) (Loop.Op.Ans (Op.Ans (M := M) BaseAns)) (World M) where
  exec := fun _ w op x w' => Exec w op x w' ∧ PanicsOnly Value.Caught op x
  pre := fun _ _ _ => True
  inv := fun _ => True
  rely := fun _ w w' => w'.taken = w.taken ∧ w'.sent = w.sent
  rely_refl := fun _ _ => ⟨rfl, rfl⟩
  rely_trans := fun _ _ _ _ h h' => ⟨h'.1.trans h.1, h'.2.trans h.2⟩

variable {w w' : World M}

lemma Elsewhere.rely (h : Elsewhere w w') : w'.taken = w.taken ∧ w'.sent = w.sent := by
  cases h <;> exact ⟨rfl, rfl⟩

/-- The watchers `terminate` has taken, and those signalled. -/
def Signalled (taken sent : List ActorId) (w : World M) : Prop := w.taken = taken ∧ w.sent = sent

lemma stable_signalled (taken sent : List ActorId) :
    Stable (contract M BaseAns) () (Signalled taken sent) := by
  rintro w w' ⟨ht, hs⟩ ⟨ht', hs'⟩ -
  exact ⟨ht'.trans ht, hs'.trans hs⟩

/-- A quiet call leaves the watchers alone. -/
lemma Exec.signalled {op : Loop.Op M (Op M Base)} {x : op.Ans (Op.Ans BaseAns)}
    {taken sent : List ActorId} (hx : Exec w op x w') (hq : OwnMeet Quiet op)
    (h : Signalled taken sent w) : Signalled taken sent w' := by
  cases hx with
  | takeWatchers => cases hq
  | sendTerminated => cases hq
  | _ => exact h

/-- A program which ends as `Q` says does so without touching the watchers. -/
lemma safe_of_endsIn {Q : α → Prop} {p : Loop.Task M (Op.Ans (M := M) BaseAns) α}
    {post : World M → α → Prop} {taken sent : List ActorId} (hp : EndsIn Quiet Q p)
    (h : Signalled taken sent w) (hpost : ∀ t a, Q a → Signalled taken sent t → post t a) :
    Safe (contract M BaseAns) () post p w := by
  induction p generalizing w with
  | ret a => exact Safe.ret_of (stable_signalled taken sent) h fun t _ ht => hpost t a hp ht
  | call op k ih =>
      refine Safe.call_of (stable_signalled taken sent) h fun t _ ht => ⟨trivial, ?_⟩
      rintro x t' ⟨hx, hpass⟩ -
      exact ih x (hp.2 x hpass) (hx.signalled hp.1 ht)

/-- Sequencing: what comes second is run only if what came first has not unwound. -/
lemma safe_bind {β : Type} {p : Drops M BaseAns α} {f : α → Drops M BaseAns β}
    {post : World M → Option β → Prop} {Q : World M → α → Prop}
    (hp : Safe (contract M BaseAns) () (fun w r => ∃ a, r = some a ∧ Q w a) (Loop.emb p.run) w)
    (hf : ∀ t a, Q t a → Safe (contract M BaseAns) () post (Loop.emb (f a).run) t) :
    Safe (contract M BaseAns) () post (Loop.emb (p >>= f).run) w := by
  have hsplit : Loop.emb (M := M) (p >>= f).run = (Loop.emb p.run).bind _ := Loop.emb_bind p _
  rw [hsplit]
  refine hp.bind fun t r _ hr => ?_
  obtain ⟨a, rfl, ha⟩ := hr
  exact hf t a ha

/-- A quiet call. -/
lemma safe_ask (op : Op M Base) {taken sent : List ActorId} (hq : Quiet op)
    (h : Signalled taken sent w) :
    Safe (contract M BaseAns) ()
      (fun w r => ∃ x, r = some x ∧ Passes op x ∧ Signalled taken sent w)
      (Loop.emb (ask op : Drops M BaseAns _).run) w := by
  refine Safe.call_of (stable_signalled taken sent) h fun t _ ht => ⟨trivial, ?_⟩
  rintro x t' ⟨hx, hpass⟩ -
  refine Safe.ret_of (stable_signalled taken sent) (hx.signalled hq ht) fun u _ hu => ?_
  exact ⟨x, rfl, hpass, hu⟩

lemma safe_of_tame {p : Drops M BaseAns α} {taken sent : List ActorId} (hp : Tame p)
    (h : Signalled taken sent w) :
    Safe (contract M BaseAns) () (fun w r => ∃ a, r = some a ∧ Signalled taken sent w)
      (Loop.emb p.run) w := by
  refine safe_of_endsIn (endsIn_emb hp) h fun t r hr ht => ?_
  cases r with
  | none => cases hr
  | some a => exact ⟨a, rfl, ht⟩

/-- Each watcher is signalled. -/
lemma safe_signal {post : World M → Option Unit → Prop} (watchers taken sent : List ActorId)
    (h : Signalled taken sent w)
    (hpost : ∀ t, Signalled taken (sent ++ watchers) t → post t (some ())) :
    Safe (contract M BaseAns) () post (Loop.emb (signal watchers : Drops M BaseAns Unit).run)
      w := by
  induction watchers generalizing w sent with
  | nil =>
      refine Safe.ret_of (stable_signalled taken sent) h fun t _ ht => hpost t ?_
      rwa [List.append_nil]
  | cons watcher watchers ih =>
      refine Safe.call_of (stable_signalled taken sent) h fun t _ ht => ⟨trivial, ?_⟩
      rintro x _ ⟨⟨⟩, -⟩ -
      have ht : Signalled taken (sent ++ [watcher]) { t with sent := t.sent ++ [watcher] } :=
        ⟨ht.1, by rw [← ht.2]⟩
      refine Safe.call_of (stable_signalled taken _) ht fun u _ hu => ⟨trivial, ?_⟩
      rintro y _ ⟨⟨⟩, hpass⟩ -
      cases y with
      | true => exact absurd hpass (not_passes_leftBehind (.dropSink watcher) rfl)
      | false =>
          refine ih (sent ++ [watcher]) hu fun t ht => hpost t ?_
          rwa [List.append_assoc] at ht

/-- `terminate` runs to its end and signals every watcher it takes. -/
lemma safe_terminate (h : Signalled [] [] w) :
    Safe (contract M BaseAns) ()
      (fun w r => r.isSome = true ∧ ∃ watchers, Signalled watchers watchers w) terminate w := by
  refine (safe_of_tame tame_closeMailbox h).bind fun t r _ ht => ?_
  obtain ⟨_, rfl, ht⟩ := ht
  refine Safe.call_of (stable_signalled [] []) ht fun t _ ht => ⟨trivial, ?_⟩
  rintro _ _ ⟨⟨⟩, -⟩ -
  refine safe_bind (safe_ask .dropContext trivial ht) fun t panicked ht => ?_
  obtain ⟨hpass, ht⟩ := ht
  cases panicked with
  | true => exact absurd hpass (not_passes_leftBehind .dropContext rfl)
  | false =>
      refine safe_bind (safe_of_tame (Unwinding.contained_pure ()) ht) fun t _ ht => ?_
      refine safe_bind (safe_of_tame (tame_dropContainingPanic .actor) ht) fun t _ ht => ?_
      refine Safe.call_of (stable_signalled [] []) ht fun t _ ht => ⟨trivial, ?_⟩
      rintro watchers _ ⟨⟨⟩, -⟩ -
      exact safe_signal _ _ [] ⟨rfl, ht.2⟩ fun u hu => ⟨rfl, _, hu⟩

/-- What holds when the task comes to one of its places. -/
def Rest (b : Loop.Body M (Op.Ans (M := M) BaseAns)) (w : World M) : Point b → Prop
  | .loop pt => InPlace pt ∧ Signalled [] [] w
  | .terminated => w.sent = w.taken

/-- **A task does not unwind and signals its watchers**, whatever destructors of values dropped
under a catch panic. -/
lemma Contains.safe_code (hb : Contains b leave) (strategy : SupervisionStrategy)
    (pt : Point b) (h : Rest b w pt) :
    Safe (contract M BaseAns) () (Rest b) (Dropping.code b leave strategy pt) w := by
  have hdone : Stable (contract M BaseAns) () fun w => w.sent = w.taken := by
    rintro w w' h ⟨ht, hs⟩ -
    rw [ht, hs]
    exact h
  have hloop : ∀ pt : Loop.Point b, InPlace pt → Signalled [] [] w →
      Safe (contract M BaseAns) () (Rest b)
        ((Loop.code b strategy pt).bind fun pt => .ret (.loop pt)) w := by
    intro pt hpt hw
    have hcode : Safe (contract M BaseAns) () (fun w pt => InPlace pt ∧ Signalled [] [] w)
        (Loop.code b strategy pt) w :=
      safe_of_endsIn (hb.code strategy hpt) hw fun t pt' hpt' ht => ⟨hpt', ht⟩
    refine hcode.bind fun t pt' _ ht => ?_
    exact Safe.ret_of (stable_signalled [] []) ht.2 fun u _ hu => ⟨ht.1, hu⟩
  cases pt with
  | terminated => exact Safe.ret_of hdone h fun t _ ht => ht
  | loop pt =>
      cases pt with
      | starting restarts phase => exact hloop _ h.1 h.2
      | running restarts held => exact hloop _ h.1 h.2
      | failed restarts up => exact hloop _ h.1 h.2
      | backoff restarts delay => exact hloop _ h.1 h.2
      | unwound => exact hloop _ h.1 h.2
      | terminate =>
          refine (safe_terminate h.2).bind fun t r _ ht => ?_
          obtain ⟨hr, watchers, ht⟩ := ht
          match r with
          | none => cases hr
          | some () =>
              refine (safe_of_tame hb.leave ht).bind fun t r _ ht => ?_
              obtain ⟨_, rfl, ht⟩ := ht
              exact Safe.ret_of (stable_signalled watchers watchers) ht
                fun u _ hu => hu.2.trans hu.1.symm

end Body

/-! ### Runs -/

section Runs

variable (b : Loop.Body M (Op.Ans (M := M) BaseAns)) (leave : Drops M BaseAns Unit)
  (strategy : SupervisionStrategy)

/-- The states of a task, of its channel and its watchers. -/
abbrev State := Tasks Unit (Loop.Op M (Op M Base)) (Loop.Op.Ans (Op.Ans (M := M) BaseAns))
  (World M) (Point b)

/-- The states a task gets into, whatever destructors panic. -/
def Reachable (st : State b) : Prop :=
  Tasks.Reaches (fun _ => code b leave strategy) (fun _ => Exec) Elsewhere
    (.solo .new (.ret (.loop (Loop.entry b)))) st

/-- The states a task gets into while only destructors of values which `may` panic do so. -/
def ReachableWhere (may : Value → Prop) (st : State b) : Prop :=
  Tasks.Reaches (fun _ => code b leave strategy)
    (fun _ w op x w' => Exec w op x w' ∧ PanicsOnly may op x) Elsewhere
    (.solo .new (.ret (.loop (Loop.entry b)))) st


/-- The task has not unwound, and once it is over every watcher taken was sent its signal. -/
def WatchersSignalled {b : Loop.Body M (Op.Ans (M := M) BaseAns)} (st : State b) : Prop :=
  st.task () ≠ .ret (.loop .unwound) ∧
    (st.task () = .ret .terminated → st.shared.sent = st.shared.taken)

variable {b leave strategy}

/-- Where more destructors may panic there are more runs. -/
lemma ReachableWhere.mono {may may' : Value → Prop} {st : State b}
    (h : ReachableWhere b leave strategy may st) (hmay : ∀ value, may value → may' value) :
    ReachableWhere b leave strategy may' st := by
  induction h with
  | refl => exact .refl
  | tail _ hs ih =>
      refine .tail ih ?_
      cases hs with
      | answer i hi hx => exact .answer i hi ⟨hx.1, fun value hv => hmay value (hx.2 value hv)⟩
      | jump i hi => exact .jump i hi
      | env he => exact .env he

/-- The watchers of a task are signalled where only values dropped under a catch panic. -/
theorem Contains.signalled (hb : Contains b leave) {st : State b}
    (h : ReachableWhere b leave strategy Value.Caught st) : WatchersSignalled st := by
  have hstart : Tasks.Good (contract M BaseAns) (fun _ => Rest b)
      (.solo .new (.ret (.loop (Loop.entry b)))) :=
    ⟨trivial, fun _ => Safe.ret_of (stable_signalled [] []) ⟨rfl, rfl⟩
      fun t _ ht => ⟨trivial, ht⟩⟩
  obtain ⟨-, hsafe⟩ := Tasks.invariant (fun _ _ pt _ => hb.safe_code strategy pt)
    (fun _ _ _ _ _ _ _ _ => ⟨trivial, fun j hj => absurd rfl hj⟩)
    (fun _ _ _ he => ⟨trivial, fun _ => he.rely⟩) hstart h
  have hsafe := hsafe ()
  constructor
  · intro htask
    rw [htask] at hsafe
    exact (hsafe.result trivial).1
  · intro htask
    rw [htask] at hsafe
    exact hsafe.result trivial

end Runs

/-! ### Without panicking destructors -/

/-- A body's program with its drops left out, none of which panics. -/
def erase (p : Prog (Op M Base) (Op.Ans BaseAns) α) : Prog Base BaseAns α :=
  p.translate fun
    | .base op => Prog.op op
    | .contained _ => .ret false
    | .bare _ => .ret false
    | .drain => .ret []
    | .dropReceiver => .ret false
    | .unwatchAll => .ret false
    | .dropContext => .ret false
    | .takeWatchers => .ret []
    | .sendTerminated _ => .ret true
    | .dropSink _ => .ret false

/-- A program of the loop with its body's drops left out. -/
def eraseLoop (p : Loop.Task M (Op.Ans (M := M) BaseAns) α) : Loop.Task M BaseAns α :=
  p.translate fun
    | .own op => Loop.emb (erase (Prog.op op))
    | .pollStopped => Loop.ask .pollStopped
    | .hasChanged => Loop.ask .hasChanged
    | .recv => Loop.ask .recv
    | .takeWatchedFor other => Loop.ask (.takeWatchedFor other)
    | .elapsed resetAfter => Loop.ask (.elapsed resetAfter)
    | .stopChildren => Loop.ask .stopChildren
    | .sleep delay => Loop.ask (.sleep delay)

lemma erase_bind {β : Type} (p : Drops M BaseAns α) (f : α → Drops M BaseAns β) :
    erase (p >>= f).run = (erase p.run).bind fun
      | none => .ret none
      | some a => erase (f a).run := by
  refine (Prog.translate_bind p _).trans ?_
  refine congrArg _ (funext fun r => ?_)
  cases r with
  | none => rfl
  | some a => rfl

lemma eraseLoop_emb (p : Prog (Op M Base) (Op.Ans BaseAns) α) :
    eraseLoop (Loop.emb p) = Loop.emb (erase p) := by
  induction p with
  | ret a => rfl
  | call op k ih =>
      have hsplit : erase (Prog.call op k) = (erase (Prog.op op)).bind fun x => erase (k x) := by
        cases op <;> rfl
      rw [hsplit, Loop.emb_bind]
      exact congrArg _ (funext ih)

/-! ### The loop of `spawn` -/

variable (A : Actor)

/-- A callback of the actor. -/
def callback (op : Actor.Op A) : Drops A.Message (Actor.Op.Ans (A := A)) op.Ans := ask (.base op)

/-- The body of the loop of `spawn` with its drops. -/
def spawn : Loop.Body A.Message (Op.Ans (M := A.Message) (Actor.Op.Ans (A := A))) where
  Phase := Unit
  Held := A.State
  first := ()
  start := fun _ => Loop.emb (do
    match ← catchAndLog (← callback A .init) with
    | some state => return .up state
    | none => return .failed : Drops A.Message (Actor.Op.Ans (A := A)) _).run
  handle := fun incoming state => (do
    match ← catchAndLog (← callback A (.receive incoming state)) with
    | some (.goOn state) => return .goOn state
    | some .stop => return .stop
    | none => return .failed : Drops A.Message (Actor.Op.Ans (A := A)) _).run
  release := fun _ => (dropContainingPanic .state).run

variable {A}

/-- Without panicking destructors this is the loop of `spawn`. -/
theorem erase_spawn :
    (∀ phase, eraseLoop ((spawn A).start phase) = A.spawn.start phase) ∧
    (∀ x state, erase ((spawn A).handle x state) = A.spawn.handle x state) ∧
    ∀ state, erase ((spawn A).release state) = A.spawn.release state := by
  refine ⟨fun phase => ?_, fun x state => ?_, fun state => rfl⟩
  · refine (eraseLoop_emb _).trans ((congrArg Loop.emb (erase_bind _ _)).trans ?_)
    refine congrArg (Prog.call (Loop.Op.own Actor.Op.init)) (funext fun r => ?_)
    cases r <;> rfl
  · refine (erase_bind _ _).trans ?_
    refine congrArg (Prog.call (Actor.Op.receive x state)) (funext fun r => ?_)
    match r with
    | .ok (.goOn state) => rfl
    | .ok .stop => rfl
    | .err e => rfl
    | .panic => rfl

lemma tame_callback (op : Actor.Op A) : Tame (callback A op) := tame_ask (.base op) trivial

/-- The loop of `spawn` contains every destructor but those run outside of every catch. -/
lemma contains_spawn : Contains (spawn A) (pure ()) where
  start := fun _ => endsIn_emb <| (tame_callback .init).bind fun r =>
    (tame_catchAndLog r).bind fun state => by
      cases state <;> exact Unwinding.contained_pure _
  handle := fun x state => (tame_callback (.receive x state)).bind fun r =>
    (tame_catchAndLog r).bind fun control => by
      match control with
      | some (.goOn _) => exact Unwinding.contained_pure _
      | some .stop => exact Unwinding.contained_pure _
      | none => exact Unwinding.contained_pure _
  release := fun _ => tame_dropContainingPanic .state
  leave := Unwinding.contained_pure ()

end Tellus.Dropping
