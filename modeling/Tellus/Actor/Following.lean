import Mathlib.Tactic
import Tellus.Actor.Simulation

/-!
The run loop and `terminate` follow the phases.

* `follows_user`, `follows_bare`: user code stays in the phase it is called in.
* `Goes`, `Stays`: the same for programs with drops, none of which unwinds.
* `goes_closeMailbox`, `goes_dropAndSignal`: `terminate`.
* `Script.Keeps`: what is asked of a body.
* `Script.Keeps.code`: every block of a task follows the phases.
-/

namespace Tellus

open Concurrent

variable {M Base α β : Type} {BaseAns : Base → Type} {k : Kind} {rootId : ActorId}
  {p q r : Phase M}

/-! ### User code -/

/-- **User code with the context** comes back to the phase of its callback. -/
lemma follows_user (cb : Callback) (p : UserTask M α) :
    (Hub.user p).Follows (phases k rootId) (fun r _ => r = .calling cb .none)
      (.calling cb .none) := by
  induction p with
  | ret a => exact .ret_of rfl
  | call op next ih =>
      refine Prog.Follows.bind (p := Hub.ofUser op) ?_
      cases op with
      | tell b m => exact .call_of fun x _ => ⟨_, .tell rfl b m x, .ret_of (ih x)⟩
      | spawn => exact .call_of fun c _ => ⟨_, .spawn cb c, .ret_of (ih c)⟩
      | other => exact .call_of fun n _ => ⟨_, .other rfl n, .ret_of (ih n)⟩
      | watch x =>
          refine .call_of fun ok _ => ⟨_, .add cb x ok, .call_of fun _ _ =>
            ⟨_, .insertWatched cb x ok, ?_⟩⟩
          cases ok with
          | true => exact .ret_of (ih ())
          | false => exact .call_of fun _ _ => ⟨_, .sendSelf cb x, .ret_of (ih ())⟩
      | unwatch x =>
          refine .call_of fun watched _ => ⟨_, .removeWatched cb x watched, ?_⟩
          cases watched with
          | false => exact .ret_of (ih ())
          | true => exact .call_of fun _ _ => ⟨_, .remove cb x, .ret_of (ih ())⟩

/-- **User code without the context** may run in any phase in which user code runs at all. -/
lemma follows_bare {p : UserTask M α} (h : p.Ends UserOp.Bare (fun _ _ => True) fun _ => True)
    (hq : q.active = true) :
    (Hub.user p).Follows (phases k rootId) (fun r _ => r = q) q := by
  induction p with
  | ret a => exact .ret_of rfl
  | call op next ih =>
      refine Prog.Follows.bind (p := Hub.ofUser op) ?_
      obtain ⟨hop, hnext⟩ := h
      cases op with
      | tell b m =>
          exact .call_of fun x _ => ⟨_, .tell hq b m x, .ret_of (ih x (hnext x trivial))⟩
      | other => exact .call_of fun n _ => ⟨_, .other hq n, .ret_of (ih n (hnext n trivial))⟩
      | spawn | watch | unwatch => cases hop

/-! ### Programs with drops -/

section Drops

variable (k : Kind) (rootId : ActorId) (u : UserCode M BaseAns)

/-- Begun in a phase, the program follows the phases and returns, without having unwound, what
meets `post`. -/
def Goes (post : Phase M → α → Prop) (p : Dropping.Drops M BaseAns α) (q : Phase M) : Prop :=
  (p.run.translate (Hub.ofOwn u)).Follows (phases k rootId)
    (fun r o => ∃ a, o = some a ∧ post r a) q

variable {k rootId u} {post : Phase M → α → Prop}

lemma Goes.pure {a : α} (h : post q a) : Goes k rootId u post (Pure.pure a) q :=
  .ret_of ⟨a, rfl, h⟩

/-- Silent steps may come first. -/
lemma Goes.step {p : Dropping.Drops M BaseAns α} (hq : q.Passes k r)
    (h : Goes k rootId u post p r) : Goes k rootId u post p q :=
  Prog.Follows.step hq h

lemma Goes.mono {post' : Phase M → α → Prop} {p : Dropping.Drops M BaseAns α}
    (h : Goes k rootId u post p q) (hpost : ∀ r a, post r a → post' r a) :
    Goes k rootId u post' p q :=
  Prog.Follows.mono h fun r _ ⟨a, ho, ha⟩ => ⟨a, ho, hpost r a ha⟩

/-- What the program comes to. -/
lemma Goes.run {post : Phase M → Option α → Prop} {p : Dropping.Drops M BaseAns α}
    (h : Goes k rootId u (fun r a => post r (some a)) p q) :
    (p.run.translate (Hub.ofOwn u)).Follows (phases k rootId) post q := by
  refine Prog.Follows.mono h fun r o ho => ?_
  obtain ⟨a, rfl, ha⟩ := ho
  exact ha

/-- Sequencing. -/
lemma Goes.bind {p : Dropping.Drops M BaseAns α} {f : α → Dropping.Drops M BaseAns β}
    {post : Phase M → β → Prop}
    (h : Goes k rootId u (fun r a => Goes k rootId u post (f a) r) p q) :
    Goes k rootId u post (p >>= f) q := by
  have hsplit : (p >>= f).run.translate (Hub.ofOwn u) = (p.run.translate (Hub.ofOwn u)).bind
      fun o => (o.elim (.ret none) fun a => (f a).run).translate (Hub.ofOwn u) := by
    refine (congrArg _ ?_).trans (Prog.translate_bind p.run _)
    refine congrArg (Prog.bind p.run) (funext fun o => ?_)
    cases o <;> rfl
  rw [Goes, hsplit]
  refine Prog.Follows.bind (Prog.Follows.mono h fun r o ho => ?_)
  obtain ⟨a, rfl, ha⟩ := ho
  exact ha

/-- Begun in a phase, the program is in that phase when it returns. -/
abbrev Stays (k : Kind) (rootId : ActorId) (u : UserCode M BaseAns) (q : Phase M)
    (p : Dropping.Drops M BaseAns α) : Prop :=
  Goes k rootId u (fun r _ => r = q) p q

lemma stays_pure (a : α) : Stays k rootId u q (Pure.pure a) := .pure rfl

/-- What comes second begins where what comes first was begun. -/
lemma Stays.andThen {p : Dropping.Drops M BaseAns α} {f : α → Dropping.Drops M BaseAns β}
    {post : Phase M → β → Prop} (h : Stays k rootId u q p)
    (hf : ∀ a, Goes k rootId u post (f a) q) : Goes k rootId u post (p >>= f) q := by
  refine .bind (Goes.mono h fun r a hr => ?_)
  rw [hr]
  exact hf a

/-- A single call. -/
lemma Goes.ask {op : Dropping.Op M Base} {post : Phase M → op.Ans BaseAns → Prop}
    (h : (Hub.ofOwn u op).Follows (phases k rootId) post q) :
    Goes k rootId u post (Dropping.ask op) q := by
  refine Prog.Follows.bind (p := Hub.ofOwn u op) (Prog.Follows.mono h fun r x hx => ?_)
  exact .ret_of ⟨x, rfl, hx⟩

variable (k rootId u)

/-- A callback with the context. -/
lemma stays_callback (cb : Callback) (op : Base) :
    Stays k rootId u (.calling cb .none) (Dropping.ask (.base op)) :=
  .ask (follows_user cb (u.call op))

/-- A destructor, in a phase in which user code runs. -/
lemma stays_contained (value : Dropping.Value) (hq : q.active = true) :
    Stays k rootId u q (Dropping.ask (.contained value)) :=
  .ask (follows_bare (u.bare_drop value) hq)

/-- A drop outside of every catch. -/
lemma stays_dropBare (value : Dropping.Value) (hq : q.active = true) :
    Stays k rootId u q (Dropping.dropBare value) := by
  have hdrop : (Hub.ofOwn u (.bare value)).Follows (phases k rootId)
      (fun r x => r = q ∧ x = false) q :=
    Prog.Follows.bind (Prog.Follows.mono (follows_bare (u.bare_drop value) hq)
      fun _ _ hr => .ret_of ⟨hr, rfl⟩)
  refine .bind (.ask (hdrop.mono fun r x hx => ?_))
  obtain ⟨rfl, rfl⟩ := hx
  exact stays_pure ()

/-- `drop_containing_panic`. -/
lemma stays_dropContainingPanic (value : Dropping.Value) (hq : q.active = true) :
    Stays k rootId u q (Dropping.dropContainingPanic value) := by
  refine (stays_contained k rootId u value hq).andThen fun panicked => ?_
  cases panicked with
  | true => exact stays_dropBare k rootId u .payload hq
  | false => exact stays_pure ()

/-- `catch_panic_and_log`. -/
lemma stays_catchPanicAndLog (o : Option α) (hq : q.active = true) :
    Stays k rootId u q (Dropping.catchPanicAndLog o) := by
  cases o with
  | some a => exact stays_pure _
  | none => exact (stays_dropBare k rootId u .payload hq).andThen fun _ => stays_pure _

/-- `catch_and_log`. -/
lemma stays_catchAndLog {E : Type} (o : Outcome E α) (hq : q.active = true) :
    Stays k rootId u q (Dropping.catchAndLog o) := by
  cases o with
  | ok a => exact stays_pure _
  | err e => exact (stays_dropBare k rootId u .failure hq).andThen fun _ => stays_pure _
  | panic => exact (stays_dropBare k rootId u .payload hq).andThen fun _ => stays_pure _

/-! ### The end of a task -/

/-- The drained messages are dropped. -/
lemma stays_dropQueued (drained : List (Incoming M)) (hq : q.active = true) :
    Stays k rootId u q (Dropping.dropQueued drained) := by
  induction drained with
  | nil => exact stays_pure ()
  | cons x drained ih =>
      exact (stays_dropContainingPanic k rootId u .queued hq).andThen fun _ => ih

/-- The registries are left one by one. -/
lemma follows_removeEach {xs : List ActorId} (hxs : xs.Nodup) :
    (Hub.removeEach xs : Hub.Task M Unit).Follows (phases k rootId)
      (fun r _ => r = .terminating (.deregister ∅)) (.terminating (.deregister xs.toFinset)) := by
  induction xs with
  | nil => exact .ret_of rfl
  | cons x xs ih =>
      obtain ⟨hx, hxs⟩ := List.nodup_cons.mp hxs
      have hrest : (x :: xs).toFinset.erase x = xs.toFinset := by
        rw [List.toFinset_cons, Finset.erase_insert (by rwa [List.mem_toFinset])]
      refine .call_of fun _ _ => ⟨_, .deregister (List.mem_toFinset.mpr List.mem_cons_self), ?_⟩
      rw [hrest]
      exact ih hxs

/-- The watchers are signalled one by one. -/
lemma goes_signal {ws : List ActorId} (hws : (ws.map (Watcher.ofId rootId)).Nodup) :
    Goes k rootId u (fun r _ => r = .terminating (.signal ∅)) (Dropping.signal ws)
      (.terminating (.signal (ws.map (Watcher.ofId rootId)).toFinset)) := by
  induction ws with
  | nil => exact .pure rfl
  | cons w ws ih =>
      obtain ⟨hw, hws⟩ := List.nodup_cons.mp hws
      have hrest : ((w :: ws).map (Watcher.ofId rootId)).toFinset.erase (Watcher.ofId rootId w) =
          (ws.map (Watcher.ofId rootId)).toFinset := by
        rw [List.map_cons, List.toFinset_cons, Finset.erase_insert (by rwa [List.mem_toFinset])]
      have hmem : Watcher.ofId rootId w ∈ ((w :: ws).map (Watcher.ofId rootId)).toFinset :=
        List.mem_toFinset.mpr List.mem_cons_self
      refine .bind (.ask (.call_of fun x _ => ⟨_, .sendTerminated hmem x, .ret_of ?_⟩))
      rw [hrest]
      refine .bind (.ask (.ret_of ?_))
      exact .bind (.pure (ih hws))

/-- **`terminate`** up to where it waits for the children. -/
lemma goes_closeMailbox :
    Goes k rootId u (fun r _ => r = .terminating .stopChildren) Dropping.closeMailbox
      (.terminating .drain) := by
  refine .bind (.ask (.call_of fun drained _ => ⟨_, .drain drained, .ret_of ?_⟩))
  refine .bind (.ask (.call_of fun panicked _ => ⟨_, .dropReceiver panicked, .ret_of ?_⟩))
  have hrest : Goes k rootId u (fun r _ => r = .terminating .stopChildren) (do
      Dropping.dropQueued drained
      Dropping.unwindIf (← Dropping.ask .unwatchAll)) (.terminating .dropMessages) := by
    refine (stays_dropQueued k rootId u drained rfl).andThen fun _ => ?_
    refine .bind (.ask (.call_of fun xs hxs => ⟨_, .takeWatched xs, ?_⟩))
    refine Prog.Follows.bind (p := Hub.removeEach xs)
      (Prog.Follows.mono (follows_removeEach k rootId hxs) fun r _ hr => ?_)
    obtain rfl := hr
    exact Prog.Follows.step Phase.Passes.deregistered (.ret_of (.pure rfl))
  cases panicked with
  | true => exact (stays_dropBare k rootId u .payload rfl).andThen fun _ => hrest
  | false => exact hrest

/-- **`terminate`** from there on. -/
lemma goes_dropAndSignal :
    Goes k rootId u (fun r _ => r = .terminating (.signal ∅)) Dropping.dropAndSignal
      (.terminating .dropActor) := by
  have hcontext : (Hub.ofOwn u .dropContext).Follows (phases k rootId)
      (fun r x => r = .terminating .dropActor ∧ x = false) (.terminating .dropActor) :=
    Prog.Follows.bind (Prog.Follows.mono (follows_bare (u.bare_drop .leftBehind) rfl)
      fun _ _ hr => .ret_of ⟨hr, rfl⟩)
  refine .bind (.ask (hcontext.mono fun r x hx => ?_))
  obtain ⟨rfl, rfl⟩ := hx
  refine .bind (.pure ((stays_dropContainingPanic k rootId u .actor rfl).andThen fun _ => ?_))
  refine .step .actorDropped (.bind (.ask (.call_of fun ws hws => ⟨_, .takeWatchers ws, ?_⟩)))
  exact .ret_of (goes_signal k rootId u hws)

/-! ### The run loop -/

/-- Begun in a phase, the program of the run loop follows the phases and returns what meets
`post`. -/
def Turns (post : Phase M → α → Prop) (p : Loop.Task M (Dropping.Op.Ans (M := M) BaseAns) α)
    (q : Phase M) : Prop :=
  (p.translate (Hub.ofLoop u)).Follows (phases k rootId) post q

variable {k rootId u}

/-- Sequencing. -/
lemma Turns.bind {p : Loop.Task M (Dropping.Op.Ans (M := M) BaseAns) α}
    {f : α → Loop.Task M (Dropping.Op.Ans (M := M) BaseAns) β} {post : Phase M → β → Prop}
    (h : Turns k rootId u (fun r a => Turns k rootId u post (f a) r) p q) :
    Turns k rootId u post (p.bind f) q := by
  rw [Turns, Prog.translate_bind]
  exact Prog.Follows.bind h

lemma Turns.mono {post post' : Phase M → α → Prop}
    {p : Loop.Task M (Dropping.Op.Ans (M := M) BaseAns) α} (h : Turns k rootId u post p q)
    (hpost : ∀ r a, post r a → post' r a) : Turns k rootId u post' p q :=
  Prog.Follows.mono h hpost

lemma translate_emb (p : Prog (Dropping.Op M Base) (Dropping.Op.Ans BaseAns) α) :
    (Loop.emb p).translate (Hub.ofLoop u) = p.translate (Hub.ofOwn u) := by
  induction p with
  | ret a => rfl
  | call op k ih => exact congrArg (Hub.ofOwn u op).bind (funext ih)

/-- A program of the body, as one of the loop. -/
lemma Turns.emb {post : Phase M → α → Prop}
    {p : Prog (Dropping.Op M Base) (Dropping.Op.Ans BaseAns) α}
    (h : (p.translate (Hub.ofOwn u)).Follows (phases k rootId) post q) :
    Turns k rootId u post (Loop.emb p) q := by
  rw [Turns, translate_emb]
  exact h

variable (k rootId u)

/-- Where one turn of `next_incoming!` leaves an actor. -/
def NextAt : Phase M → Loop.Next M → Prop
  | r, .stopped => r = .dropping false
  | r, .again => r = .idle
  | r, .incoming _ => r = .calling .receive .none

/-- **One turn of `next_incoming!`**. -/
lemma turns_nextIncoming : Turns k rootId u NextAt Loop.nextIncoming .idle := by
  refine .call_of fun stopped _ => ?_
  cases stopped with
  | true => exact ⟨_, .stopped, .ret_of rfl⟩
  | false =>
      refine ⟨_, .polled, .call_of fun x _ => ?_⟩
      match x with
      | none => exact ⟨_, .pending, .ret_of rfl⟩
      | some (.message m) => exact ⟨_, .message m, .ret_of rfl⟩
      | some (.terminated x) =>
          refine ⟨_, .signal x, .call_of fun watched _ => ⟨_, .takeWatchedFor x watched, ?_⟩⟩
          cases watched <;> exact .ret_of rfl

/-- Where `await_restart` leaves an actor. -/
def AwaitedAt (k : Kind) : Phase M → Loop.Awaited → Prop
  | r, .no => r = .terminating .drain
  | r, .yes _ => r = .start k
  | r, .backoff _ _ => r = .backoff

/-- **`await_restart`**. -/
lemma turns_awaitRestart (strategy : SupervisionStrategy) (up : Bool) (restarts : ℕ) :
    Turns k rootId u (AwaitedAt k) (Loop.awaitRestart strategy up restarts) .failed := by
  have helapsed : Turns k rootId u (fun r _ => r = .failed) (Loop.elapsed strategy up) .failed := by
    unfold Loop.elapsed
    split
    next policy => exact .call_of fun x _ => ⟨_, .elapsed policy.resetAfter x, .ret_of rfl⟩
    next => exact .ret_of rfl
  refine .bind (helapsed.mono fun r reset hr => ?_)
  obtain rfl := hr
  split
  · exact Prog.Follows.step Phase.Passes.notRestarted (.ret_of rfl)
  · exact Prog.Follows.step Phase.Passes.notRestarted (.ret_of rfl)
  next delay restarts _ =>
    refine .call_of fun x _ => ⟨_, .probed x, ?_⟩
    by_cases hx : x.getD true = true
    · simp only [Prog.ret_bind, hx, if_true]
      exact Prog.Follows.step Phase.Passes.notRestarted (.ret_of rfl)
    · simp only [Prog.ret_bind, hx]
      refine .call_of fun _ _ => ⟨_, .replaceChannel, .call_of fun _ _ => ⟨_, .awaitClosed, ?_⟩⟩
      by_cases hdelay : delay = 0
      · simp only [Prog.ret_bind, hdelay, if_true]
        refine .call_of fun x _ => ⟨_, .probedAgain x, ?_⟩
        by_cases hx : x.getD true = true
        · simp only [Prog.ret_bind, hx, if_true]
          exact .ret_of rfl
        · simp only [Prog.ret_bind, hx]
          exact Prog.Follows.step Phase.Passes.restarted (.ret_of rfl)
      · simp only [Prog.ret_bind, hdelay, if_false]
        exact .ret_of rfl

/-- **`terminate`**. -/
lemma turns_terminate : Turns k rootId u
    (fun r o => o = some () ∧ r = .terminating (.signal ∅)) Dropping.terminate
    (.terminating .drain) := by
  refine .bind (.emb (Prog.Follows.mono (goes_closeMailbox k rootId u) fun r o ho => ?_))
  obtain ⟨_, rfl, rfl⟩ := ho
  refine .call_of fun _ _ => ⟨_, .replaceChannelLast, .call_of fun _ _ =>
    ⟨_, .awaitClosedLast, ?_⟩⟩
  refine Turns.emb (Prog.Follows.mono (goes_dropAndSignal k rootId u) fun r o ho => ?_)
  obtain ⟨_, rfl, rfl⟩ := ho
  exact ⟨rfl, rfl⟩

end Drops

/-! ### Scripts -/

section Scripts

variable {Ph Held : Type}

/-- Where a turn of the initialisation leaves an actor whose turns are begun as given. -/
def StartedAt (place : Ph → Phase M) : Phase M → Option (Loop.Started Ph Held) → Prop
  | _, none => False
  | r, some (.again phase) => r = place phase
  | r, some (.up _) => r = .idle
  | r, some .failed => r = .failed
  | r, some .stopped => r = .terminating .drain

/-- Where the handling of an incoming leaves an actor. -/
def HandledAt : Phase M → Option (Loop.Handled Held) → Prop
  | _, none => False
  | r, some (.goOn _) => r = .idle
  | r, some .stop => r = .terminating .drain
  | r, some .failed => r = .failed

namespace Script

variable (S : Script M) (k : Kind) (rootId : ActorId)

/-- What is asked of a body, of its user code and of what is dropped last. -/
structure Keeps where
  /-- The phase in which each turn of the initialisation is begun. -/
  place : S.body.Phase → Phase M
  starting : ∀ phase, place phase = .start k ∨ place phase = .calling .init .none
  first : place S.body.first = .start k
  start : ∀ phase, Turns k rootId S.user (StartedAt place) (S.body.start phase) (place phase)
  handle : ∀ x held, ((S.body.handle x held).translate (Hub.ofOwn S.user)).Follows
    (phases k rootId) HandledAt (.calling .receive .none)
  release : ∀ held, ((S.body.release held).translate (Hub.ofOwn S.user)).Follows
    (phases k rootId) (fun r o => o = some () ∧ r = .terminating .drain) (.dropping false)
  leave : Goes k rootId S.user (fun r _ => r = .terminating (.signal ∅)) S.leave
    (.terminating (.signal ∅))

variable {S k rootId}

namespace Keeps

variable (K : S.Keeps k rootId)

/-- The phase of an actor whose task is at a place, where each turn of the initialisation has its
own. -/
def At : Phase M → S.Place → Prop
  | r, none => r = .unborn ∨ r = .start k
  | r, some (.loop (.starting _ phase)) => r = K.place phase
  | r, some (.loop (.running _ _)) => r = .idle
  | r, some (.loop (.failed _ _)) => r = .failed
  | r, some (.loop (.backoff _ _)) => r = .backoff
  | r, some (.loop .terminate) => r = .terminating .drain
  | _, some (.loop .unwound) => False
  | r, some .terminated => r = .terminating (.signal ∅) ∨ r = .finished

/-- The blocks of the run loop. -/
lemma turns_code (pt : Loop.Point S.body) (h : K.At q (some (.loop pt))) (hpt : pt ≠ .terminate) :
    Turns k rootId S.user (fun r pt => K.At r (some (.loop pt)))
      (Loop.code S.body S.strategy pt) q := by
  cases pt with
  | starting restarts phase =>
      obtain rfl : q = K.place phase := h
      refine .bind ((K.start phase).mono fun r started hr => ?_)
      match started with
      | none => cases hr
      | some (.again phase) => exact .ret_of hr
      | some (.up held) => exact .ret_of hr
      | some .failed => exact .ret_of hr
      | some .stopped => exact .ret_of hr
  | running restarts held =>
      obtain rfl : q = .idle := h
      refine .bind ((turns_nextIncoming k rootId S.user).mono fun r next hr => ?_)
      cases next with
      | again => exact .ret_of hr
      | stopped =>
          obtain rfl : r = .dropping false := hr
          refine .bind ((Turns.emb (K.release held)).mono fun r o ho => ?_)
          obtain ⟨rfl, rfl⟩ := ho
          exact .ret_of rfl
      | incoming x =>
          obtain rfl : r = .calling .receive .none := hr
          refine .bind ((Turns.emb (K.handle x held)).mono fun r handled hr => ?_)
          match handled with
          | none => cases hr
          | some (.goOn held) => exact .ret_of hr
          | some .stop => exact .ret_of hr
          | some .failed => exact .ret_of hr
  | failed restarts up =>
      obtain rfl : q = .failed := h
      refine .bind ((turns_awaitRestart k rootId S.user S.strategy up restarts).mono
        fun r awaited hr => ?_)
      cases awaited with
      | no => exact .ret_of hr
      | yes restarts => exact .ret_of (hr.trans K.first.symm)
      | backoff restarts delay => exact .ret_of hr
  | backoff restarts delay =>
      obtain rfl : q = .backoff := h
      refine .call_of fun stopped _ => ?_
      cases stopped with
      | true => exact ⟨_, .backoffStopped, .ret_of rfl⟩
      | false =>
          refine ⟨_, .backoffPolled, .call_of fun elapsed _ => ⟨_, .sleep delay elapsed, ?_⟩⟩
          cases elapsed with
          | true => exact Prog.Follows.step Phase.Passes.restarted (.ret_of K.first.symm)
          | false => exact .ret_of rfl
  | terminate => exact absurd rfl hpt
  | unwound => cases h

/-- **Every block of a task** follows the phases. -/
lemma code (pt : S.Place) (h : K.At q pt) :
    (S.code pt).Follows (phases k rootId) K.At q := by
  have hloop : ∀ pt : Loop.Point S.body, pt ≠ .terminate → K.At q (some (.loop pt)) →
      Turns k rootId S.user (fun r pt => K.At r (some pt))
        ((Loop.code S.body S.strategy pt).bind fun pt => .ret (.loop pt)) q :=
    fun pt hpt h => .bind ((K.turns_code pt h hpt).mono fun r pt hr => .ret_of hr)
  have hsome : ∀ {p : Loop.Task M (Dropping.Op.Ans (M := M) S.BaseAns) (Dropping.Point S.body)},
      Turns k rootId S.user (fun r pt => K.At r (some pt)) p q →
        ((p.translate (Hub.ofLoop S.user)).bind fun pt => .ret (some pt)).Follows
          (phases k rootId) K.At q :=
    fun h => .bind (Prog.Follows.mono h fun r pt hr => .ret_of hr)
  match pt with
  | none =>
      refine .call_of fun _ _ => ⟨.start k, ?_, .ret_of K.first.symm⟩
      rcases h with rfl | rfl
      · exact .beginUnborn
      · exact .begin
  | some .terminated =>
      refine .call_of fun _ _ => ⟨.finished, ?_, .ret_of (.inr rfl)⟩
      rcases h with rfl | rfl
      · exact .finish
      · exact .finishAgain
  | some (.loop .terminate) =>
      obtain rfl : q = .terminating .drain := h
      refine hsome (.bind ((turns_terminate k rootId S.user).mono fun r o ho => ?_))
      obtain ⟨rfl, rfl⟩ := ho
      refine .bind (.emb (Prog.Follows.mono K.leave fun r o ho => ?_))
      obtain ⟨_, rfl, rfl⟩ := ho
      exact .ret_of (.inl rfl)
  | some (.loop (.starting restarts phase)) => exact hsome (hloop _ nofun h)
  | some (.loop (.running restarts held)) => exact hsome (hloop _ nofun h)
  | some (.loop (.failed restarts up)) => exact hsome (hloop _ nofun h)
  | some (.loop (.backoff restarts delay)) => exact hsome (hloop _ nofun h)
  | some (.loop .unwound) => exact h.elim

end Keeps

/-! ### The script of `spawn` -/

section Spawn

variable {State Error : Type} (user : UserCode M (Actor.Op.Ans (A := ⟨M, State, Error⟩)))
  (strategy : SupervisionStrategy) (rootId : ActorId)

lemma turns_start : Turns .plain rootId user (StartedAt fun _ => .start .plain)
    ((Dropping.spawn ⟨M, State, Error⟩).start ()) (.start .plain) := by
  refine .emb (Goes.run ((stays_callback .plain rootId user .init .init).andThen fun outcome => ?_))
  refine (stays_catchAndLog .plain rootId user outcome rfl).andThen fun state => ?_
  cases state with
  | some state => exact .step (.returned (.initialised .plain)) (.pure rfl)
  | none => exact .step (.returned (.initFails .plain)) (.pure rfl)

lemma follows_handle (x : Incoming M) (state : State) :
    (((Dropping.spawn ⟨M, State, Error⟩).handle x state).translate (Hub.ofOwn user)).Follows
      (phases .plain rootId) HandledAt (.calling .receive .none) := by
  refine Goes.run ((stays_callback .plain rootId user .receive (.receive x state)).andThen
    fun outcome => ?_)
  refine (stays_catchAndLog .plain rootId user outcome rfl).andThen fun control => ?_
  match control with
  | some (.goOn state) => exact .step (.returned .continues) (.pure rfl)
  | some .stop => exact .step (.returned .stops) (.pure rfl)
  | none => exact .step (.returned .fails) (.pure rfl)

/-- **The loop of `spawn`** follows the phases of a plain actor. -/
def spawnKeeps : (Script.spawn user strategy).Keeps .plain rootId where
  place := fun _ => .start .plain
  starting := fun _ => .inl rfl
  first := rfl
  start := fun _ => turns_start user rootId
  handle := follows_handle user rootId
  release := fun _ => Prog.Follows.after
    (stays_dropContainingPanic .plain rootId user .state rfl) fun r o ho => by
      obtain ⟨_, rfl, rfl⟩ := ho
      exact ⟨_, .single (.dropped false), rfl, rfl⟩
  leave := .pure rfl

end Spawn

end Script

end Scripts

end Tellus
