import Mathlib.Tactic
import Tellus.Lib.Simulation
import Tellus.Persistence.Incarnations
import Tellus.Persistence.Loop

/-!
The loop of `spawn_event_sourced`, poll by poll, does what its blocks do.

`Persistence.Spawn` has the loop as blocks in which a recovery is given up wherever it waits, and
in which an incoming is taken and a restart awaited by a single call.  `Persistence.Loop` has it
poll by poll.  Here the polled loops of any number of incarnations share the stores, and whatever
they do is done by the blocks as well: what holds of every state the blocks get the stores into
holds of those the polled loops get them into.

* `rest`: the block, or what is left of it, at each place of the polled loop.
* `follows_code`: every block of the polled loop is followed.
* `polled_refines`: every run of the polled loops is one of the blocks.
* `polled_good`: so the polled loops keep the invariant of the stores.
-/

namespace Tellus

open Concurrent

variable {I : Type} {A : EventSourced I}

namespace EventSourced

/-- The calls of the loop which are those of the blocks. -/
def taskCall : (op : Loop.Op A.Command (Op A)) → op.Ans (Op.Ans (A := A)) →
    Option ((op : Tellus.Op A) × op.Ans)
  | .own (.task op), x => some ⟨op, x⟩
  | _, _ => none

/-- The calls of the blocks for which the loop has polls and probes of its own. -/
def polls : (op : Tellus.Op A) → op.Ans → Prop
  | .stoppedByParent, _ => True
  | .nextIncoming _, _ => True
  | .awaitRestart, _ => True
  | _, _ => False

variable (A)

/-- What is left of the block `run` once the identifier is known. -/
def loadSeed (id : I) : Tellus.Task A (Option (Recovered A)) := do
  match ← Tellus.ask A (.load id) with
  | .ok snapshot => return seedOf A id snapshot
  | .err _ => return none
  | .panic => return none

/-- What is left of the blocks of the recovery. -/
def restOf : Recovering A → Tellus.Task A (Tellus.Point A)
  | .fresh => code A .run
  | .loading pid => do
      match ← (loadSeed A pid).interruptible .stoppedByParent id with
      | none => return .terminate
      | some none => return .failed
      | some (some r) => return .replay r
  | .reading r => code A (.replay r)

/-- What is left of the blocks at a place of the polled loop.  A restart is awaited until the
backoff is over. -/
def rest : Loop.Point A.spawnEventSourced → Tellus.Task A (Tellus.Point A)
  | .starting _ (.select f) => restOf A f
  | .starting _ (.poll f) => restOf A f
  | .starting _ (.recovered r) => code A (.recovered r)
  | .running _ r => .ret (.running r)
  | .failed _ _ => .ret .failed
  | .backoff _ _ => .ret .failed
  | .terminate => .ret .terminate
  | .unwound => .ret .terminate

/-- The blocks have got to where the polled loop is, which has not unwound. -/
def Abreast (pt : Loop.Point A.spawnEventSourced) (q : Tellus.Task A (Tellus.Point A)) : Prop :=
  pt ≠ .unwound ∧ Idles (code A) polls q (rest A pt)

/-- A program of the polled loop is followed by the blocks. -/
abbrev FollowedBy (p : Loop.Task A.Command (Op.Ans (A := A)) (Loop.Point A.spawnEventSourced))
    (q : Tellus.Task A (Tellus.Point A)) : Prop :=
  Follows (code A) polls taskCall (Abreast A) p q

variable {A}

/-- A recovery may be given up wherever its stop is polled. -/
lemma restOf_stopped (f : Recovering A) : Idles (code A) polls (restOf A f) (.ret .terminate) := by
  cases f with
  | fresh => exact .call true trivial (.refl _)
  | loading id => exact .call true trivial (.refl _)
  | reading r => exact .call true trivial (.refl _)

/-- No incoming is taken, the parent stopping the actor. -/
lemma idles_stopped (r : Recovered A) :
    Idles (code A) polls (.ret (.running r)) (.ret .terminate) :=
  .jump (.call (o := Tellus.Op.nextIncoming r) none trivial (.refl _))

/-- A program of the blocks is followed by itself. -/
lemma follows_emb {α : Type} (p : Tellus.Task A α) {f : α → Tellus.Task A (Tellus.Point A)}
    {Q : α → Tellus.Task A (Tellus.Point A) → Prop} (hQ : ∀ a, Q a (f a)) :
    Follows (code A) polls taskCall Q (Loop.emb (M := A.Command) (emb A p)) (p.bind f) := by
  induction p with
  | ret a => exact hQ a
  | call op k ih => exact fun x => ⟨_, .refl _, ih x⟩

/-! ### The blocks of the polled loop -/

variable (A) in
/-- What is left of the block `running` once an incoming has been taken. -/
def handling (x : Incoming A.Command) (r : Recovered A) : Tellus.Task A (Tellus.Point A) := do
  match catchAndLog (← Tellus.ask A (.handle x r.state)) with
  | none => return .failed
  | some effect =>
      match ← settle A r.id r.state r.nextSeqNo effect with
      | some settled =>
          if settled.stop then
            return .terminate
          else
            return .running ⟨r.id, settled.state, settled.nextSeqNo⟩
      | none => return .failed

/-- An incoming is taken. -/
lemma idles_taken (x : Incoming A.Command) (r : Recovered A) :
    Idles (code A) polls (.ret (.running r)) (handling A x r) :=
  .jump (.call (o := Tellus.Op.nextIncoming r) (some x) trivial (.refl _))

/-- The next incoming is taken by one call, whatever is polled for it. -/
lemma follows_nextIncoming (r : Recovered A)
    {Q : Loop.Next A.Command → Tellus.Task A (Tellus.Point A) → Prop}
    (hstopped : Q .stopped (.ret .terminate)) (hagain : Q .again (.ret (.running r)))
    (hincoming : ∀ x, Q (.incoming x) (handling A x r)) : Follows (code A) polls taskCall Q
      (Loop.nextIncoming : Loop.Task A.Command (Op.Ans (A := A)) (Loop.Next A.Command))
      (.ret (.running r)) := by
  intro stopped
  cases stopped with
  | true => exact ⟨_, idles_stopped r, hstopped⟩
  | false =>
      refine ⟨_, .refl _, fun received => ?_⟩
      match received with
      | none => exact ⟨_, .refl _, hagain⟩
      | some (.message m) => exact ⟨_, idles_taken (.message m) r, hincoming _⟩
      | some (.terminated other) =>
          refine ⟨_, .refl _, fun watched => ?_⟩
          cases watched with
          | true => exact ⟨_, idles_taken (.terminated other) r, hincoming _⟩
          | false => exact ⟨_, .refl _, hagain⟩

/-- An incoming is handled, and the effect settled, call by call. -/
lemma follows_handle (x : Incoming A.Command) (r : Recovered A)
    {Q : Option (Loop.Handled (Recovered A)) → Tellus.Task A (Tellus.Point A) → Prop}
    (hgoOn : ∀ r', Q (some (.goOn r')) (.ret (.running r')))
    (hstop : Q (some .stop) (.ret .terminate)) (hfailed : Q (some .failed) (.ret .failed)) :
    Follows (code A) polls taskCall Q (Loop.emb (M := A.Command) (handle A x r))
      (handling A x r) := by
  intro outcome
  refine ⟨_, .refl _, ?_⟩
  cases outcome with
  | err e => exact hfailed
  | panic => exact hfailed
  | ok effect =>
      dsimp only [catchAndLog, Prog.bind_eq, Prog.ret_bind]
      rw [Loop.emb_bind]
      refine Follows.bind (follows_emb _ fun settled => ?_)
      cases settled with
      | none => exact hfailed
      | some settled =>
          dsimp only
          split
          · exact hstop
          · exact hgoOn _

/-- Asking for how long the actor was up goes unnoticed. -/
lemma follows_elapsed (strategy : SupervisionStrategy) (up : Bool)
    {q : Tellus.Task A (Tellus.Point A)} {Q : Bool → Tellus.Task A (Tellus.Point A) → Prop}
    (hQ : ∀ reset, Q reset q) : Follows (code A) polls taskCall Q
      (Loop.elapsed strategy up : Loop.Task A.Command (Op.Ans (A := A)) Bool) q := by
  unfold Loop.elapsed
  split
  · exact fun reset => ⟨q, .refl q, hQ reset⟩
  · exact hQ false

/-- A failed actor is handed to supervision: it is not restarted, or it is, or not yet. -/
lemma follows_awaitRestart (strategy : SupervisionStrategy) (up : Bool) (restarts : ℕ)
    {q : Tellus.Task A (Tellus.Point A)}
    {Q : Loop.Awaited → Tellus.Task A (Tellus.Point A) → Prop} (hQ : ∀ awaited, Q awaited q) :
    Follows (code A) polls taskCall Q
      (Loop.awaitRestart strategy up restarts :
        Loop.Task A.Command (Op.Ans (A := A)) Loop.Awaited) q := by
  refine Follows.bind (follows_elapsed strategy up fun reset => ?_)
  split
  · exact hQ _
  · exact hQ _
  · refine fun changed => ⟨q, .refl q, ?_⟩
    dsimp only [Prog.ret_bind]
    split
    · exact hQ _
    · refine fun _ => ⟨q, .refl q, ?_⟩
      dsimp only [Prog.ret_bind]
      split
      · refine fun changed => ⟨q, .refl q, ?_⟩
        dsimp only [Prog.ret_bind]
        split
        · exact hQ _
        · exact hQ _
      · exact hQ _

/-- A poll of the recovery. -/
lemma follows_poll (strategy : SupervisionStrategy) (restarts : ℕ) (f : Recovering A) :
    FollowedBy A (Loop.code A.spawnEventSourced strategy (.starting restarts (.poll f)))
      (restOf A f) := by
  cases f with
  | fresh =>
      refine fun x => ⟨_, .call false trivial (.refl _), ?_⟩
      cases x with
      | none => exact ⟨nofun, .call false trivial (.refl _)⟩
      | some id => exact ⟨nofun, .refl _⟩
  | loading id =>
      intro pending
      cases pending with
      | true => exact ⟨_, .refl _, nofun, .refl _⟩
      | false =>
          refine ⟨_, .refl _, fun x => ⟨_, .call false trivial (.refl _), ?_⟩⟩
          cases x with
          | err e => exact ⟨nofun, .call false trivial (.refl _)⟩
          | panic => exact ⟨nofun, .call false trivial (.refl _)⟩
          | ok snapshot =>
              dsimp only [Prog.ret_bind]
              cases hseed : seedOf A id snapshot with
              | none => exact ⟨nofun, .call false trivial (.refl _)⟩
              | some r => exact ⟨nofun, .call false trivial (.jump (.refl _))⟩
  | reading r =>
      intro pending
      cases pending with
      | true => exact ⟨_, .refl _, nofun, .refl _⟩
      | false =>
          refine ⟨_, .refl _, fun x => ⟨_, .call false trivial (.refl _), ?_⟩⟩
          cases x with
          | err e => exact ⟨nofun, .call false trivial (.refl _)⟩
          | panic => exact ⟨nofun, .call false trivial (.refl _)⟩
          | ok page =>
              dsimp only [Prog.ret_bind, Prog.pure_eq, emb, Loop.emb]
              cases hpage : catchAndLog (replayPage A r.id r.state r.nextSeqNo page) with
              | none => exact ⟨nofun, .call false trivial (.refl _)⟩
              | some next =>
                  dsimp only [Option.map]
                  cases hshort : decide (page.length < replayPageLimit) with
                  | true => exact ⟨nofun, .call false trivial (.jump (.refl _))⟩
                  | false => exact ⟨nofun, .call false trivial (.jump (.refl _))⟩

/-- **Every block of the polled loop is followed.** -/
lemma follows_code (strategy : SupervisionStrategy) (pt : Loop.Point A.spawnEventSourced)
    (hpt : pt ≠ .unwound) :
    FollowedBy A (Loop.code A.spawnEventSourced strategy pt) (rest A pt) := by
  cases pt with
  | starting restarts phase =>
      cases phase with
      | select f =>
          intro stopped
          cases stopped with
          | true => exact ⟨_, restOf_stopped f, nofun, .refl _⟩
          | false => exact ⟨_, .refl _, nofun, .refl _⟩
      | poll f => exact follows_poll strategy restarts f
      | recovered r =>
          refine fun x => ⟨_, .refl _, ?_⟩
          cases x with
          | ok state => exact ⟨nofun, .refl _⟩
          | err e => exact ⟨nofun, .refl _⟩
          | panic => exact ⟨nofun, .refl _⟩
  | running restarts r =>
      refine Follows.bind (follows_nextIncoming r ⟨nofun, .refl _⟩ ⟨nofun, .refl _⟩ fun x => ?_)
      refine Follows.bind (follows_handle x r (fun r' => ?_) ?_ ?_)
      · exact ⟨nofun, .refl _⟩
      · exact ⟨nofun, .refl _⟩
      · exact ⟨nofun, .refl _⟩
  | failed restarts up =>
      refine Follows.bind (follows_awaitRestart strategy up restarts fun awaited => ?_)
      cases awaited with
      | no => exact ⟨nofun, .jump (.call false trivial (.refl _))⟩
      | yes restarts => exact ⟨nofun, .jump (.call true trivial (.jump (.refl _)))⟩
      | backoff restarts delay => exact ⟨nofun, .refl _⟩
  | backoff restarts delay =>
      intro stopped
      cases stopped with
      | true => exact ⟨_, .refl _, nofun, .jump (.call false trivial (.refl _))⟩
      | false =>
          refine ⟨_, .refl _, fun slept => ?_⟩
          cases slept with
          | true => exact ⟨_, .refl _, nofun, .jump (.call true trivial (.jump (.refl _)))⟩
          | false => exact ⟨_, .refl _, nofun, .refl _⟩
  | terminate => exact ⟨nofun, .refl _⟩
  | unwound => exact absurd rfl hpt

end EventSourced

/-! ### Incarnations which poll -/

section Polled

variable {ι : Type} [DecidableEq I] [DecidableEq ι] {ident : ι → I} {late foreign : Prop}
  {strategy : ι → SupervisionStrategy}

/-- The shared stores, and the task of each incarnation in its polled loop. -/
abbrev PolledState (A : EventSourced I) (ι : Type) :=
  Tasks ι (Loop.Op A.Command (EventSourced.Op A)) (Loop.Op.Ans EventSourced.Op.Ans) (Shared A ι)
    (Loop.Point A.spawnEventSourced)

variable (A ident late foreign strategy) in
/-- The states polled loops get the stores into.  Their polls, probes and sleeps are answered in
any way. -/
def PolledReachable (st : PolledState A ι) : Prop :=
  Tasks.Reaches (fun i => Loop.code A.spawnEventSourced (strategy i))
    (Below (Exec ident late) EventSourced.taskCall) (Env foreign)
    ⟨Shared.init, fun _ => .ret (Loop.entry _)⟩ st

variable {st' : PolledState A ι}

/-- The stores do not change by what the loop polls instead. -/
lemma exec_polls (i : ι) (s : Shared A ι) (op : Op A) (x : op.Ans)
    (hx : EventSourced.polls op x) : Exec ident late i s op x s := by
  cases op with
  | stoppedByParent => exact .stoppedByParent x
  | nextIncoming held => exact .nextIncoming held x
  | awaitRestart => exact .awaitRestart x
  | _ => cases hx

/-- **The polled loops do what the blocks do**: whatever state they get the stores into, the blocks
get them into it as well, while no loop has unwound and each has its blocks abreast of it. -/
theorem polled_refines (h : PolledReachable A ident late foreign strategy st') :
    ∃ st, Reachable A ident late foreign st ∧ st.shared = st'.shared ∧
      ∀ i pt, st'.task i = .ret pt → EventSourced.Abreast A pt (st.task i) := by
  have hstart : Mirrors (code A) EventSourced.polls EventSourced.taskCall (EventSourced.Abreast A)
      (⟨Shared.init, fun _ => .ret (Loop.entry _)⟩ : PolledState A ι) (Incarnations.init A) :=
    ⟨rfl, fun _ => ⟨nofun, .jump (.refl _)⟩⟩
  obtain ⟨st, hreach, hmirrors⟩ := Mirrors.run exec_polls
    (fun i pt q hq => ⟨_, hq.2, EventSourced.follows_code (strategy i) pt hq.1⟩) hstart h
  refine ⟨st, hreach, hmirrors.shared, fun i pt hpt => ?_⟩
  have hfollows := hmirrors.task i
  rw [hpt] at hfollows
  exact hfollows

/-- So the polled loops keep the invariant of the stores, and whoever is about to take an incoming
holds the fold of the stored events before its position. -/
theorem polled_good (h : PolledReachable A ident late foreign strategy st') :
    Inv foreign st'.shared ∧ ∀ i restarts r, st'.task i = .ret (.running restarts r) →
      AtEnd A ident False i st'.shared r := by
  obtain ⟨st, hst, hshared, habreast⟩ := polled_refines h
  rw [← hshared]
  refine ⟨hst.good.1, fun i restarts r htask => ?_⟩
  obtain ⟨-, hidles⟩ := habreast i _ htask
  have hgood := (hst.trans (hidles.reaches exec_polls rfl)).good
  have hsafe := hgood.2 i
  dsimp only at hsafe
  rw [Function.update_self] at hsafe
  exact hsafe.result hgood.1

end Polled

end Tellus
