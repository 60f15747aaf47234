import Mathlib.Tactic
import Tellus.Actor.Loop
import Tellus.Lib.Runs

/-!
Restarts neither lose, repeat nor reorder incomings.

The mailbox is a queue which anyone may add to at any time.  The loop of `spawn` runs on it
(`Exec`), its callbacks answering whatever they like and watching whom they like, and the log
records what has become of every incoming taken from the queue.

* `Books`: every incoming is in the log, in the task's hands or in the mailbox, in the order in
  which it was enqueued.
* `Folds`: the state which the incomings handed over since an initialisation have led to.
* `restarts_keep_incomings`: both, in every reachable state.
-/

namespace Tellus.Actor

open Concurrent

variable {A : Actor}

/-! ### The mailbox -/

/-- What has happened to the actor.  An unwatched signal comes with the actors which were
watched when it was dropped. -/
inductive Entry (A : Actor) where
  | init (result : Outcome A.Error A.State)
  | unwatched (other : ActorId) (watched : Set ActorId)
  | handed (incoming : Incoming A.Message) (state : A.State)
      (result : Outcome A.Error (Control A.State))

/-- An actor's mailbox with its history. -/
structure Mailbox (A : Actor) where
  /-- What is in the mailbox, oldest first. -/
  queue : List (Incoming A.Message)
  /-- All that has ever been in it. -/
  enqueued : List (Incoming A.Message)
  /-- What has been taken out of it and not been dealt with yet. -/
  inHand : Option (Incoming A.Message)
  watched : Set ActorId
  log : List (Entry A)

/-- The mailbox of a new actor. -/
def Mailbox.new : Mailbox A := ⟨[], [], none, ∅, []⟩

/-- Anyone may enqueue. -/
inductive Enqueue : Mailbox A → Mailbox A → Prop
  | enqueue (w : Mailbox A) (x : Incoming A.Message) :
      Enqueue w { w with queue := w.queue ++ [x], enqueued := w.enqueued ++ [x] }

/-- The calls of the loop.  A callback may watch and unwatch at will. -/
inductive Exec (w : Mailbox A) :
    (op : Loop.Op A.Message (Op A)) → op.Ans Op.Ans → Mailbox A → Prop
  | pollStopped (x : Bool) : Exec w .pollStopped x w
  | hasChanged (x : Option Bool) : Exec w .hasChanged x w
  | pending (h : w.queue = []) : Exec w .recv none w
  | recv {x : Incoming A.Message} {queue : List (Incoming A.Message)}
      (h : w.queue = x :: queue) :
      Exec w .recv (some x) { w with queue := queue, inHand := some x }
  | watched {other : ActorId} (h : other ∈ w.watched) :
      Exec w (.takeWatchedFor other) true { w with watched := w.watched \ {other} }
  | unwatched {other : ActorId} (h : other ∉ w.watched) :
      Exec w (.takeWatchedFor other) false
        { w with inHand := none, log := w.log ++ [.unwatched other w.watched] }
  | elapsed (resetAfter : ℕ) (x : Bool) : Exec w (.elapsed resetAfter) x w
  | stopChildren : Exec w .stopChildren () w
  | sleep (delay : ℕ) (x : Bool) : Exec w (.sleep delay) x w
  | init (r : Outcome A.Error A.State) (watched : Set ActorId) :
      Exec w (.own .init) r { w with watched := watched, log := w.log ++ [.init r] }
  | receive (x : Incoming A.Message) (s : A.State) (r : Outcome A.Error (Control A.State))
      (watched : Set ActorId) :
      Exec w (.own (.receive x s)) r
        { w with watched := watched, inHand := none, log := w.log ++ [.handed x s r] }

/-! ### What the log says -/

/-- The incoming an entry is about. -/
def Entry.item : Entry A → Option (Incoming A.Message)
  | .init _ => none
  | .unwatched other _ => some (.terminated other)
  | .handed x _ _ => some x

/-- The incomings taken from the mailbox and dealt with, in order. -/
def items (log : List (Entry A)) : List (Incoming A.Message) := log.filterMap Entry.item

/-- An incoming with the state it was handed and what came of it. -/
abbrev Handed (A : Actor) :=
  Incoming A.Message × A.State × Outcome A.Error (Control A.State)

/-- The state of the latest initialisation, unless it failed, and what has been handed over
since. -/
def sinceInit (log : List (Entry A)) : Option (A.State × List (Handed A)) :=
  log.foldl (fun since e =>
    match e with
    | .init r => (catchAndLog r).map (·, [])
    | .unwatched _ _ => since
    | .handed x s r => since.map fun p => (p.1, p.2 ++ [(x, s, r)])) none

/-- From the first state on, each incoming was handed the state the one before it had led to,
and the last one has led to the second state. -/
inductive Folds (seed : A.State) : List (Handed A) → A.State → Prop
  | nil : Folds seed [] seed
  | snoc {handed : List (Handed A)} {state state' : A.State} (x : Incoming A.Message)
      (h : Folds seed handed state) :
      Folds seed (handed ++ [(x, state, .ok (.goOn state'))]) state'

/-- The state `receive` goes on with. -/
def advance (receive : Incoming A.Message → A.State → Outcome A.Error (Control A.State))
    (state : A.State) (x : Incoming A.Message) : Option A.State :=
  match receive x state with
  | .ok (.goOn state) => some state
  | _ => none

/-- A `receive` which is a function of the incoming and the state is folded. -/
lemma Folds.foldlM {seed state : A.State} {handed : List (Handed A)}
    (h : Folds seed handed state)
    {receive : Incoming A.Message → A.State → Outcome A.Error (Control A.State)}
    (hr : ∀ c ∈ handed, c.2.2 = receive c.1 c.2.1) :
    (handed.map Prod.fst).foldlM (advance receive) seed = some state := by
  induction h with
  | nil => rfl
  | @snoc handed state state' x _ ih =>
      have hx : receive x state = .ok (.goOn state') := (hr (x, state, _) (by simp)).symm
      have hfold := ih fun c hc => hr c (by simp [hc])
      rw [List.map_append, List.foldlM_append, hfold]
      simp [advance, hx]

/-- The state to hand over next. -/
def Holds (log : List (Entry A)) (state : A.State) : Prop :=
  ∃ seed handed, sinceInit log = some (seed, handed) ∧ Folds seed handed state

@[simp] lemma items_concat (log : List (Entry A)) (e : Entry A) :
    items (log ++ [e]) = items log ++ e.item.toList := by
  cases h : e.item <;> simp [items, h]

lemma holds_init (log : List (Entry A)) (state : A.State) :
    Holds (log ++ [.init (.ok state)]) state :=
  ⟨state, [], by simp [sinceInit, catchAndLog], .nil⟩

lemma Holds.unwatched {log : List (Entry A)} {state : A.State} (h : Holds log state)
    (other : ActorId) (watched : Set ActorId) :
    Holds (log ++ [.unwatched other watched]) state := by
  obtain ⟨seed, handed, hs, hf⟩ := h
  refine ⟨seed, handed, ?_, hf⟩
  rw [← hs]
  simp [sinceInit]

lemma Holds.handed {log : List (Entry A)} {state : A.State} (h : Holds log state)
    (x : Incoming A.Message) (state' : A.State) :
    Holds (log ++ [.handed x state (.ok (.goOn state'))]) state' := by
  obtain ⟨seed, handed, hs, hf⟩ := h
  refine ⟨seed, handed ++ [(x, state, .ok (.goOn state'))], ?_, hf.snoc x⟩
  simp only [sinceInit, List.foldl_append, List.foldl_cons, List.foldl_nil] at hs ⊢
  rw [hs]
  rfl

/-! ### The books -/

/-- Every incoming is in the log, in hand or in the mailbox; only signals of actors not watched
at that moment were dropped; and each incoming was handed the state due. -/
structure Books (w : Mailbox A) : Prop where
  enqueued : w.enqueued = items w.log ++ w.inHand.toList ++ w.queue
  dropped : ∀ other watched, .unwatched other watched ∈ w.log → other ∉ watched
  due : ∀ before x s r after, w.log = before ++ .handed x s r :: after → Holds before s

/-- What the task owes before a call: what it hands over or drops is what it has in hand, and
it takes nothing else meanwhile. -/
def Owes (w : Mailbox A) : Loop.Op A.Message (Op A) → Prop
  | .recv => w.inHand = none
  | .takeWatchedFor other => w.inHand = some (.terminated other)
  | .own .init => w.inHand = none
  | .own (.receive x s) => w.inHand = some x ∧ Holds w.log s
  | _ => True

/-- The contract of the task: nobody else touches its log and what it has in hand. -/
def contract (A : Actor) : Contract Unit (Loop.Op A.Message (Op A)) (Loop.Op.Ans Op.Ans)
    (Mailbox A) where
  exec := fun _ => Exec
  pre := fun _ => Owes
  inv := Books
  rely := fun _ w w' => w'.log = w.log ∧ w'.inHand = w.inHand
  rely_refl := fun _ _ => ⟨rfl, rfl⟩
  rely_trans := fun _ _ _ _ h h' => ⟨h'.1.trans h.1, h'.2.trans h.2⟩

variable {w w' : Mailbox A}

lemma Books.due_concat (h : Books w) {e : Entry A}
    (he : ∀ x s r, e = .handed x s r → Holds w.log s) :
    ∀ before x s r after, w.log ++ [e] = before ++ .handed x s r :: after → Holds before s := by
  intro before x s r after hcut
  rcases cut_concat hcut with ⟨rfl, hx, -⟩ | ⟨after', -, hlog⟩
  · exact he x s r hx.symm
  · exact h.due before x s r after' hlog

/-- Every call keeps the books. -/
lemma Books.exec (h : Books w) {op : Loop.Op A.Message (Op A)} {x : op.Ans Op.Ans}
    (howes : Owes w op) (hx : Exec w op x w') : Books w' := by
  cases hx with
  | pollStopped | hasChanged | pending | elapsed | stopChildren | sleep => exact h
  | recv hq =>
      have hnone : w.inHand = none := howes
      exact ⟨by simpa [hnone, hq] using h.enqueued, h.dropped, h.due⟩
  | watched => exact ⟨h.enqueued, h.dropped, h.due⟩
  | unwatched hn =>
      have hhand : w.inHand = some _ := howes
      refine ⟨?_, ?_, h.due_concat (by simp)⟩
      · simpa [hhand, Entry.item] using h.enqueued
      · intro other watched hmem
        rcases List.mem_append.mp hmem with hmem | hmem
        · exact h.dropped other watched hmem
        · cases List.mem_singleton.mp hmem
          exact hn
  | init r watched =>
      refine ⟨?_, ?_, h.due_concat (by simp)⟩
      · simpa [Entry.item] using h.enqueued
      · simpa using h.dropped
  | receive x s r watched =>
      obtain ⟨hhand, hholds⟩ : w.inHand = some x ∧ Holds w.log s := howes
      refine ⟨?_, ?_, h.due_concat ?_⟩
      · simpa [hhand, Entry.item] using h.enqueued
      · simpa using h.dropped
      · rintro _ _ _ ⟨⟩
        exact hholds

/-- Enqueueing keeps the books. -/
lemma Books.enqueue (h : Books w) (he : Enqueue w w') :
    Books w' ∧ w'.log = w.log ∧ w'.inHand = w.inHand := by
  cases he with
  | enqueue x =>
      refine ⟨⟨?_, h.dropped, h.due⟩, rfl, rfl⟩
      simpa using congrArg (· ++ [x]) h.enqueued

/-! ### The loop keeps its part -/

/-- Nothing is in hand. -/
def Idle (w : Mailbox A) : Prop := w.inHand = none

/-- Nothing is in hand and the state due is `s`. -/
def Ready (s : A.State) (w : Mailbox A) : Prop := w.inHand = none ∧ Holds w.log s

/-- `x` is in hand and the state due is `s`. -/
def Holding (x : Incoming A.Message) (s : A.State) (w : Mailbox A) : Prop :=
  w.inHand = some x ∧ Holds w.log s

/-- What depends on the log and on what is in hand only is stable. -/
lemma stable_of (P : List (Entry A) → Option (Incoming A.Message) → Prop) :
    Stable (contract A) () fun w => P w.log w.inHand := by
  rintro w w' h ⟨hlog, hhand⟩ -
  rw [hlog, hhand]
  exact h

lemma stable_idle : Stable (contract A) () Idle := stable_of fun _ hand => hand = none

lemma stable_ready (s : A.State) : Stable (contract A) () (Ready s) :=
  stable_of fun log hand => hand = none ∧ Holds log s

lemma stable_holding (x : Incoming A.Message) (s : A.State) :
    Stable (contract A) () (Holding x s) :=
  stable_of fun log hand => hand = some x ∧ Holds log s

/-- What holds when the loop goes back to one of its places. -/
def Rest (w : Mailbox A) : Loop.Point A.spawn → Prop
  | .running _ s => Ready s w
  | _ => Idle w

section Safety

variable {α : Type} {post : Mailbox A → α → Prop}

lemma safe_ret {P : Mailbox A → Prop} (hP : Stable (contract A) () P) {a : α} (hw : P w)
    (h : ∀ t, P t → post t a) : Safe (contract A) () post (.ret a) w :=
  Safe.ret_of hP hw fun t _ => h t

lemma safe_call {P : Mailbox A → Prop} (hP : Stable (contract A) () P)
    {op : Loop.Op A.Message (Op A)} {k : op.Ans Op.Ans → Loop.Task A.Message Op.Ans α} (hw : P w)
    (hpre : ∀ t, P t → Owes t op)
    (hk : ∀ t x t', P t → Exec t op x t' → Safe (contract A) () post (k x) t') :
    Safe (contract A) () post (.call op k) w :=
  Safe.call_of hP hw fun t _ ht => ⟨hpre t ht, fun x t' hx _ => hk t x t' ht hx⟩

end Safety

/-- `next_incoming!` takes an incoming into the task's hands or leaves the state due. -/
lemma safe_nextIncoming {s : A.State} (h : Ready s w) :
    Safe (contract A) () (fun w next =>
      match next with
      | .incoming x => Holding x s w
      | _ => Ready s w) Loop.nextIncoming w := by
  refine safe_call (stable_ready s) h (fun _ _ => trivial) ?_
  rintro t _ _ ht (⟨_ | _⟩)
  · refine safe_call (stable_ready s) ht (fun _ h => h.1) ?_
    intro t x t' ht hx
    cases hx with
    | pending => exact safe_ret (stable_ready s) ht fun _ h => h
    | @recv x queue hq =>
        have hx : Holding x s { t with queue := queue, inHand := some x } := ⟨rfl, ht.2⟩
        cases x with
        | message m => exact safe_ret (stable_holding _ s) hx fun _ h => h
        | terminated other =>
            refine safe_call (stable_holding _ s) hx (fun _ h => h.1) ?_
            intro t x t' ht hx
            cases hx with
            | watched => exact safe_ret (stable_holding (.terminated other) s) ht fun _ h => h
            | unwatched =>
                exact safe_ret (stable_ready s) ⟨rfl, ht.2.unwatched _ _⟩ fun _ h => h
  · exact safe_ret (stable_ready s) ht fun _ h => h

/-- Deciding about a restart takes nothing from the mailbox. -/
lemma safe_awaitRestart (strategy : SupervisionStrategy) (up : Bool) (restarts : ℕ)
    (h : Idle w) :
    Safe (contract A) () (fun w _ => Idle w) (Loop.awaitRestart strategy up restarts) w := by
  have hprobe : ∀ {α : Type} {post : Mailbox A → α → Prop} {k : Option Bool → _} {w : Mailbox A},
      Idle w → (∀ x t, Idle t → Safe (contract A) () post (k x) t) →
      Safe (contract A) () post (.call .hasChanged k) w := by
    intro α post k w hw hk
    refine safe_call stable_idle hw (fun _ _ => trivial) ?_
    rintro t x _ ht ⟨⟩
    exact hk x t ht
  have hreset : Safe (contract A) () (fun w _ => Idle w) (Loop.elapsed strategy up) w := by
    unfold Loop.elapsed
    split
    · refine safe_call stable_idle h (fun _ _ => trivial) ?_
      rintro t _ _ ht ⟨⟩
      exact safe_ret stable_idle ht fun _ h => h
    · exact safe_ret stable_idle h fun _ h => h
  refine hreset.bind fun t reset _ ht => ?_
  split
  · exact safe_ret stable_idle ht fun _ h => h
  · exact safe_ret stable_idle ht fun _ h => h
  · refine hprobe ht fun x t ht => ?_
    rw [Prog.ret_bind]
    split
    · exact safe_ret stable_idle ht fun _ h => h
    · refine safe_call stable_idle ht (fun _ _ => trivial) ?_
      rintro t _ _ ht ⟨⟩
      rw [Prog.ret_bind]
      split
      · refine hprobe ht fun x t ht => ?_
        rw [Prog.ret_bind]
        split
        · exact safe_ret stable_idle ht fun _ h => h
        · exact safe_ret stable_idle ht fun _ h => h
      · exact safe_ret stable_idle ht fun _ h => h

/-- Every block of the loop keeps its part. -/
lemma safe_code (strategy : SupervisionStrategy) (pt : Loop.Point A.spawn) (h : Rest w pt) :
    Safe (contract A) () Rest (Loop.code A.spawn strategy pt) w := by
  cases pt with
  | starting restarts phase =>
      refine safe_call stable_idle h (fun _ ht => ht) ?_
      rintro t x _ ht ⟨⟩
      cases x with
      | ok state => exact safe_ret (stable_ready state) ⟨ht, holds_init _ _⟩ fun _ h => h
      | err e => exact safe_ret stable_idle ht fun _ h => h
      | panic => exact safe_ret stable_idle ht fun _ h => h
  | running restarts s =>
      refine (safe_nextIncoming h).bind fun t next _ ht => ?_
      cases next with
      | stopped => exact safe_ret stable_idle ht.1 fun _ h => h
      | again => exact safe_ret (stable_ready s) ht fun _ h => h
      | incoming x =>
          refine safe_call (stable_holding x s) ht (fun _ h => h) ?_
          rintro t r _ ht ⟨⟩
          match r with
          | .ok (.goOn s') =>
              exact safe_ret (stable_ready s') ⟨rfl, ht.2.handed x s'⟩ fun _ h => h
          | .ok .stop => exact safe_ret stable_idle rfl fun _ h => h
          | .err e => exact safe_ret stable_idle rfl fun _ h => h
          | .panic => exact safe_ret stable_idle rfl fun _ h => h
  | failed restarts up =>
      refine (safe_awaitRestart strategy up restarts h).bind fun t awaited _ ht => ?_
      cases awaited with
      | no => exact safe_ret stable_idle ht fun _ h => h
      | yes restarts => exact safe_ret stable_idle ht fun _ h => h
      | backoff restarts delay => exact safe_ret stable_idle ht fun _ h => h
  | backoff restarts delay =>
      refine safe_call stable_idle h (fun _ _ => trivial) ?_
      rintro t _ _ ht (⟨_ | _⟩)
      · refine safe_call stable_idle ht (fun _ _ => trivial) ?_
        rintro t x _ ht ⟨⟩
        cases x with
        | true => exact safe_ret stable_idle ht fun _ h => h
        | false => exact safe_ret stable_idle ht fun _ h => h
      · exact safe_ret stable_idle ht fun _ h => h
  | terminate => exact safe_ret stable_idle h fun _ h => h
  | unwound => exact safe_ret stable_idle h fun _ h => h

/-! ### The result -/

/-- The states the task of an actor and its mailbox get into, from the spawn on. -/
def Reachable (A : Actor) (strategy : SupervisionStrategy)
    (st : Tasks Unit (Loop.Op A.Message (Op A)) (Loop.Op.Ans Op.Ans) (Mailbox A)
      (Loop.Point A.spawn)) : Prop :=
  Tasks.Reaches (fun _ => Loop.code A.spawn strategy) (fun _ => Exec) Enqueue
    (.solo .new (.ret (Loop.entry A.spawn))) st

/-- **Restarts neither lose, repeat nor reorder incomings.**  However often `init` and `receive`
fail, the incomings enqueued are those handed over and the signals of actors not watched any
more when they came up, in this order, then one which may be in hand, then those still in the
mailbox; and each was handed the state which the incomings handed over since the latest
initialisation had led to from that initialisation's state. -/
theorem restarts_keep_incomings {strategy : SupervisionStrategy}
    {st : Tasks Unit (Loop.Op A.Message (Op A)) (Loop.Op.Ans Op.Ans) (Mailbox A)
      (Loop.Point A.spawn)} (h : Reachable A strategy st) :
    st.shared.enqueued =
      items st.shared.log ++ st.shared.inHand.toList ++ st.shared.queue ∧
    (∀ other watched, .unwatched other watched ∈ st.shared.log → other ∉ watched) ∧
    ∀ before x s r after, st.shared.log = before ++ .handed x s r :: after →
      ∃ seed handed, sinceInit before = some (seed, handed) ∧ Folds seed handed s ∧
        ∀ receive, (∀ c ∈ handed, c.2.2 = receive c.1 c.2.1) →
          (handed.map Prod.fst).foldlM (advance receive) seed = some s := by
  have hstart : Tasks.Good (contract A) (fun _ => Rest)
      (.solo .new (.ret (Loop.entry A.spawn))) := by
    refine ⟨⟨rfl, by simp [Tasks.solo, Mailbox.new], by simp [Tasks.solo, Mailbox.new]⟩,
      fun _ => ?_⟩
    exact safe_ret stable_idle rfl fun _ h => h
  obtain ⟨hbooks, -⟩ := Tasks.invariant (fun _ _ pt _ => safe_code strategy pt)
    (fun _ _ _ _ _ hb howes hx => ⟨hb.exec howes hx, fun j hj => absurd rfl hj⟩)
    (fun _ _ hb he => ⟨(hb.enqueue he).1, fun _ => (hb.enqueue he).2⟩) hstart h
  refine ⟨hbooks.enqueued, hbooks.dropped, fun before x s r after hlog => ?_⟩
  obtain ⟨seed, handed, hs, hf⟩ := hbooks.due before x s r after hlog
  exact ⟨seed, handed, hs, hf, fun receive hr => hf.foldlM hr⟩

/-- Up to one restart, at once. -/
def oneRestart : SupervisionStrategy := .restart ⟨1, Nat.one_pos, ⟨0, 0, le_rfl⟩, 0⟩

/-- The first of two messages makes the actor fail, the second is handed to its successor. -/
theorem restarts_keep_second : ∃ st, Reachable summer oneRestart st ∧
    st.shared.log = [.init (.ok (0 : ℕ)), .handed (.message (1 : ℕ)) (0 : ℕ) .panic,
      .init (.ok (5 : ℕ)), .handed (.message (2 : ℕ)) (5 : ℕ) (.ok (.goOn (7 : ℕ)))] ∧
    st.shared.enqueued = items st.shared.log := by
  have h : Reachable summer oneRestart (.solo .new (.ret (Loop.entry summer.spawn))) := .refl
  have h := Tasks.solo_env h (.enqueue _ (.message (1 : ℕ)))
  have h := Tasks.solo_env h (.enqueue _ (.message (2 : ℕ)))
  have h := Tasks.solo_answer (Tasks.solo_jump h) (.init (.ok (0 : ℕ)) ∅)
  have h := Tasks.solo_answer (Tasks.solo_jump h) (.pollStopped false)
  have h := Tasks.solo_answer h (.recv rfl)
  have h := Tasks.solo_answer h (.receive _ _ .panic ∅)
  have h := Tasks.solo_answer (Tasks.solo_jump h) (.elapsed _ false)
  have h := Tasks.solo_answer h (.hasChanged (some false))
  have h := Tasks.solo_answer h .stopChildren
  have h := Tasks.solo_answer h (.hasChanged (some false))
  have h := Tasks.solo_answer (Tasks.solo_jump h) (.init (.ok (5 : ℕ)) ∅)
  have h := Tasks.solo_answer (Tasks.solo_jump h) (.pollStopped false)
  have h := Tasks.solo_answer h (.recv rfl)
  have h := Tasks.solo_answer h (.receive _ _ (.ok (.goOn (7 : ℕ))) ∅)
  exact ⟨_, h, rfl, (restarts_keep_incomings h).1⟩

end Tellus.Actor
