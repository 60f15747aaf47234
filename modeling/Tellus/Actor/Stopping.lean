import Mathlib.Tactic
import Tellus.Actor.Loop
import Tellus.Lib.Runs
import Tellus.Lib.Traces

/-!
A parent's stop wins every race.

The loop of any body is judged by its calls.  The parent may stop the actor, or drop its
sender, between any two of them (`ParentStops`), and from then on a poll of the stop is ready
and a probe says so (`Exec`).

Why little happens after that is an accounting argument.  At each place of the loop the task
has a budget (`Budget`): how many more incomings it may take or initialisations it may begin,
and how many more calls the loop itself may make, if the stop comes now.  A poll or a probe
which says that there is no stop yet renews the budget; every other call is paid from it.

* `At`: a place of the loop with its budget and what is being handled there.
* `Prompt`: what a body owes.
* `Prompt.safe_code`: every block keeps within its budget.
* `Prompt.stops`: what that makes of the runs of a loop.
-/

namespace Tellus.Loop

open Concurrent

variable {M Own : Type} {OwnAns : Own → Type}

/-! ### The calls of a task -/

/-- The calls of a task, oldest first, and how many of them it had made when its parent
stopped it. -/
structure Calls (M : Type) (OwnAns : Own → Type) where
  made : History (Op M Own) (Op.Ans OwnAns)
  stoppedAt : Option ℕ

/-- Nothing has been called yet. -/
def Calls.none : Calls M OwnAns := ⟨[], .none⟩

/-- What the parent's stop says for itself: a poll is ready, and a probe finds a change or the
sender gone, if and only if the parent has stopped the actor. -/
def Truthful (w : Calls M OwnAns) : (op : Op M Own) → op.Ans OwnAns → Prop
  | .pollStopped, x => x = w.stoppedAt.isSome
  | .hasChanged, x => x.getD true = w.stoppedAt.isSome
  | _, _ => True

/-- A call is answered. -/
def Exec (w : Calls M OwnAns) (op : Op M Own) (x : op.Ans OwnAns) (w' : Calls M OwnAns) : Prop :=
  Truthful w op x ∧ w' = { w with made := w.made ++ [⟨op, x⟩] }

/-- The parent stops the actor. -/
inductive ParentStops : Calls M OwnAns → Calls M OwnAns → Prop
  | stop (made : History (Op M Own) (Op.Ans OwnAns)) :
      ParentStops ⟨made, .none⟩ ⟨made, some made.length⟩

/-- An incoming is taken from the mailbox. -/
def takes : (op : Op M Own) × op.Ans OwnAns → Bool
  | ⟨.recv, some _⟩ => true
  | _ => false

/-- A call of the loop itself. -/
def ofLoop : Op M Own → Bool
  | .own _ => false
  | _ => true

/-- A call about time or the children. -/
def waits : Op M Own → Bool
  | .elapsed _ => true
  | .stopChildren => true
  | .sleep _ => true
  | _ => false

/-- The parent's stop is seen. -/
def sees : (op : Op M Own) × op.Ans OwnAns → Bool
  | ⟨.pollStopped, x⟩ => x
  | ⟨.hasChanged, x⟩ => x.getD true
  | _ => false

/-- An initialisation is begun, `begins` being the body's call which does so. -/
def begun (begins : Own → Bool) : Op M Own → Bool
  | .own op => begins op
  | _ => false

/-- What one more call makes of the incoming being handled. -/
def handlingAfter (handled : Option (Incoming M × History Own OwnAns)) :
    (op : Op M Own) × op.Ans OwnAns → Option (Incoming M × History Own OwnAns)
  | ⟨.recv, some (.message m)⟩ => some (.message m, [])
  | ⟨.takeWatchedFor other, true⟩ => some (.terminated other, [])
  | ⟨.own op, x⟩ => handled.map fun p => (p.1, p.2 ++ [⟨op, x⟩])
  | _ => none

/-- The incoming being handled and the body's calls for it so far. -/
def handling (made : History (Op M Own) (Op.Ans OwnAns)) :
    Option (Incoming M × History Own OwnAns) :=
  made.foldl handlingAfter none

lemma handling_concat (made : History (Op M Own) (Op.Ans OwnAns))
    (c : (op : Op M Own) × op.Ans OwnAns) :
    handling (made ++ [c]) = handlingAfter (handling made) c := by
  rw [handling, List.foldl_append]
  rfl

/-- What was handled last has been handled to its end. -/
def Completed (b : Body M OwnAns) (handled : Option (Incoming M × History Own OwnAns)) : Prop :=
  ∀ x calls, handled = some (x, calls) → ∃ held r, (b.handle x held).Yields calls r

lemma completed_none {b : Body M OwnAns} : Completed b none := by
  intro x calls h
  cases h

/-! ### Budgets -/

/-- The stop has not been seen. -/
def Unseen (w : Calls M OwnAns) : Prop := ∀ c ∈ w.made, sees c = false

/-- Since the stop, if there was one, so little has happened that one may take or begin `p`
times more and the loop may make `n` calls more. -/
def Budget (begins : Own → Bool) (p n : ℕ) (w : Calls M OwnAns) : Prop :=
  ∀ k, w.stoppedAt = some k → k ≤ w.made.length ∧
    (w.made.drop k).countP (fun c => takes c || begun begins c.1) + p ≤ 1 ∧
    (w.made.drop k).countP (fun c => ofLoop c.1) + n ≤ 4

/-- A place of the loop: the stop has not been seen, the budget left, and what is handled. -/
structure At (begins : Own → Bool) (p n : ℕ)
    (H : Option (Incoming M × History Own OwnAns) → Prop) (w : Calls M OwnAns) : Prop where
  unseen : Unseen w
  budget : Budget begins p n w
  handled : H (handling w.made)

/-- The stop may have been seen, and nothing more is going to be called. -/
structure Over (begins : Own → Bool) (b : Body M OwnAns) (w : Calls M OwnAns) : Prop where
  budget : Budget begins 0 0 w
  handled : Completed b (handling w.made)

/-- Nothing is called once the stop has been seen. -/
def Last (w : Calls M OwnAns) : Prop :=
  ∀ before c after, w.made = before ++ c :: after → sees c = true → after = []

/-- What the task owes before a call: it has not seen the stop, it is within the budget, and a
call of the loop comes only after what was handled has been handled to its end. -/
def Owes (begins : Own → Bool) (b : Body M OwnAns) (w : Calls M OwnAns) (op : Op M Own) : Prop :=
  Unseen w ∧ Budget begins 0 0 w ∧ (ofLoop op = true → Completed b (handling w.made))

/-- The contract of the task: others may stop it. -/
def contract (begins : Own → Bool) (b : Body M OwnAns) :
    Contract Unit (Op M Own) (Op.Ans OwnAns) (Calls M OwnAns) where
  exec := fun _ => Exec
  pre := fun _ => Owes begins b
  inv := Last
  rely := fun _ w w' => w'.made = w.made ∧ (w'.stoppedAt = w.stoppedAt ∨
    w.stoppedAt = none ∧ w'.stoppedAt = some w.made.length)
  rely_refl := fun _ _ => ⟨rfl, .inl rfl⟩
  rely_trans := by
    rintro - w w' w'' ⟨hm, hs⟩ ⟨hm', hs'⟩
    refine ⟨hm'.trans hm, ?_⟩
    rcases hs with hs | ⟨hn, hs⟩
    · rw [hs, hm] at hs'
      exact hs'
    · rcases hs' with hs' | ⟨hn', -⟩
      · exact .inr ⟨hn, hs'.trans hs⟩
      · rw [hs] at hn'
        cases hn'

variable {begins : Own → Bool} {b : Body M OwnAns} {w : Calls M OwnAns} {p n p' n' : ℕ}
  {H H' : Option (Incoming M × History Own OwnAns) → Prop}

/-- The calls with one more of them. -/
def Calls.add (w : Calls M OwnAns) (op : Op M Own) (x : op.Ans OwnAns) : Calls M OwnAns :=
  { w with made := w.made ++ [⟨op, x⟩] }

lemma answers (w : Calls M OwnAns) (op : Op M Own) (x : op.Ans OwnAns) (h : Truthful w op x) :
    Exec w op x (w.add op x) := ⟨h, rfl⟩

lemma Budget.mono (h : Budget begins p n w) (hp : p' ≤ p) (hn : n' ≤ n) :
    Budget begins p' n' w := by
  intro k hk
  obtain ⟨hlen, htaken, hmade⟩ := h k hk
  exact ⟨hlen, by omega, by omega⟩

/-- A call is paid from the budget. -/
lemma Budget.add (h : Budget begins p n w) {op : Op M Own} {x : op.Ans OwnAns}
    (hp : p' + (if takes ⟨op, x⟩ || begun begins op then 1 else 0) ≤ p)
    (hn : n' + (if ofLoop op then 1 else 0) ≤ n) : Budget begins p' n' (w.add op x) := by
  intro k hk
  obtain ⟨hlen, htaken, hmade⟩ := h k hk
  refine ⟨by simp only [Calls.add, List.length_append]; omega, ?_, ?_⟩
  · rw [Calls.add, List.drop_append_of_le_length hlen, List.countP_append, List.countP_singleton]
    dsimp only
    omega
  · rw [Calls.add, List.drop_append_of_le_length hlen, List.countP_append, List.countP_singleton]
    dsimp only
    omega

/-- Without a stop the budget is what it was at the start. -/
lemma Budget.renew (h : w.stoppedAt = none) : Budget begins p n w := by
  intro k hk
  rw [h] at hk
  cases hk

lemma Unseen.not_sees {w : Calls M OwnAns} (h : Unseen w)
    {before after : History (Op M Own) (Op.Ans OwnAns)} {c : (op : Op M Own) × op.Ans OwnAns}
    (hcut : w.made = before ++ c :: after) : ¬sees c = true := by
  rw [h c (by simp [hcut])]
  exact Bool.false_ne_true

lemma Unseen.add (h : Unseen w) {op : Op M Own} {x : op.Ans OwnAns}
    (hs : sees ⟨op, x⟩ = false) : Unseen (w.add op x) := by
  intro c hc
  rcases List.mem_append.mp hc with hc | hc
  · exact h c hc
  · rw [List.mem_singleton.mp hc]
    exact hs

lemma At.mono (h : At begins p n H w) (hp : p' ≤ p) (hn : n' ≤ n) (hH : ∀ h, H h → H' h) :
    At begins p' n' H' w :=
  ⟨h.unseen, h.budget.mono hp hn, hH _ h.handled⟩

/-- The place after a call which does not see the stop. -/
lemma At.add (h : At begins p n H w) {op : Op M Own} {x : op.Ans OwnAns}
    (hs : sees ⟨op, x⟩ = false)
    (hp : p' + (if takes ⟨op, x⟩ || begun begins op then 1 else 0) ≤ p)
    (hn : n' + (if ofLoop op then 1 else 0) ≤ n)
    (hH : ∀ h, H h → H' (handlingAfter h ⟨op, x⟩)) : At begins p' n' H' (w.add op x) where
  unseen := h.unseen.add hs
  budget := h.budget.add hp hn
  handled := by
    rw [Calls.add, handling_concat]
    exact hH _ h.handled

lemma At.over (h : At begins p n H w) (hH : ∀ h, H h → Completed b h) : Over begins b w :=
  ⟨h.budget.mono (Nat.zero_le p) (Nat.zero_le n), hH _ h.handled⟩

/-- A budget is large enough whenever the stop comes. -/
lemma stable_at (hp : p ≤ 1) (hn : n ≤ 4) : Stable (contract begins b) () (At begins p n H) := by
  rintro w w' h ⟨hm, hs⟩ -
  refine ⟨?_, ?_, ?_⟩
  · rw [Unseen, hm]
    exact h.unseen
  · intro k hk
    rcases hs with hs | ⟨-, hs⟩
    · rw [hm]
      exact h.budget k (hs ▸ hk)
    · rw [hs] at hk
      cases hk
      simp [hm, hp, hn]
  · rw [hm]
    exact h.handled

lemma stable_over : Stable (contract begins b) () (Over begins b) := by
  rintro w w' h ⟨hm, hs⟩ -
  refine ⟨?_, ?_⟩
  · intro k hk
    rcases hs with hs | ⟨-, hs⟩
    · rw [hm]
      exact h.budget k (hs ▸ hk)
    · rw [hs] at hk
      cases hk
      simp [hm]
  · rw [hm]
    exact h.handled

/-! ### The rules -/

section Rules

variable {α : Type} {post : Calls M OwnAns → α → Prop}

lemma safe_ret (hp : p ≤ 1) (hn : n ≤ 4) (h : At begins p n H w) {a : α}
    (hpost : ∀ t, At begins p n H t → post t a) :
    Safe (contract begins b) () post (.ret a) w :=
  Safe.ret_of (stable_at hp hn) h fun t _ => hpost t

lemma safe_over (h : Over begins b w) {a : α} (hpost : ∀ t, Over begins b t → post t a) :
    Safe (contract begins b) () post (.ret a) w :=
  Safe.ret_of stable_over h fun t _ => hpost t

lemma safe_call {op : Op M Own} {k : op.Ans OwnAns → Task M OwnAns α} (hp : p ≤ 1) (hn : n ≤ 4)
    (h : At begins p n H w) (hdone : ofLoop op = true → ∀ h, H h → Completed b h)
    (hk : ∀ t x, At begins p n H t → Truthful t op x →
      Safe (contract begins b) () post (k x) (t.add op x)) :
    Safe (contract begins b) () post (.call op k) w := by
  refine Safe.call_of (stable_at hp hn) h fun t _ ht => ⟨⟨ht.unseen, ?_, ?_⟩, ?_⟩
  · exact ht.budget.mono (Nat.zero_le p) (Nat.zero_le n)
  · exact fun hop => hdone hop _ ht.handled
  · rintro x _ ⟨hx, rfl⟩ -
    exact hk t x ht hx

/-- Polling the stop. -/
lemma safe_pollStopped {k : Bool → Task M OwnAns α} (hp : p ≤ 1) (hn : n + 1 ≤ 4)
    (h : At begins p (n + 1) H w) (hdone : ∀ h, H h → Completed b h)
    (hyes : ∀ t, Over begins b t → Safe (contract begins b) () post (k true) t)
    (hno : ∀ t, At begins 1 4 (· = none) t → Safe (contract begins b) () post (k false) t) :
    Safe (contract begins b) () post (.call .pollStopped k) w := by
  refine safe_call hp hn h (fun _ => hdone) fun t x ht hx => ?_
  cases x with
  | true =>
      refine hyes _ ⟨ht.budget.add (by simp [takes, begun]) (by simp [ofLoop]), ?_⟩
      rw [Calls.add, handling_concat]
      exact completed_none
  | false =>
      have hstop : t.stoppedAt = none := by simpa using hx.symm
      refine hno _ ⟨ht.unseen.add rfl, Budget.renew hstop, ?_⟩
      rw [Calls.add, handling_concat]
      rfl

/-- Probing the stop. -/
lemma safe_hasChanged {k : Option Bool → Task M OwnAns α} (hp : p ≤ 1) (hn : n + 1 ≤ 4)
    (h : At begins p (n + 1) H w) (hdone : ∀ h, H h → Completed b h)
    (hyes : ∀ x t, x.getD true = true → Over begins b t →
      Safe (contract begins b) () post (k x) t)
    (hno : ∀ x t, x.getD true = false → At begins 1 4 (· = none) t →
      Safe (contract begins b) () post (k x) t) :
    Safe (contract begins b) () post (.call .hasChanged k) w := by
  refine safe_call hp hn h (fun _ => hdone) fun t x ht hx => ?_
  cases hsees : x.getD true with
  | true =>
      refine hyes x _ hsees ⟨ht.budget.add (by simp [takes, begun]) (by simp [ofLoop]), ?_⟩
      rw [Calls.add, handling_concat]
      exact completed_none
  | false =>
      have hstop : t.stoppedAt = none := by
        have hx : x.getD true = t.stoppedAt.isSome := hx
        simpa [hsees] using hx.symm
      refine hno x _ hsees ⟨ht.unseen.add hsees, Budget.renew hstop, ?_⟩
      rw [Calls.add, handling_concat]
      rfl

/-- A call of the loop which has to do with neither the mailbox nor the stop. -/
lemma safe_wait {op : Op M Own} {k : op.Ans OwnAns → Task M OwnAns α} (hop : waits op = true)
    (hp : p ≤ 1) (hn : n + 1 ≤ 4) (h : At begins p (n + 1) H w)
    (hdone : ∀ h, H h → Completed b h)
    (hk : ∀ x t, At begins p n (· = none) t → Safe (contract begins b) () post (k x) t) :
    Safe (contract begins b) () post (.call op k) w := by
  refine safe_call hp hn h (fun _ => hdone) fun t x ht _ => hk x _ ?_
  cases op with
  | elapsed _ | stopChildren | sleep _ =>
      exact ht.add rfl (by simp [takes, begun]) (by simp [ofLoop]) fun _ _ => rfl
  | pollStopped | hasChanged | recv | takeWatchedFor _ | own _ => cases hop

/-- A call of the body while nothing is handled. -/
lemma safe_own {op : Own} {k : OwnAns op → Task M OwnAns α} (hop : begins op = false)
    (hp : p ≤ 1) (hn : n ≤ 4) (h : At begins p n (· = none) w)
    (hk : ∀ x t, At begins p n (· = none) t → Safe (contract begins b) () post (k x) t) :
    Safe (contract begins b) () post (.call (.own op) k) w := by
  refine safe_call hp hn h (by simp [ofLoop]) fun t x ht _ => hk x _ ?_
  refine ht.add rfl (by simp [takes, begun, hop]) (by simp [ofLoop]) ?_
  rintro _ rfl
  rfl

end Rules

/-! ### The parts of the loop -/

/-- One turn of `next_incoming!`: an incoming which comes out of it is about to be handled. -/
lemma safe_nextIncoming (h : At begins 0 1 (Completed b) w) :
    Safe (contract begins b) () (fun w next =>
      match next with
      | .stopped => Over begins b w
      | .again => At begins 0 1 (Completed b) w
      | .incoming x => At begins 0 2 (· = some (x, [])) w) nextIncoming w := by
  refine safe_pollStopped (Nat.zero_le 1) (by omega) h (fun _ => id) ?_ ?_
  · exact fun t ht => safe_over ht fun _ h => h
  · intro t ht
    refine safe_call le_rfl le_rfl ht (fun _ h hh => hh ▸ completed_none) fun t x ht _ => ?_
    have hagain : ∀ {p n : ℕ} {u : Calls M OwnAns}, At begins p (n + 1) (· = none) u →
        At begins 0 1 (Completed b) u := fun hu =>
      hu.mono (Nat.zero_le _) (by omega) fun h hh => hh ▸ completed_none
    match x with
    | none =>
        have ht : At begins 1 3 (· = none) (t.add .recv none) :=
          ht.add rfl (by simp [takes, begun]) (by simp [ofLoop]) fun h _ => rfl
        exact safe_ret le_rfl (by omega) ht fun u hu => hagain hu
    | some (.message m) =>
        have ht : At begins 0 3 (· = some (.message m, [])) (t.add .recv (some (.message m))) :=
          ht.add rfl (by simp [takes]) (by simp [ofLoop]) fun h _ => rfl
        exact safe_ret (by omega) (by omega) ht fun u hu => hu.mono le_rfl (by omega) fun _ => id
    | some (.terminated other) =>
        have ht : At begins 0 3 (· = none) (t.add .recv (some (.terminated other))) :=
          ht.add rfl (by simp [takes]) (by simp [ofLoop]) fun h _ => rfl
        refine safe_call (by omega) (by omega) ht (fun _ h hh => hh ▸ completed_none) ?_
        intro u x hu _
        cases x with
        | true =>
            have hu : At begins 0 2 (· = some (.terminated other, []))
                (u.add (.takeWatchedFor other) true) :=
              hu.add rfl (by simp [takes, begun]) (by simp [ofLoop]) fun h _ => rfl
            exact safe_ret (by omega) (by omega) hu fun _ h => h
        | false =>
            have hu : At begins 0 2 (· = none) (u.add (.takeWatchedFor other) false) :=
              hu.add rfl (by simp [takes, begun]) (by simp [ofLoop]) fun h _ => rfl
            exact safe_ret (by omega) (by omega) hu fun _ h => hagain h

/-- Deciding about a restart: it happens only while there is no stop. -/
lemma safe_awaitRestart (strategy : SupervisionStrategy) (up : Bool) (restarts : ℕ)
    (h : At begins 0 2 (Completed b) w) :
    Safe (contract begins b) () (fun w awaited =>
      match awaited with
      | .no => Over begins b w
      | .yes _ => At begins 1 4 (· = none) w
      | .backoff _ _ => At begins 1 3 (· = none) w) (awaitRestart strategy up restarts) w := by
  have hreset : Safe (contract begins b) () (fun w _ => At begins 0 1 (Completed b) w)
      (elapsed strategy up) w := by
    unfold elapsed
    split
    · refine safe_wait rfl (by omega) (by omega) h (fun _ => id) fun x t ht =>
        safe_ret (by omega) (by omega) ht fun u hu => ?_
      exact hu.mono le_rfl le_rfl fun h hh => hh ▸ completed_none
    · exact safe_ret (by omega) (by omega) h fun u hu => hu.mono le_rfl (by omega) fun _ => id
  refine hreset.bind fun t reset _ ht => ?_
  split
  · exact safe_over (ht.over fun _ => id) fun _ h => h
  · exact safe_over (ht.over fun _ => id) fun _ h => h
  · refine safe_hasChanged (by omega) (by omega) ht (fun _ => id) ?_ ?_
    · intro x t hx ht
      rw [Prog.ret_bind, if_pos hx]
      exact safe_over ht fun _ h => h
    · intro x t hx ht
      rw [Prog.ret_bind, if_neg (by simp [hx])]
      refine safe_wait rfl le_rfl le_rfl ht (fun h hh => hh ▸ completed_none) fun _ t ht => ?_
      rw [Prog.ret_bind]
      split
      · refine safe_hasChanged le_rfl (by omega) ht (fun h hh => hh ▸ completed_none) ?_ ?_
        · intro x t hx ht
          rw [Prog.ret_bind, if_pos hx]
          exact safe_over ht fun _ h => h
        · intro x t hx ht
          rw [Prog.ret_bind, if_neg (by simp [hx])]
          exact safe_ret le_rfl le_rfl ht fun _ h => h
      · exact safe_ret le_rfl (by omega) ht fun _ h => h

/-- The body's calls for the incoming being handled. -/
lemma safe_emb {α β : Type} {post : Calls M OwnAns → β → Prop} {Q : α → Prop}
    {prog : Prog Own OwnAns α} {k : α → Task M OwnAns β} {x : Incoming M}
    {calls : History Own OwnAns}
    (hall : prog.Ends (fun op => begins op = false) (fun _ _ => True) Q)
    (h : At begins 0 2 (· = some (x, calls)) w)
    (hk : ∀ calls' a t, prog.Yields calls' a → Q a →
      At begins 0 2 (· = some (x, calls ++ calls')) t →
      Safe (contract begins b) () post (k a) t) :
    Safe (contract begins b) () post ((emb prog).bind k) w := by
  induction prog generalizing w calls with
  | ret a => exact hk [] a w (.ret a) hall (by simpa using h)
  | call op next ih =>
      refine safe_call (by omega) (by omega) h (by simp [ofLoop]) fun t y ht _ => ?_
      have ht : At begins 0 2 (· = some (x, calls ++ [⟨op, y⟩])) (t.add (.own op) y) := by
        refine ht.add rfl (by simp [takes, begun, hall.1]) (by simp [ofLoop]) ?_
        rintro _ rfl
        rfl
      refine ih y (hall.2 y trivial) ht fun calls' a u hy hQ hu => ?_
      refine hk (⟨op, y⟩ :: calls') a u (Prog.yields_call.mpr ⟨y, calls', rfl, hy⟩) hQ ?_
      simpa using hu

/-! ### Bodies -/

/-- Where a turn of the initialisation leaves the loop, `due` saying in which phases an
initialisation is about to be begun. -/
def StartedAt (begins : Own → Bool) (b : Body M OwnAns) (due : b.Phase → ℕ)
    (w : Calls M OwnAns) : Option (Started b.Phase b.Held) → Prop
  | some (.again phase) => At begins (due phase) 2 (· = none) w
  | some (.up _) => At begins 0 1 (· = none) w
  | some .failed => At begins 0 2 (· = none) w
  | some .stopped => Over begins b w
  | none => False

/-- What a body owes: it begins an initialisation only where one is due, none while an incoming
is handled, and it does not unwind. -/
structure Prompt (begins : Own → Bool) (b : Body M OwnAns) (due : b.Phase → ℕ) : Prop where
  due_le : ∀ phase, due phase ≤ 1
  start : ∀ phase w, At begins (due phase) 2 (· = none) w →
    Safe (contract begins b) () (StartedAt begins b due) (b.start phase) w
  calls : ∀ phase r, b.start phase ≠ .ret r
  handle : ∀ x held, (b.handle x held).Ends (fun op => begins op = false) (fun _ _ => True)
    (fun r => r.isSome)
  release : ∀ held, b.release held = .ret (some ())

/-- What holds when the loop goes back to one of its places. -/
def Rest (begins : Own → Bool) (b : Body M OwnAns) (due : b.Phase → ℕ) (w : Calls M OwnAns) :
    Point b → Prop
  | .starting _ phase => At begins (due phase) 2 (· = none) w
  | .running _ _ => At begins 0 1 (Completed b) w
  | .failed _ _ => At begins 0 2 (Completed b) w
  | .backoff _ _ => At begins 0 1 (Completed b) w
  | .terminate => Over begins b w
  | .unwound => False

variable {due : b.Phase → ℕ}

/-- **Every block of the loop keeps within its budget.** -/
lemma Prompt.safe_code (hb : Prompt begins b due) (strategy : SupervisionStrategy) (pt : Point b)
    (h : Rest begins b due w pt) :
    Safe (contract begins b) () (Rest begins b due) (code b strategy pt) w := by
  have hnone : ∀ h : Option (Incoming M × History Own OwnAns), h = none → Completed b h :=
    fun h hh => hh ▸ completed_none
  have hfirst : ∀ {n : ℕ} {restarts : ℕ} {t : Calls M OwnAns}, n + 2 ≤ 4 →
      At begins 1 (n + 2) (· = none) t →
      Safe (contract begins b) () (Rest begins b due) (.ret (.starting restarts b.first)) t := by
    intro n restarts t hn ht
    refine safe_ret le_rfl hn ht fun u hu => ?_
    exact hu.mono (hb.due_le _) (by omega) fun _ => id
  cases pt with
  | starting restarts phase =>
      refine (hb.start phase w h).bind fun t started _ ht => ?_
      match started with
      | none => exact ht.elim
      | some (.again phase) =>
          exact safe_ret (hb.due_le phase) (by omega) ht fun _ h => h
      | some (.up held) =>
          exact safe_ret (by omega) (by omega) ht fun _ h => h.mono le_rfl le_rfl hnone
      | some .failed =>
          exact safe_ret (by omega) (by omega) ht fun _ h => h.mono le_rfl le_rfl hnone
      | some .stopped => exact safe_over ht fun _ h => h
  | running restarts held =>
      refine (safe_nextIncoming h).bind fun t next _ ht => ?_
      cases next with
      | stopped =>
          simp only [hb.release, emb]
          exact safe_over ht fun _ h => h
      | again => exact safe_ret (by omega) (by omega) ht fun _ h => h
      | incoming x =>
          refine safe_emb (hb.handle x held) ht fun calls r u hy hr hu => ?_
          have hdone : ∀ h, h = some (x, [] ++ calls) → Completed b h := by
            rintro _ rfl _ _ ⟨⟩
            exact ⟨held, r, hy⟩
          match r with
          | none => cases hr
          | some (.goOn held) =>
              exact safe_ret (by omega) (by omega) hu fun _ h => h.mono le_rfl (by omega) hdone
          | some .stop => exact safe_over (hu.over hdone) fun _ h => h
          | some .failed =>
              exact safe_ret (by omega) (by omega) hu fun _ h => h.mono le_rfl le_rfl hdone
  | failed restarts up =>
      refine (safe_awaitRestart strategy up restarts h).bind fun t awaited _ ht => ?_
      cases awaited with
      | no => exact safe_over ht fun _ h => h
      | yes restarts => exact hfirst (n := 2) le_rfl ht
      | backoff restarts delay =>
          exact safe_ret le_rfl (by omega) ht fun _ h =>
            h.mono (Nat.zero_le 1) (by omega) hnone
  | backoff restarts delay =>
      refine safe_pollStopped (by omega) (by omega) h (fun _ => id) ?_ ?_
      · exact fun t ht => safe_over ht fun _ h => h
      · intro t ht
        refine safe_wait rfl le_rfl le_rfl ht hnone fun x t ht => ?_
        cases x with
        | true => exact hfirst (n := 1) (by omega) ht
        | false =>
            exact safe_ret le_rfl (by omega) ht fun _ h =>
              h.mono (Nat.zero_le 1) (by omega) hnone
  | terminate => exact safe_over h fun _ h => h
  | unwound => exact h.elim

/-! ### Runs -/

/-- The states the task of a body gets into, its parent stopping it at any moment. -/
def Reachable (b : Body M OwnAns) (strategy : SupervisionStrategy)
    (st : Tasks Unit (Op M Own) (Op.Ans OwnAns) (Calls M OwnAns) (Point b)) : Prop :=
  Tasks.Reaches (fun _ => code b strategy) (fun _ => Exec) ParentStops
    (.solo .none (.ret (entry b))) st

/-- What a stop by the parent comes to in a state of the task. -/
structure StopWins (begins : Own → Bool) (b : Body M OwnAns) (strategy : SupervisionStrategy)
    (st : Tasks Unit (Op M Own) (Op.Ans OwnAns) (Calls M OwnAns) (Point b)) : Prop where
  /-- Since the stop at most one incoming has been taken or one initialisation begun, and the
  loop has made at most four calls. -/
  few : ∀ k, st.shared.stoppedAt = some k →
    (st.shared.made.drop k).countP (fun c => takes c || begun begins c.1) ≤ 1 ∧
    (st.shared.made.drop k).countP (fun c => ofLoop c.1) ≤ 4
  /-- The call which has seen the stop is the last one: the future which has resolved is not
  polled again, and the task is on its way into `terminate`. -/
  last : ∀ before c after, st.shared.made = before ++ c :: after → sees c = true →
    after = [] ∧ st.task () = .ret .terminate
  /-- Unless the body is in the middle of it, the latest handling was carried out to its end. -/
  whole : (∀ op k, st.task () ≠ .call (.own op) k) → Completed b (handling st.shared.made)
  /-- The loop does not idle: a turn which calls nothing leaves it. -/
  goesOn : ∀ pt pt', st.task () = .ret pt → code b strategy pt = .ret pt' → pt' = .terminate

/-- A turn which calls nothing leaves the loop. -/
lemma Prompt.code_ret (hb : Prompt begins b due) {strategy : SupervisionStrategy}
    {pt pt' : Point b} (hpt : pt ≠ .unwound) (h : code b strategy pt = .ret pt') :
    pt' = .terminate := by
  cases pt with
  | starting restarts phase =>
      cases hstart : b.start phase with
      | ret r => exact absurd hstart (hb.calls phase r)
      | call op k =>
          simp only [code, Prog.bind_eq, hstart, Prog.call_bind] at h
          cases h
  | running restarts held => cases h
  | backoff restarts delay => cases h
  | terminate =>
      cases h
      rfl
  | unwound => exact absurd rfl hpt
  | failed restarts up =>
      cases strategy with
      | stop =>
          cases up <;> cases h <;> rfl
      | restart policy =>
          cases up with
          | true => cases h
          | false =>
              simp only [code, awaitRestart, elapsed, nextRestart, Prog.bind_eq, Prog.pure_eq,
                Prog.ret_bind, Bool.false_eq_true, if_false] at h
              split at h
              · cases h
                rfl
              · cases h
                rfl
              · cases h

/-- In every state the task is where it should be, within its budget. -/
lemma Prompt.good (hb : Prompt begins b due) {strategy : SupervisionStrategy}
    {st : Tasks Unit (Op M Own) (Op.Ans OwnAns) (Calls M OwnAns) (Point b)}
    (h : Reachable b strategy st) :
    Tasks.Good (contract begins b) (fun _ => Rest begins b due) st := by
  have hstart : Tasks.Good (contract begins b) (fun _ => Rest begins b due)
      (.solo .none (.ret (entry b))) := by
    refine ⟨fun before c after hm => by simp [Tasks.solo, Calls.none] at hm, fun _ => ?_⟩
    refine safe_ret (hb.due_le b.first) (by omega) ?_ fun _ h => h
    exact ⟨by simp [Unseen, Tasks.solo, Calls.none], Budget.renew rfl, rfl⟩
  refine Tasks.invariant (fun _ _ pt _ => hb.safe_code strategy pt) ?_ ?_ hstart h
  · rintro - w op x _ hlast ⟨hunseen, -, -⟩ ⟨-, rfl⟩
    refine ⟨fun before c after hcut hsees => ?_, fun j hj => absurd rfl hj⟩
    rcases cut_concat hcut with ⟨-, -, rfl⟩ | ⟨after', -, hw⟩
    · rfl
    · exact absurd hsees (hunseen.not_sees hw)
  · rintro _ _ hlast ⟨made⟩
    exact ⟨hlast, fun _ => ⟨rfl, .inr ⟨rfl, rfl⟩⟩⟩

/-- **A parent's stop wins every race**, whatever the body. -/
theorem Prompt.stops (hb : Prompt begins b due) {strategy : SupervisionStrategy}
    {st : Tasks Unit (Op M Own) (Op.Ans OwnAns) (Calls M OwnAns) (Point b)}
    (h : Reachable b strategy st) : StopWins begins b strategy st := by
  obtain ⟨hlast, hsafe⟩ := hb.good h
  have hsafe := hsafe ()
  -- the state is judged by what the task is about to do
  cases htask : st.task () with
  | call op k =>
      rw [htask] at hsafe
      obtain ⟨hunseen, hbudget, hdone⟩ := hsafe.pre hlast
      refine ⟨fun n hn => (hbudget n hn).2, ?_, ?_, ?_⟩
      · exact fun before c after hcut hsees => absurd hsees (hunseen.not_sees hcut)
      · intro hown
        refine hdone ?_
        cases op with
        | own op => exact absurd htask (hown op k)
        | _ => rfl
      · intro pt pt' hpt _
        rw [htask] at hpt
        cases hpt
  | ret pt =>
      rw [htask] at hsafe
      have hrest := hsafe.result hlast
      have hgoes : ∀ at' pt', st.task () = .ret at' → code b strategy at' = .ret pt' →
          pt' = .terminate := by
        intro at' pt' hat' hcode
        rw [htask] at hat'
        cases hat'
        refine hb.code_ret ?_ hcode
        rintro rfl
        exact hrest
      have hat : ∀ {p n : ℕ} {H : Option (Incoming M × History Own OwnAns) → Prop},
          At begins p n H st.shared → (∀ h, H h → Completed b h) →
          StopWins begins b strategy st := by
        intro p n H hw hH
        refine ⟨fun n hn => ((hw.over hH).budget n hn).2, ?_, fun _ => hH _ hw.handled, hgoes⟩
        exact fun before c after hcut hsees => absurd hsees (hw.unseen.not_sees hcut)
      cases pt with
      | starting restarts phase => exact hat hrest fun h hh => hh ▸ completed_none
      | running restarts held => exact hat hrest fun _ => id
      | failed restarts up => exact hat hrest fun _ => id
      | backoff restarts delay => exact hat hrest fun _ => id
      | terminate =>
          refine ⟨fun n hn => (hrest.budget n hn).2, ?_, fun _ => hrest.handled, hgoes⟩
          exact fun before c after hcut hsees => ⟨hlast before c after hcut hsees, htask⟩
      | unwound => exact hrest.elim

end Tellus.Loop

namespace Tellus.Actor

open Concurrent Loop

/-- The call which begins an initialisation. -/
def begins {A : Actor} : Op A → Bool
  | .init => true
  | .receive _ _ => false

/-- The loop of `spawn` is prompt. -/
lemma prompt (A : Actor) : Prompt (M := A.Message) begins A.spawn fun _ => 1 where
  due_le := fun _ => le_rfl
  calls := by
    rintro _ _ ⟨⟩
  release := fun _ => rfl
  start := by
    intro phase w h
    refine Loop.safe_call le_rfl (by omega) h (by simp [ofLoop]) fun t x ht _ => ?_
    have ht : At begins 0 2 (· = none) (t.add (.own .init) x) := by
      refine ht.add rfl (by simp [takes, begun, begins]) (by simp [ofLoop]) ?_
      rintro _ rfl
      rfl
    cases x with
    | ok state =>
        exact Loop.safe_ret (by omega) (by omega) ht fun _ h => h.mono le_rfl (by omega) fun _ => id
    | err e => exact Loop.safe_ret (by omega) (by omega) ht fun _ h => h
    | panic => exact Loop.safe_ret (by omega) (by omega) ht fun _ h => h
  handle := by
    intro x held
    refine ⟨rfl, fun r _ => ?_⟩
    match r with
    | .ok (.goOn state) => exact rfl
    | .ok .stop => exact rfl
    | .err e => exact rfl
    | .panic => exact rfl

end Tellus.Actor
