import Mathlib.Tactic
import Tellus.Actor.Watching

/-!
Mailboxes are queues, and a terminated signal closes a conversation.

What has entered a mailbox is what has been taken out of it and what is still in it, in this
order (`Runs.fifo`).  The signal of an actor enters a mailbox only once the actor runs no user
code any more, so none of its messages is ever behind it (`Runs.nothing_behind`).

* `Step.mailbox`: what one step puts into a mailbox and takes out of it.
* `conversation_closed`: an actor which is handed the signal of another one has been handed all
  of its messages, and there will be no more.
-/

namespace Tellus

open Concurrent

variable {M : Type} {kind : ActorId → Kind} {s s' : Sys M} {l : Label M} {w x a : ActorId}
  {tr tr' : List (Label M)}

/-! ### Histories of a mailbox -/

/-- What has entered the mailbox of `w`. -/
def sends (w : ActorId) (tr : List (Label M)) : List (Item M) :=
  tr.filterMap fun
    | .send b item => if b = w then some item else none
    | _ => none

/-- What has been handed to `w`. -/
def handed (w : ActorId) (tr : List (Label M)) : List (Item M) :=
  tr.filterMap fun
    | .hand b item => if b = w then some item else none
    | _ => none

/-- What `w` has taken out of its mailbox and dealt with: handed over, or dropped. -/
def consumed (w : ActorId) (tr : List (Label M)) : List (Item M) :=
  tr.filterMap fun
    | .hand b item => if b = w then some item else none
    | .discard b x => if b = w then some (.terminated x) else none
    | _ => none

lemma sends_append (w : ActorId) (tr tr' : List (Label M)) :
    sends w (tr ++ tr') = sends w tr ++ sends w tr' := List.filterMap_append ..

lemma handed_append (w : ActorId) (tr tr' : List (Label M)) :
    handed w (tr ++ tr') = handed w tr ++ handed w tr' := List.filterMap_append ..

lemma consumed_append (w : ActorId) (tr tr' : List (Label M)) :
    consumed w (tr ++ tr') = consumed w tr ++ consumed w tr' := List.filterMap_append ..

/-- A label either puts an item into the mailbox of `w` and takes none out, or puts none in. -/
lemma sends_single (w : ActorId) (l : Label M) :
    sends w [l] = [] ∨ ∃ item, l = .send w item ∧ sends w [l] = [item] ∧ consumed w [l] = [] := by
  cases l with
  | send b item =>
      by_cases hb : b = w
      · subst hb
        exact .inr ⟨item, rfl, by simp [sends], rfl⟩
      · exact .inl (by simp [sends, hb])
  | _ => exact .inl rfl

/-- What a label takes out of the mailbox of `w`. -/
lemma mem_consumed_single {item : Item M} (h : item ∈ consumed w [l]) :
    l = .hand w item ∨ ∃ x, item = .terminated x ∧ l = .discard w x := by
  cases l with
  | hand b item' =>
      by_cases hb : b = w
      · subst hb
        obtain rfl : item = item' := by simpa [consumed] using h
        exact .inl rfl
      · simp [consumed, hb] at h
  | discard b y =>
      by_cases hb : b = w
      · subst hb
        obtain rfl : item = .terminated y := by simpa [consumed] using h
        exact .inr ⟨y, rfl, rfl⟩
      · simp [consumed, hb] at h
  | _ => cases h

/-- A message sent by user code of `x`. -/
def Item.isFrom (x : ActorId) : Item M → Bool
  | .message o _ => o = some x
  | .terminated _ => false

/-- What is dropped after it was taken out of a mailbox is signals only. -/
lemma consumed_filterMap {β : Type} {f : Item M → Option β} (hf : ∀ x, f (.terminated x) = none)
    (w : ActorId) (tr : List (Label M)) : (consumed w tr).filterMap f = (handed w tr).filterMap f := by
  induction tr with
  | nil => rfl
  | cons l tr ih =>
      cases l with
      | hand b item =>
          by_cases hb : b = w
          · cases hitem : f item <;> simpa [consumed, handed, hb, hitem] using ih
          · simpa [consumed, handed, hb] using ih
      | discard b y =>
          by_cases hb : b = w
          · simpa [consumed, handed, hb, hf] using ih
          · simpa [consumed, handed, hb] using ih
      | _ => simpa [consumed, handed] using ih

/-- The messages taken out of a mailbox are those handed over. -/
lemma consumed_filter (w x : ActorId) (tr : List (Label M)) :
    (consumed w tr).filter (Item.isFrom x) = (handed w tr).filter (Item.isFrom x) := by
  rw [← List.filterMap_eq_filter]
  exact consumed_filterMap (fun _ => rfl) w tr

/-! ### Queues -/

/-- The item an actor has just taken out of its mailbox. -/
def Phase.inHand : Phase M → List (Item M)
  | .taking item => [item]
  | _ => []

/-- What is left of what has entered a mailbox. -/
def Sys.inbox (s : Sys M) (w : ActorId) : List (Item M) := (s.phase w).inHand ++ s.queue w

/-- An actor going on with nothing in hand. -/
lemma inHand_update {p q : Phase M} (ha : s.phase a = p) (hp : p.inHand = [])
    (hq : q.inHand = []) : (Function.update s.phase a q w).inHand = (s.phase w).inHand := by
  by_cases hw : w = a
  · subst hw
    rw [Function.update_self, hq, ha, hp]
  · rw [Function.update_of_ne hw]

lemma Phase.inHand_start (k : Kind) : (start k : Phase M).inHand = [] := by
  rcases start_cases k with h | h <;> rw [h] <;> rfl

lemma Returns.inHand {k : Kind} {cb : Callback} {p : Phase M} (h : Returns k cb p) :
    p.inHand = [] := by
  rcases h.to with rfl | rfl | rfl | rfl | rfl <;> rfl

/-- Nothing enters a mailbox or leaves it. -/
lemma inbox_eq (hq : s'.queue w = s.queue w) (hp : (s'.phase w).inHand = (s.phase w).inHand)
    (hsend : sends w [l] = []) (htake : consumed w [l] = []) :
    s.inbox w ++ sends w [l] = consumed w [l] ++ s'.inbox w := by
  rw [hsend, htake, List.append_nil, List.nil_append, Sys.inbox, Sys.inbox, hq, hp]

/-- An item enters a mailbox. -/
lemma inbox_push {b : ActorId} {item : Item M} (hq : s'.queue = (s.push b item).queue)
    (hp : (s'.phase w).inHand = (s.phase w).inHand) :
    s.inbox w ++ sends w [.send b item] = consumed w [.send b item] ++ s'.inbox w := by
  by_cases hw : w = b
  · subst hw
    simp [Sys.inbox, hq, hp, sends, consumed]
  · have hb : b ≠ w := fun h => hw h.symm
    simp [Sys.inbox, hq, hp, sends, consumed, hb, Function.update_of_ne hw]

/-- **What one step does to a mailbox**: what it puts in comes last, and what it takes out comes
first, unless the mailbox is drained. -/
lemma Step.mailbox (hs : Step kind s l s') (w : ActorId) :
    s.inbox w ++ sends w [l] = consumed w [l] ++ s'.inbox w ∨
      s.phase w = .terminating .drain ∧ s'.phase w = .terminating .disconnect ∧
        s'.inbox w = [] ∧ sends w [l] = [] ∧ consumed w [l] = [] := by
  cases hs with
  | @move a l p q ha hm =>
      refine .inl ?_
      cases hm with
      | @handMessage o m =>
          by_cases hw : w = a
          · subst hw
            simp [Sys.inbox, sends, consumed, ha, Phase.inHand]
          · have ha' : a ≠ w := fun h => hw h.symm
            exact inbox_eq rfl (by simp [Function.update_of_ne hw]) rfl (by simp [consumed, ha'])
      | @discard x hx =>
          by_cases hw : w = a
          · subst hw
            simp [Sys.inbox, sends, consumed, ha, Phase.inHand]
          · have ha' : a ≠ w := fun h => hw h.symm
            exact inbox_eq rfl (by simp [Function.update_of_ne hw]) rfl (by simp [consumed, ha'])
      | returned h => exact inbox_eq rfl (inHand_update ha rfl h.inHand) rfl rfl
      | dropped fails =>
          exact inbox_eq rfl (inHand_update ha rfl (by cases fails <;> rfl)) rfl rfl
      | restarted => exact inbox_eq rfl (inHand_update ha rfl (Phase.inHand_start _)) rfl rfl
      | _ => exact inbox_eq rfl (inHand_update ha rfl rfl) rfl rfl
  | spawnRoot ha | spawn _ ha =>
      exact .inl (inbox_eq rfl (inHand_update ha rfl (Phase.inHand_start _)) rfl rfl)
  | tell | tellOutside => exact .inl (inbox_push rfl rfl)
  | watchSignals ha => exact .inl (inbox_push rfl (inHand_update ha rfl rfl))
  | signal ha => exact .inl (inbox_push rfl (inHand_update ha rfl rfl))
  | @take a item rest ha h =>
      by_cases hw : w = a
      · subst hw
        exact .inl (by simp [Sys.inbox, sends, consumed, ha, h, Phase.inHand])
      · exact .inl (inbox_eq (by simp [Function.update_of_ne hw])
          (by simp [Function.update_of_ne hw]) rfl rfl)
  | @handSignal a x ha hx =>
      by_cases hw : w = a
      · subst hw
        exact .inl (by simp [Sys.inbox, sends, consumed, ha, Phase.inHand])
      · have ha' : a ≠ w := fun h => hw h.symm
        exact .inl (inbox_eq rfl (by simp [Function.update_of_ne hw]) rfl
          (by simp [consumed, ha']))
  | @drain a ha =>
      by_cases hw : w = a
      · subst hw
        exact .inr ⟨ha, by simp, by simp [Sys.inbox, Phase.inHand], rfl, rfl⟩
      · exact .inl (inbox_eq (by simp [Function.update_of_ne hw])
          (by simp [Function.update_of_ne hw]) rfl rfl)
  | watchMapped ha =>
      exact .inl (inbox_eq rfl (inHand_update ha rfl rfl) rfl rfl)
  | watchAdded ha | unwatch ha | unwatchRemoved ha | restart ha | stopChildren ha
  | takeWatched ha | deregister ha | takeWatchers ha | signalRoot ha | signalRootAgain ha =>
      exact .inl (inbox_eq rfl (inHand_update ha rfl rfl) rfl rfl)
  | _ => exact .inl (inbox_eq rfl rfl rfl rfl)

/-- A mailbox which is still there has not been drained. -/
lemma Step.inbox (hs : Step kind s l s') (hlive : (s'.phase w).live = true ∨ s'.phase w = .unborn) :
    s.inbox w ++ sends w [l] = consumed w [l] ++ s'.inbox w := by
  refine (hs.mailbox w).resolve_right fun ⟨_, hdrained, _⟩ => ?_
  rw [hdrained] at hlive
  rcases hlive with hlive | hlive <;> cases hlive

/-- An actor which has a mailbox after a step had one before, or is being spawned. -/
lemma Step.had_mailbox (hs : Step kind s l s')
    (h : (s'.phase w).live = true ∨ s'.phase w = .unborn) :
    (s.phase w).live = true ∨ s.phase w = .unborn := by
  rcases h with h | h
  · exact (hs.live h).imp_right And.left
  · refine .inr ?_
    by_contra hborn
    exact hs.born hborn h

/-- **A mailbox is a queue**: what has entered it is what has been taken out and what is left. -/
lemma Runs.fifo (h : Runs kind tr s) (w : ActorId)
    (hlive : (s.phase w).live = true ∨ s.phase w = .unborn) :
    sends w tr = consumed w tr ++ s.inbox w := by
  induction h with
  | nil => rfl
  | @snoc tr l t u ht hs ih =>
      calc sends w (tr ++ [l]) = consumed w tr ++ t.inbox w ++ sends w [l] := by
            rw [sends_append, ih (hs.had_mailbox hlive)]
        _ = consumed w tr ++ (consumed w [l] ++ u.inbox w) := by
            rw [List.append_assoc, hs.inbox hlive]
        _ = consumed w (tr ++ [l]) ++ u.inbox w := by
            rw [consumed_append, List.append_assoc]

/-- Nothing has entered the mailbox of an actor which is not there yet. -/
lemma Runs.sends_unborn (h : Runs kind tr s) (hw : s.phase w = .unborn) : sends w tr = [] := by
  induction h with
  | nil => rfl
  | @snoc tr l t u ht hs ih =>
      have hunborn : t.phase w = .unborn := by
        by_contra hborn
        exact hs.born hborn hw
      rw [sends_append, ih hunborn, List.nil_append]
      rcases sends_single w l with hnil | ⟨item, rfl, -, -⟩
      · exact hnil
      · have hconn := hs.sent.1
        rw [hunborn] at hconn
        cases hconn

/-! ### Nothing behind a signal -/

/-- A signal which is on its way or taken out is that of an actor whose registry is closed. -/
lemma Watching.inbox (h : Watching s) (hx : .terminated x ∈ s.inbox w) :
    (s.phase x).closed = true := by
  rcases List.mem_append.mp hx with hx | hx
  · refine h.taking w x ?_
    cases hp : s.phase w with
    | taking item =>
        rw [hp] at hx
        rw [List.mem_singleton.mp hx]
    | _ =>
        rw [hp] at hx
        cases hx
  · exact h.queued w x hx

/-- A list whose last element is not the last one of the other does without it. -/
lemma sublist_of_concat {α : Type} {before later : List α} {a b : α}
    (h : (before ++ [a]).Sublist (later ++ [b])) (hne : a ≠ b) : (before ++ [a]).Sublist later := by
  have h := List.reverse_sublist.mpr h
  rw [List.reverse_append, List.reverse_append] at h
  rcases List.sublist_cons_iff.mp h with h | ⟨r, hr, -⟩
  · rw [← List.reverse_sublist, List.reverse_append]
    exact h
  · exact absurd (List.cons.inj hr).1 hne

/-- No message of an actor is behind its signal. -/
lemma Runs.nothing_behind (h : Runs kind tr s) (w x : ActorId) (m : M)
    (hlive : (s.phase w).live = true ∨ s.phase w = .unborn) :
    ¬[.terminated x, .message (some x) m].Sublist (s.inbox w) := by
  induction h with
  | nil => intro hsub; cases hsub
  | @snoc tr l t u ht hs ih =>
      intro hsub
      have hsub : [.terminated x, .message (some x) m].Sublist (t.inbox w ++ sends w [l]) := by
        rw [hs.inbox hlive]
        exact hsub.trans (List.sublist_append_right ..)
      by_cases hl : l = .send w (.message (some x) m)
      · -- the message enters now: its sender runs user code, and cannot have been signalled for
        subst hl
        obtain ⟨-, -, hwhy⟩ := hs.sent
        have hactive : (t.phase x).active = true := by
          rcases hwhy with ⟨m', hm⟩ | ⟨a, m', hm, ha⟩ | ⟨y, todo, hy, -⟩ | ⟨y, cb, hy, -⟩
          · cases hm
          · cases hm
            exact ha
          · cases hy
          · cases hy
        have hmem : .terminated x ∈ t.inbox w := by
          have := hsub.subset (List.mem_cons_self)
          simpa [sends] using this
        have := (Runs.watching ht).inbox hmem
        rw [Phase.not_closed_of_active hactive] at this
        cases this
      · -- otherwise both have been there before
        refine ih (hs.had_mailbox hlive) ?_
        cases l with
        | send b item =>
            by_cases hb : b = w
            · subst hb
              have hitem : .message (some x) m ≠ item := fun h => hl (by rw [h])
              have hsub : ([Item.terminated x] ++ [Item.message (some x) m]).Sublist
                  (t.inbox b ++ [item]) := by simpa [sends] using hsub
              exact sublist_of_concat hsub hitem
            · simpa [sends, hb] using hsub
        | _ => simpa [sends] using hsub

/-! ### The end of a conversation -/

/-- The actor whose user code a step belongs to: it sends, spawns, watches or unwatches, or one
of its callbacks begins or returns. -/
def Label.user : Label M → Option ActorId
  | .spawn a _ => some a
  | .send _ (.message o _) => o
  | .watch a _ => some a
  | .unwatch a _ => some a
  | .hand a _ => some a
  | .returned a => some a
  | .restart a => some a
  | _ => none

/-- An actor whose registry is closed runs no user code. -/
lemma Step.not_user (hs : Step kind s l s') (h : (s.phase x).closed = true) :
    l.user ≠ some x := by
  intro hl
  have open_of : ∀ p : Phase M, p.closed = false → s.phase x ≠ p := by
    intro p hp hx
    rw [hx, hp] at h
    cases h
  cases hs with
  | move ha hm =>
      cases hm <;> simp only [Label.user, Option.some.injEq, reduceCtorEq] at hl <;> subst hl <;>
        exact open_of _ rfl ha
  | tell m ha hb =>
      simp only [Label.user, Option.some.injEq] at hl
      subst hl
      rw [Phase.not_closed_of_active ha] at h
      cases h
  | spawn ha | watchAdded ha | unwatch ha | handSignal ha =>
      simp only [Label.user, Option.some.injEq] at hl
      subst hl
      exact open_of _ rfl ha
  | _ => cases hl

/-- Once the registry of an actor is closed, it stays so and no user code of the actor runs. -/
lemma Run.silent (h : Run (Step kind) s tr s') (hx : (s.phase x).closed = true) :
    (s'.phase x).closed = true ∧ ∀ l ∈ tr, l.user ≠ some x := by
  induction h with
  | nil => exact ⟨hx, fun l hl => by cases hl⟩
  | @snoc tr l t u ht hs ih =>
      obtain ⟨hclosed, hsilent⟩ := ih
      refine ⟨hs.closed hclosed, fun l' hl' => ?_⟩
      rcases List.mem_append.mp hl' with hl' | hl'
      · exact hsilent l' hl'
      · rw [List.mem_singleton.mp hl']
        exact hs.not_user hclosed

/-- **A terminated signal closes the conversation.**  When the signal of `x` is handed to `w`, the
watchers of `x` have been taken, which is after its state and its actor value have been dropped;
everything its user code has ever put into the mailbox of `w` has been handed over before; and
from then on none of its user code runs, so it puts nothing into any mailbox. -/
theorem conversation_closed (h : Runs kind tr s)
    (hs : Step kind s (.hand w (.terminated x)) s') :
    (s.phase x).closed = true ∧
      (sends w tr).filter (Item.isFrom x) = (handed w tr).filter (Item.isFrom x) ∧
      ∀ tr' s'', Run (Step kind) s' tr' s'' →
        (s''.phase x).closed = true ∧ (∀ l ∈ tr', l.user ≠ some x) ∧
        ∀ b, (sends b tr').filter (Item.isFrom x) = [] := by
  obtain ⟨htaking, -, -, -⟩ := hs.handed
  have hclosed := (Runs.watching h).taking w x htaking
  have hlive : (s.phase w).live = true := by rw [htaking]; rfl
  have hinbox : s.inbox w = .terminated x :: s.queue w := by rw [Sys.inbox, htaking]; rfl
  refine ⟨hclosed, ?_, fun tr' s'' hrun => ?_⟩
  · have hqueue : (s.queue w).filter (Item.isFrom x) = [] := by
      refine List.filter_eq_nil_iff.mpr fun item hitem hfrom => ?_
      cases item with
      | terminated y => cases hfrom
      | message o m =>
          obtain rfl : o = some x := by simpa [Item.isFrom] using hfrom
          refine Runs.nothing_behind h w x m (.inl hlive) ?_
          rw [hinbox]
          exact (List.singleton_sublist.mpr hitem).cons_cons _
    rw [Runs.fifo h w (.inl hlive), List.filter_append, consumed_filter, hinbox, List.filter_cons,
      hqueue]
    simp [Item.isFrom]
  · obtain ⟨hclosed', hsilent⟩ := Run.silent hrun (hs.closed hclosed)
    refine ⟨hclosed', hsilent, fun b => List.filter_eq_nil_iff.mpr fun item hitem hfrom => ?_⟩
    obtain ⟨l, hl, hsend⟩ := List.mem_filterMap.mp hitem
    refine hsilent l hl ?_
    cases l with
    | send c item' =>
        have heq : item' = item := by
          by_cases hc : c = b <;> simp [hc] at hsend
          exact hsend
        subst heq
        cases item' with
        | terminated y => cases hfrom
        | message o m => simpa [Item.isFrom, Label.user] using hfrom
    | _ => cases hsend

/-- The parent has been handed the message of its child by the time it is handed its signal. -/
theorem parent_has_heard_all : ∃ tr s s', Runs (M := Unit) (fun _ => .plain) tr s ∧
    Step (fun _ => .plain) s (.hand parentId (.terminated childId)) s' ∧
    (s.phase childId).closed = true ∧ .message (some childId) () ∈ handed parentId tr := by
  obtain ⟨tr, s, s', h, hsent, hs⟩ := hand_run
  obtain ⟨hclosed, hall, -⟩ := conversation_closed h hs
  refine ⟨tr, s, s', h, hs, hclosed, ?_⟩
  have hmem : .message (some childId) () ∈ (sends parentId tr).filter (Item.isFrom childId) :=
    List.mem_filter.mpr ⟨List.mem_filterMap.mpr ⟨_, hsent, by simp⟩, by simp [Item.isFrom]⟩
  rw [hall] at hmem
  exact List.mem_of_mem_filter hmem

end Tellus
