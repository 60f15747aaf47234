import Mathlib.Tactic
import Tellus.Lib.Traces
import Tellus.Persistence.Spawn

/-!
Settlement call by call (`settle` of `persistence/spawn.rs` and of `testing.rs`).

In the run loop `apply` is a function of the actor and leaves no trace.  Here it is a call
like the others, so that a settlement's history says whether an event has been applied, and
the answer of each such call is whatever `apply` returned.

* `Settling.settle`: `settle` with its calls to `apply`; `erase_settle` is the way back to the
  run loop's.
* `Testing.settle`: the test helper of the same name.
* `settle_all_or_nothing`: what a settlement has done when it returns, and what it has not
  done if it fails.
-/

namespace Tellus

open Concurrent

variable {I : Type}

/-! ### Settlement with visible applications -/

namespace Settling

/-- The calls of a settlement: those of the task, and `apply`. -/
inductive Op (A : EventSourced I) : Type where
  | task (op : Tellus.Op A)
  | apply (state : A.State) (event : A.Event)

/-- How a call is answered, `apply` by the new state unless it panics. -/
abbrev Op.Ans {A : EventSourced I} : Op A → Type
  | .task op => op.Ans
  | .apply _ _ => Option A.State

end Settling

/-- The programs of a settlement. -/
abbrev Settling (A : EventSourced I) (α : Type) := Prog (Settling.Op A) Settling.Op.Ans α

namespace Settling

variable (A : EventSourced I)

/-- A program of the task as one of a settlement. -/
def emb {α : Type} (p : Task A α) : Settling A α :=
  p.translate fun op => Prog.op (Op.task op)

/-- Apply the events in order, `none` if one of them panics. -/
def applyEvents (state : A.State) : List A.Event → Settling A (Option A.State)
  | [] => return some state
  | event :: events => do
      match ← (Prog.op (Op.apply state event) : Settling A (Option A.State)) with
      | some state => applyEvents state events
      | none => return none

/-- Append the events of an effect and apply them once that has succeeded. -/
def persist (id : I) (state : A.State) (next : SeqNo) (events : List A.Event) :
    Settling A (Option (A.State × SeqNo)) := do
  match ← emb A (encodeEvents A events) with
  | none => return none
  | some encoded =>
      match ← emb A (ask A (.append id next encoded)) with
      | .ok () =>
          match ← applyEvents A state events with
          | some state => return some (state, next.advancedBy events.length)
          | none => return none
      | .err _ => return none
      | .panic => return none

/-- Settle an effect: append and apply its events, run its continuations, offer a snapshot. -/
def settle (id : I) (state : A.State) (next : SeqNo) (effect : Effect A) :
    Settling A (Option (Settled A)) := do
  let appended := !effect.events.isEmpty
  match ← (if appended then persist A id state next effect.events
      else return some (state, next)) with
  | none => return none
  | some (state, next) =>
      match ← emb A (runThens A state effect.thens) with
      | false => return none
      | true =>
          if appended then
            emb A (saveSnapshot A id state next)
          return some ⟨state, next, effect.stop⟩

/-- The settlement with `apply` evaluated on the spot. -/
def erase (id : I) {α : Type} (p : Settling A α) : Task A α :=
  p.translate fun
    | .task op => Prog.op op
    | .apply state event => .ret (A.apply id state event)

variable {A}

@[simp] lemma erase_emb {id : I} {α : Type} (p : Task A α) : erase A id (emb A p) = p := by
  induction p with
  | ret a => rfl
  | call op k ih => exact congrArg (Prog.call op) (funext ih)

lemma erase_applyEvents {id : I} (state : A.State) (events : List A.Event) :
    erase A id (applyEvents A state events) = .ret (Tellus.applyEvents A id state events) := by
  induction events generalizing state with
  | nil => rfl
  | cons event events ih =>
      simp only [applyEvents, Prog.bind_eq, Prog.op_bind, Tellus.applyEvents, List.foldlM_cons]
      cases happ : A.apply id state event with
      | none => simp [erase, happ]
      | some state' => simpa [erase, happ, Tellus.applyEvents] using ih state'

lemma erase_bind {id : I} {α β : Type} (p : Settling A α) (f : α → Settling A β) :
    erase A id (p.bind f) = (erase A id p).bind fun a => erase A id (f a) :=
  Prog.translate_bind p f

lemma erase_persist {id : I} (state : A.State) (next : SeqNo) (events : List A.Event) :
    erase A id (persist A id state next events) = Tellus.persist A id state next events := by
  simp only [persist, Tellus.persist, Prog.bind_eq, erase_bind, erase_emb]
  refine congrArg _ (funext fun encoded => ?_)
  cases encoded with
  | none => rfl
  | some encoded =>
      simp only [erase_bind, erase_emb]
      refine congrArg _ (funext fun appended => ?_)
      cases appended with
      | err e => rfl
      | panic => rfl
      | ok u =>
          simp only [erase_bind, erase_applyEvents, Prog.ret_bind]
          cases Tellus.applyEvents A id state events with
          | none => rfl
          | some state' => rfl

/-- **The run loop's settlement is this one**, with the answers of `apply` left out. -/
theorem erase_settle {id : I} (state : A.State) (next : SeqNo) (effect : Effect A) :
    erase A id (settle A id state next effect) = Tellus.settle A id state next effect := by
  simp only [settle, Tellus.settle, Prog.bind_eq, erase_bind]
  congr 1
  · split
    · exact erase_persist state next effect.events
    · rfl
  · funext persisted
    cases persisted with
    | none => rfl
    | some r =>
        simp only [erase_bind, erase_emb]
        refine congrArg _ (funext fun ran => ?_)
        cases ran with
        | false => rfl
        | true =>
            dsimp only
            split
            · simp only [erase_bind, erase_emb]
              rfl
            · rfl

/-! ### What a settlement has done -/

/-- What a call of a settlement is for. -/
inductive Kind where
  | encode
  | append
  | apply
  | continuation
  | snapshot
  | other
  deriving DecidableEq

/-- Building, encoding and saving a snapshot are of one kind. -/
def Op.kind : Op A → Kind
  | .task (.encodeEvent _) => .encode
  | .task (.append _ _ _) => .append
  | .task (.continuation _ _) => .continuation
  | .task (.snapshot _) => .snapshot
  | .task (.encodeSnapshot _) => .snapshot
  | .task (.save _ _ _) => .snapshot
  | .task _ => .other
  | .apply _ _ => .apply

/-- The history of a settlement. -/
abbrev Trace (A : EventSourced I) := History (Op A) Op.Ans

/-- The calls of one kind, in order. -/
def calls (kind : Kind) (tr : Trace A) : Trace A := tr.filter (·.1.kind = kind)

/-- All calls are of one kind. -/
def Uniform (kind : Kind) (tr : Trace A) : Prop := ∀ c ∈ tr, c.1.kind = kind

/-- An event was not encoded or the events were not appended. -/
def failed : (op : Op A) × op.Ans → Bool
  | ⟨.task (.encodeEvent _), .ok _⟩ => false
  | ⟨.task (.encodeEvent _), _⟩ => true
  | ⟨.task (.append _ _ _), .ok _⟩ => false
  | ⟨.task (.append _ _ _), _⟩ => true
  | _ => false

/-- An event as it is appended. -/
def encodedEvent (A : EventSourced I) (payload : Payload) : EncodedEvent :=
  ⟨A.event.manifest, A.event.version, payload⟩

/-- The events have been encoded. -/
def encoding (events : List A.Event) (payloads : List Payload) : Trace A :=
  List.zipWith (fun e p => ⟨.task (.encodeEvent e), .ok p⟩) events payloads

/-- The events have been appended, unless there are none. -/
def appending (id : I) (next : SeqNo) (events : List A.Event) (payloads : List Payload) :
    Trace A :=
  if events.isEmpty then [] else
    [⟨.task (.append id next (payloads.map (encodedEvent A))), .ok ()⟩]

/-- The continuations have been run on `state`. -/
def running (state : A.State) (thens : List A.Then) : Trace A :=
  thens.map fun t => ⟨.task (.continuation t state), .ok ()⟩

/-- The events have been applied in order, from the first state to the second, each to the
state the one before it led to. -/
inductive Folds : A.State → List A.Event → Trace A → A.State → Prop
  | nil {state : A.State} : Folds state [] [] state
  | cons {state state' state'' : A.State} {event : A.Event} {events : List A.Event}
      {tr : Trace A} (h : Folds state' events tr state'') :
      Folds state (event :: events) (⟨.apply state event, some state'⟩ :: tr) state''

@[simp] lemma calls_append (kind : Kind) (tr tr' : Trace A) :
    calls kind (tr ++ tr') = calls kind tr ++ calls kind tr' :=
  List.filter_append ..

lemma Uniform.calls_eq {kind : Kind} {tr : Trace A} (h : Uniform kind tr) (kind' : Kind) :
    calls kind' tr = if kind = kind' then tr else [] := by
  split
  · exact List.filter_eq_self.mpr fun c hc => by simp [h c hc, *]
  · exact List.filter_eq_nil_iff.mpr fun c hc => by simp [h c hc, *]

@[simp] lemma uniform_nil {kind : Kind} : Uniform kind ([] : Trace A) := by simp [Uniform]

@[simp] lemma uniform_cons {kind : Kind} {c : (op : Op A) × op.Ans} {tr : Trace A} :
    Uniform kind (c :: tr) ↔ c.1.kind = kind ∧ Uniform kind tr := by simp [Uniform]

lemma uniform_encoding (events : List A.Event) (payloads : List Payload) :
    Uniform .encode (encoding events payloads) := by
  induction events generalizing payloads with
  | nil => simp [encoding]
  | cons e events ih =>
      cases payloads with
      | nil => simp [encoding]
      | cons p payloads => exact uniform_cons.mpr ⟨rfl, ih payloads⟩

lemma uniform_appending (id : I) (next : SeqNo) (events : List A.Event)
    (payloads : List Payload) : Uniform .append (appending id next events payloads) := by
  unfold appending
  split
  · exact uniform_nil
  · exact uniform_cons.mpr ⟨rfl, uniform_nil⟩

lemma kind_of_failed {c : (op : Op A) × op.Ans} (h : failed c = true) :
    c.1.kind = .encode ∨ c.1.kind = .append := by
  obtain ⟨op, x⟩ := c
  cases op with
  | task op => cases op <;> simp_all [failed, Op.kind]
  | apply _ _ => simp [failed] at h

/-- Encoded events have not failed. -/
lemma not_failed_of_encoding {events : List A.Event} {payloads : List Payload}
    {c : (op : Op A) × op.Ans} (hc : c ∈ encoding events payloads) : failed c = false := by
  induction events generalizing payloads with
  | nil => simp [encoding] at hc
  | cons e events ih =>
      cases payloads with
      | nil => simp [encoding] at hc
      | cons p payloads =>
          rcases List.mem_cons.mp hc with rfl | hc
          · rfl
          · exact ih hc

lemma not_failed_of_appending {id : I} {next : SeqNo} {events : List A.Event}
    {payloads : List Payload} {c : (op : Op A) × op.Ans}
    (hc : c ∈ appending id next events payloads) : failed c = false := by
  unfold appending at hc
  split at hc
  · cases hc
  · rw [List.mem_singleton.mp hc]
    rfl

/-! ### The parts of a settlement -/

@[simp] lemma emb_ret {α : Type} (a : α) : emb A (.ret a) = .ret a := rfl

@[simp] lemma emb_call {α : Type} {op : Tellus.Op A} (k : op.Ans → Task A α) :
    emb A (.call op k) = .call (.task op) fun x => emb A (k x) := rfl

lemma emb_bind {α β : Type} (p : Task A α) (f : α → Task A β) :
    emb A (p.bind f) = (emb A p).bind fun a => emb A (f a) :=
  Prog.translate_bind p f

variable {tr : Trace A}

/-- Either all events have been encoded, or nothing but encoding has been tried. -/
lemma encodeEvents_yields {events : List A.Event} {r : Option (List EncodedEvent)}
    (h : (emb A (encodeEvents A events)).Yields tr r) :
    (∃ payloads, payloads.length = events.length ∧ tr = encoding events payloads ∧
      r = some (payloads.map (encodedEvent A))) ∨ r = none ∧ Uniform .encode tr := by
  induction events generalizing tr r with
  | nil =>
      simp only [encodeEvents, Prog.pure_eq, emb_ret, Prog.yields_ret] at h
      exact .inl ⟨[], rfl, h⟩
  | cons event events ih =>
      simp only [encodeEvents, ask, Prog.bind_eq, Prog.op_bind, emb_call, Prog.yields_call] at h
      obtain ⟨x, tr, rfl, h⟩ := h
      cases x with
      | err e =>
          obtain ⟨rfl, rfl⟩ := Prog.yields_ret.mp h
          exact .inr ⟨rfl, uniform_cons.mpr ⟨rfl, uniform_nil⟩⟩
      | panic =>
          obtain ⟨rfl, rfl⟩ := Prog.yields_ret.mp h
          exact .inr ⟨rfl, uniform_cons.mpr ⟨rfl, uniform_nil⟩⟩
      | ok payload =>
          simp only [emb_bind, Prog.yields_bind] at h
          obtain ⟨tr, tr', encoded, rfl, h, h'⟩ := h
          rcases ih h with ⟨payloads, hlen, rfl, rfl⟩ | ⟨rfl, hu⟩
          · obtain ⟨rfl, rfl⟩ := Prog.yields_ret.mp h'
            refine .inl ⟨payload :: payloads, by simp [hlen], ?_, rfl⟩
            rw [List.append_nil]
            rfl
          · obtain ⟨rfl, rfl⟩ := Prog.yields_ret.mp h'
            rw [List.append_nil]
            exact .inr ⟨rfl, uniform_cons.mpr ⟨rfl, hu⟩⟩

/-- Nothing but `apply` is called, and if that never panics the calls are a fold. -/
lemma applyEvents_yields {events : List A.Event} {state : A.State} {r : Option A.State}
    (h : (applyEvents A state events).Yields tr r) :
    Uniform .apply tr ∧ ∀ state', r = some state' → Folds state events tr state' := by
  induction events generalizing state tr with
  | nil =>
      obtain ⟨rfl, rfl⟩ := Prog.yields_ret.mp h
      refine ⟨uniform_nil, ?_⟩
      rintro _ ⟨⟩
      exact .nil
  | cons event events ih =>
      simp only [applyEvents, Prog.bind_eq, Prog.op_bind, Prog.yields_call] at h
      obtain ⟨x, tr, rfl, h⟩ := h
      cases x with
      | none =>
          obtain ⟨rfl, rfl⟩ := Prog.yields_ret.mp h
          exact ⟨uniform_cons.mpr ⟨rfl, uniform_nil⟩, by rintro _ ⟨⟩⟩
      | some state' =>
          obtain ⟨hu, hf⟩ := ih h
          exact ⟨uniform_cons.mpr ⟨rfl, hu⟩, fun s hs => .cons (hf s hs)⟩

/-- Nothing but continuations is called, and if none of them panics each has been. -/
lemma runThens_yields {state : A.State} {thens : List A.Then} {ran : Bool}
    (h : (emb A (runThens A state thens)).Yields tr ran) :
    Uniform .continuation tr ∧ (ran = true → tr = running state thens) := by
  induction thens generalizing tr with
  | nil =>
      obtain ⟨rfl, rfl⟩ := Prog.yields_ret.mp h
      exact ⟨uniform_nil, fun _ => rfl⟩
  | cons t thens ih =>
      simp only [runThens, ask, Prog.bind_eq, Prog.op_bind, emb_call, Prog.yields_call] at h
      obtain ⟨x, tr, rfl, h⟩ := h
      cases x with
      | ok u =>
          obtain ⟨hu, hr⟩ := ih h
          refine ⟨uniform_cons.mpr ⟨rfl, hu⟩, fun hran => ?_⟩
          rw [hr hran]
          rfl
      | err e => cases e
      | panic =>
          obtain ⟨rfl, rfl⟩ := Prog.yields_ret.mp h
          exact ⟨uniform_cons.mpr ⟨rfl, uniform_nil⟩, by simp⟩

/-- Offering a snapshot makes no other calls. -/
lemma saveSnapshot_yields {id : I} {state : A.State} {next : SeqNo} {u : Unit}
    (h : (emb A (saveSnapshot A id state next)).Yields tr u) : Uniform .snapshot tr := by
  simp only [saveSnapshot, encodeSnapshot, ask, Prog.bind_eq, Prog.op_bind, Prog.call_bind,
    emb_call, Prog.yields_call] at h
  obtain ⟨x, tr, rfl, h⟩ := h
  refine uniform_cons.mpr ⟨rfl, ?_⟩
  cases x with
  | err e =>
      obtain ⟨rfl, -⟩ := Prog.yields_ret.mp h
      exact uniform_nil
  | panic =>
      obtain ⟨rfl, -⟩ := Prog.yields_ret.mp h
      exact uniform_nil
  | ok s =>
      cases s with
      | none =>
          obtain ⟨rfl, -⟩ := Prog.yields_ret.mp h
          exact uniform_nil
      | some s =>
          simp only [Prog.call_bind, emb_call, Prog.yields_call] at h
          obtain ⟨y, tr, rfl, h⟩ := h
          refine uniform_cons.mpr ⟨rfl, ?_⟩
          cases y with
          | ok payload =>
              simp only [Prog.pure_eq, Prog.ret_bind, emb_call, emb_ret, Prog.yields_call,
                Prog.yields_ret] at h
              obtain ⟨z, tr, rfl, rfl, -⟩ := h
              exact uniform_cons.mpr ⟨rfl, uniform_nil⟩
          | err e =>
              obtain ⟨rfl, -⟩ := Prog.yields_ret.mp h
              exact uniform_nil
          | panic =>
              obtain ⟨rfl, -⟩ := Prog.yields_ret.mp h
              exact uniform_nil

/-- A settlement up to its snapshot. -/
def settleEffect (A : EventSourced I) (id : I) (state : A.State) (next : SeqNo)
    (effect : Effect A) : Settling A (Option (Settled A)) := do
  match ← (if !effect.events.isEmpty then persist A id state next effect.events
      else return some (state, next)) with
  | none => return none
  | some (state, next) =>
      match ← emb A (runThens A state effect.thens) with
      | false => return none
      | true => return some ⟨state, next, effect.stop⟩

variable {id : I} {state : A.State} {next : SeqNo} {effect : Effect A}

/-- The snapshot comes last and changes nothing. -/
lemma settle_yields {r : Option (Settled A)} (h : (settle A id state next effect).Yields tr r) :
    ∃ t t', tr = t ++ t' ∧ (settleEffect A id state next effect).Yields t r ∧
      Uniform .snapshot t' ∧ (r = none → t' = []) := by
  simp only [settle, Prog.bind_eq, Prog.yields_bind] at h
  obtain ⟨t, t', persisted, rfl, hp, h⟩ := h
  simp only [settleEffect, Prog.bind_eq, Prog.yields_bind]
  match persisted with
  | none =>
      obtain ⟨rfl, rfl⟩ := Prog.yields_ret.mp h
      exact ⟨t, [], rfl, ⟨t, [], none, by simp, hp, .ret _⟩, uniform_nil, fun _ => rfl⟩
  | some (state', next') =>
      simp only [Prog.yields_bind] at h ⊢
      obtain ⟨t₁, t₂, ran, rfl, hran, h⟩ := h
      cases ran with
      | false =>
          obtain ⟨rfl, rfl⟩ := Prog.yields_ret.mp h
          refine ⟨t ++ t₁, [], by simp, ⟨t, t₁, _, rfl, hp, ?_⟩, uniform_nil, fun _ => rfl⟩
          exact Prog.yields_bind.mpr ⟨t₁, [], false, by simp, hran, .ret _⟩
      | true =>
          have hr : r = some ⟨state', next', effect.stop⟩ ∧ Uniform .snapshot t₂ := by
            dsimp only at h
            split at h
            · simp only [Prog.yields_bind] at h
              obtain ⟨t₂, t₃, _, rfl, hs, h⟩ := h
              obtain ⟨rfl, rfl⟩ := Prog.yields_ret.mp h
              rw [List.append_nil]
              exact ⟨rfl, saveSnapshot_yields hs⟩
            · obtain ⟨rfl, rfl⟩ := Prog.yields_ret.mp h
              exact ⟨rfl, uniform_nil⟩
          obtain ⟨rfl, hu⟩ := hr
          refine ⟨t ++ t₁, t₂, by simp, ⟨t, t₁, _, rfl, hp, ?_⟩, hu, by simp⟩
          exact Prog.yields_bind.mpr ⟨t₁, [], true, by simp, hran, .ret _⟩

/-- The outcomes of persisting an effect's events: not encoded, not appended, or appended and
handed to `apply`. -/
def Persisted (id : I) (state : A.State) (next : SeqNo) (events : List A.Event) (tr : Trace A)
    (r : Option (A.State × SeqNo)) : Prop :=
  r = none ∧ Uniform .encode tr ∨
  (∃ payloads x, r = none ∧ tr = encoding events payloads ++ [x] ∧ x.1.kind = .append) ∨
  ∃ payloads t, payloads.length = events.length ∧ Uniform .apply t ∧
    tr = encoding events payloads ++ appending id next events payloads ++ t ∧
    ∀ state' next', r = some (state', next') →
      next' = next.advancedBy events.length ∧ Folds state events t state'

lemma persist_yields {events : List A.Event} {r : Option (A.State × SeqNo)}
    (hne : events.isEmpty = false) (h : (persist A id state next events).Yields tr r) :
    Persisted id state next events tr r := by
  simp only [persist, Prog.bind_eq, Prog.yields_bind] at h
  obtain ⟨t, t', encoded, rfl, he, h⟩ := h
  rcases encodeEvents_yields he with ⟨payloads, hlen, rfl, rfl⟩ | ⟨rfl, hu⟩
  · simp only [ask, Prog.op, emb_call, emb_ret, Prog.call_bind, Prog.ret_bind,
      Prog.yields_call] at h
    obtain ⟨x, t', rfl, h⟩ := h
    cases x with
    | err e =>
        obtain ⟨rfl, rfl⟩ := Prog.yields_ret.mp h
        exact .inr (.inl ⟨payloads, _, rfl, rfl, rfl⟩)
    | panic =>
        obtain ⟨rfl, rfl⟩ := Prog.yields_ret.mp h
        exact .inr (.inl ⟨payloads, _, rfl, rfl, rfl⟩)
    | ok u =>
        simp only [Prog.yields_bind] at h
        obtain ⟨t, t', applied, rfl, ha, h⟩ := h
        obtain ⟨hu, hf⟩ := applyEvents_yields ha
        refine .inr (.inr ⟨payloads, t, hlen, hu, ?_, ?_⟩)
        · have ht' : t' = [] := by
            cases applied with
            | none => exact (Prog.yields_ret.mp h).1
            | some s => exact (Prog.yields_ret.mp h).1
          simp [ht', appending, hne]
        · rintro state' next' rfl
          cases applied with
          | none => cases (Prog.yields_ret.mp h).2
          | some s =>
              cases (Prog.yields_ret.mp h).2
              exact ⟨rfl, hf _ rfl⟩
  · obtain ⟨rfl, rfl⟩ := Prog.yields_ret.mp h
    rw [List.append_nil]
    exact .inl ⟨rfl, hu⟩

/-- An effect without events is persisted at once. -/
lemma persisted_yields {events : List A.Event} {r : Option (A.State × SeqNo)}
    (h : (if !events.isEmpty then persist A id state next events
      else return some (state, next)).Yields tr r) : Persisted id state next events tr r := by
  cases events with
  | cons event events => exact persist_yields rfl h
  | nil =>
      obtain ⟨rfl, rfl⟩ := Prog.yields_ret.mp h
      refine .inr (.inr ⟨[], [], rfl, uniform_nil, rfl, ?_⟩)
      rintro _ _ ⟨⟩
      exact ⟨(SeqNo.advancedBy_zero next).symm, .nil⟩

/-- The outcomes of a settlement up to its snapshot: its events are not encoded, or not
appended, or they are appended and everything after that is applying and continuing. -/
lemma settleEffect_yields {r : Option (Settled A)}
    (h : (settleEffect A id state next effect).Yields tr r) :
    r = none ∧ Uniform .encode tr ∨
    (∃ payloads x, r = none ∧ tr = encoding effect.events payloads ++ [x] ∧
      x.1.kind = .append) ∨
    ∃ payloads t t', payloads.length = effect.events.length ∧
      tr = encoding effect.events payloads ++ appending id next effect.events payloads ++ t ++ t' ∧
      Uniform .apply t ∧ Uniform .continuation t' ∧
      ∀ settled, r = some settled → Folds state effect.events t settled.state ∧
        t' = running settled.state effect.thens ∧
        settled.nextSeqNo = next.advancedBy effect.events.length ∧
        settled.stop = effect.stop := by
  simp only [settleEffect, Prog.bind_eq, Prog.yields_bind] at h
  obtain ⟨t₁, t₂, persisted, rfl, hp, h⟩ := h
  rcases persisted_yields hp with ⟨rfl, hu⟩ | ⟨payloads, x, rfl, rfl, hx⟩ |
    ⟨payloads, t, hlen, hu, rfl, hf⟩
  · obtain ⟨rfl, rfl⟩ := Prog.yields_ret.mp h
    rw [List.append_nil]
    exact .inl ⟨rfl, hu⟩
  · obtain ⟨rfl, rfl⟩ := Prog.yields_ret.mp h
    rw [List.append_nil]
    exact .inr (.inl ⟨payloads, x, rfl, rfl, hx⟩)
  · refine .inr (.inr ⟨payloads, t, t₂, hlen, rfl, hu, ?_⟩)
    match persisted with
    | none =>
        obtain ⟨rfl, rfl⟩ := Prog.yields_ret.mp h
        exact ⟨uniform_nil, by simp⟩
    | some (state', next') =>
        simp only [Prog.yields_bind] at h
        obtain ⟨t₂, t₃, ran, rfl, hran, h⟩ := h
        obtain ⟨hc, hall⟩ := runThens_yields hran
        cases ran with
        | false =>
            obtain ⟨rfl, rfl⟩ := Prog.yields_ret.mp h
            rw [List.append_nil]
            exact ⟨hc, by simp⟩
        | true =>
            obtain ⟨rfl, rfl⟩ := Prog.yields_ret.mp h
            rw [List.append_nil]
            obtain ⟨hnext, hfold⟩ := hf _ _ rfl
            refine ⟨hc, ?_⟩
            rintro _ ⟨⟩
            exact ⟨hfold, hall rfl, hnext, rfl⟩

lemma settleEffect_kind {r : Option (Settled A)}
    (h : (settleEffect A id state next effect).Yields tr r) : ∀ c ∈ tr, c.1.kind ≠ .snapshot := by
  intro c hc
  rcases settleEffect_yields h with ⟨-, hu⟩ | ⟨payloads, x, -, rfl, hx⟩ |
    ⟨payloads, ta, tc, -, rfl, ha, ht, -⟩
  · simp [hu c hc]
  · rcases List.mem_append.mp hc with hc | hc
    · simp [uniform_encoding _ _ c hc]
    · simp [List.mem_singleton.mp hc, hx]
  · simp only [List.mem_append] at hc
    rcases hc with ((hc | hc) | hc) | hc
    · simp [uniform_encoding _ _ c hc]
    · simp [uniform_appending _ _ _ _ c hc]
    · simp [ha c hc]
    · simp [ht c hc]

/-- Without its calls for the snapshot a settlement is one up to its snapshot. -/
lemma settleEffect_filter {r : Option (Settled A)} {t t' : Trace A}
    (h : (settleEffect A id state next effect).Yields t r) (hs : Uniform .snapshot t') :
    (t ++ t').filter (·.1.kind ≠ .snapshot) = t := by
  rw [List.filter_append, List.filter_eq_self.mpr, List.filter_eq_nil_iff.mpr, List.append_nil]
  · intro c hc
    simp [hs c hc]
  · intro c hc
    simpa using settleEffect_kind h c hc

end Settling

/-! ### The test helper -/

namespace Testing

/-- The result of `testing::settle`. -/
structure Settlement (A : EventSourced I) where
  state : A.State
  stop : Bool

/-- Settle an effect without stores, `none` if a callback unwinds. -/
def settle (A : EventSourced I) (state : A.State) (effect : Effect A) :
    Settling A (Option (Settlement A)) := do
  match ← Settling.applyEvents A state effect.events with
  | none => return none
  | some state =>
      match ← Settling.emb A (runThens A state effect.thens) with
      | false => return none
      | true => return some ⟨state, effect.stop⟩

end Testing

namespace Settling

variable {A : EventSourced I} {state state' : A.State} {tr : Trace A}

lemma Folds.yields {events : List A.Event} (h : Folds state events tr state') :
    (applyEvents A state events).Yields tr (some state') := by
  induction h with
  | nil => exact .ret _
  | cons _ ih => exact .call _ ih

lemma running_yields (state : A.State) (thens : List A.Then) :
    (emb A (runThens A state thens)).Yields (running state thens) true := by
  induction thens with
  | nil => exact .ret _
  | cons t thens ih =>
      simp only [runThens, ask, Prog.bind_eq, Prog.op_bind, emb_call, Prog.yields_call]
      exact ⟨.ok (), _, rfl, ih⟩

/-- If the answers are those of the actor's `apply`, the fold is its own. -/
lemma Folds.applyEvents_eq {id : I} {events : List A.Event} (h : Folds state events tr state')
    (hpure : ∀ s e x, ⟨.apply s e, x⟩ ∈ tr → x = A.apply id s e) :
    Tellus.applyEvents A id state events = some state' := by
  induction h with
  | nil => rfl
  | @cons state state₁ state₂ event events tr _ ih =>
      have happ : A.apply id state event = some state₁ :=
        (hpure _ _ _ (List.mem_cons_self ..)).symm
      rw [Tellus.applyEvents, List.foldlM_cons, happ]
      exact ih fun s e x hx => hpure s e x (List.mem_cons_of_mem _ hx)

/-- Given the same answers, the test helper makes the same calls to `apply` and to the
continuations and ends like this. -/
lemma testing_yields {effect : Effect A} (h : Folds state effect.events tr state') :
    (Testing.settle A state effect).Yields (tr ++ running state' effect.thens)
      (some ⟨state', effect.stop⟩) := by
  simp only [Testing.settle, Prog.bind_eq]
  refine Prog.yields_bind.mpr ⟨_, _, _, rfl, h.yields, ?_⟩
  refine Prog.yields_bind.mpr ⟨_, [], true, (List.append_nil _).symm, ?_, .ret _⟩
  exact running_yields state' effect.thens

/-! ### The result -/

/-- **Settlement is all or nothing and blind to snapshots.**  A settlement which succeeds has
encoded all events, appended them at once, applied them in order, run every continuation on
the resulting state and offered a snapshot, in this order and each exactly once; the test
helper, given the same answers, makes the same calls to `apply` and the continuations and ends
in the same state.  If an event is not encoded, or the append fails, no event is applied and no
continuation runs; in the former case nothing is written either.  And two settlements whose
calls differ in those for the snapshot only end alike. -/
theorem settle_all_or_nothing (A : EventSourced I) (id : I) (state : A.State) (next : SeqNo)
    (effect : Effect A) :
    (∀ tr settled, (settle A id state next effect).Yields tr (some settled) →
      tr = calls .encode tr ++ calls .append tr ++ calls .apply tr ++ calls .continuation tr ++
        calls .snapshot tr ∧
      (∃ payloads, payloads.length = effect.events.length ∧
        calls .encode tr = encoding effect.events payloads ∧
        calls .append tr = appending id next effect.events payloads) ∧
      Folds state effect.events (calls .apply tr) settled.state ∧
      ((∀ s e x, ⟨.apply s e, x⟩ ∈ tr → x = A.apply id s e) →
        Tellus.applyEvents A id state effect.events = some settled.state) ∧
      calls .continuation tr = running settled.state effect.thens ∧
      settled.nextSeqNo = next.advancedBy effect.events.length ∧
      (Testing.settle A state effect).Yields (calls .apply tr ++ calls .continuation tr)
        (some ⟨settled.state, settled.stop⟩)) ∧
    (∀ tr r, (settle A id state next effect).Yields tr r → (∃ c ∈ tr, failed c = true) →
      r = none ∧ calls .apply tr = [] ∧ calls .continuation tr = [] ∧
      ((∃ c ∈ calls .encode tr, failed c = true) →
        calls .append tr = [] ∧ calls .snapshot tr = [])) ∧
    (∀ tr tr' r r', (settle A id state next effect).Yields tr r →
      (settle A id state next effect).Yields tr' r' →
      tr.filter (·.1.kind ≠ .snapshot) = tr'.filter (·.1.kind ≠ .snapshot) → r = r') := by
  refine ⟨?_, ?_, ?_⟩
  · intro tr settled h
    obtain ⟨t, t', rfl, h, hs, -⟩ := settle_yields h
    rcases settleEffect_yields h with ⟨⟨⟩, -⟩ | ⟨_, _, ⟨⟩, -, -⟩ |
      ⟨payloads, ta, tc, hlen, rfl, ha, hc, hr⟩
    obtain ⟨hf, rfl, hnext, hstop⟩ := hr settled rfl
    simp only [calls_append, (uniform_encoding effect.events payloads).calls_eq,
      (uniform_appending id next effect.events payloads).calls_eq, ha.calls_eq, hc.calls_eq,
      hs.calls_eq, reduceCtorEq, if_true, if_false, List.nil_append, List.append_nil]
    refine ⟨trivial, ⟨payloads, hlen, rfl, rfl⟩, hf, ?_, trivial, hnext, ?_⟩
    · exact fun hpure => hf.applyEvents_eq fun s e x hx => hpure s e x (by simp [hx])
    rw [hstop]
    exact testing_yields hf
  · intro tr r h ⟨c, hmem, hfail⟩
    obtain ⟨t, t', rfl, h, hs, hnone⟩ := settle_yields h
    rcases settleEffect_yields h with ⟨rfl, hu⟩ | ⟨payloads, x, rfl, rfl, hx⟩ |
      ⟨payloads, ta, tc, -, rfl, ha, hc, -⟩
    · simp [hnone rfl, hu.calls_eq]
    · have hu : Uniform .append [x] := uniform_cons.mpr ⟨hx, uniform_nil⟩
      simp only [hnone rfl, List.append_nil, calls_append, (uniform_encoding _ _).calls_eq,
        hu.calls_eq, reduceCtorEq, if_true, if_false, true_and]
      rintro ⟨c, hc, hfail⟩
      rw [not_failed_of_encoding hc] at hfail
      cases hfail
    · exfalso
      have hkind := kind_of_failed hfail
      simp only [List.mem_append] at hmem
      rcases hmem with (((hmem | hmem) | hmem) | hmem) | hmem
      · simp [not_failed_of_encoding hmem] at hfail
      · simp [not_failed_of_appending hmem] at hfail
      · simp [ha c hmem] at hkind
      · simp [hc c hmem] at hkind
      · simp [hs c hmem] at hkind
  · intro tr tr' r r' h h' heq
    obtain ⟨t₁, t₂, rfl, h, hs, -⟩ := settle_yields h
    obtain ⟨t₁', t₂', rfl, h', hs', -⟩ := settle_yields h'
    rw [settleEffect_filter h hs, settleEffect_filter h' hs'] at heq
    subst heq
    exact h.unique h'

/-- The counter with continuations. -/
def tally : EventSourced Unit := { counter with Then := Unit }

/-- The tally settles an event and a continuation although its snapshot panics, and the test
helper does as it did. -/
theorem settle_all_or_nothing_tally :
    ∃ tr, (settle tally () (0 : ℕ) SeqNo.zero ⟨[()], false, [()]⟩).Yields tr
        (some ⟨(1 : ℕ), SeqNo.zero.advancedBy 1, false⟩) ∧
      calls .continuation tr = running (A := tally) (1 : ℕ) [()] ∧
      (Testing.settle tally (0 : ℕ) ⟨[()], false, [()]⟩).Yields
        (calls .apply tr ++ calls .continuation tr) (some ⟨(1 : ℕ), false⟩) := by
  have h : (settle tally () (0 : ℕ) SeqNo.zero ⟨[()], false, [()]⟩).Yields
      [⟨.task (.encodeEvent ()), .ok []⟩, ⟨.task (.append () SeqNo.zero [counted]), .ok ()⟩,
        ⟨.apply (0 : ℕ) (), some (1 : ℕ)⟩, ⟨.task (.continuation () (1 : ℕ)), .ok ()⟩,
        ⟨.task (.snapshot (1 : ℕ)), .panic⟩]
      (some ⟨(1 : ℕ), SeqNo.zero.advancedBy 1, false⟩) :=
    .call _ (.call _ (.call _ (.call _ (.call _ (.ret _)))))
  obtain ⟨-, -, -, -, hc, -, ht⟩ := (settle_all_or_nothing tally () (0 : ℕ) SeqNo.zero
    ⟨[()], false, [()]⟩).1 _ _ h
  exact ⟨_, h, hc, ht⟩

end Settling

end Tellus
