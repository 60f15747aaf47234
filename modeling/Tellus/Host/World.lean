import Mathlib.Tactic
import Tellus.Actor.Tree
import Tellus.Host.Host
import Tellus.Lib.Tasks

/-!
A host among the other actors.

The surroundings of a host (`World`) are a system of actors in which the host is one of them, a
clock, and what has to be remembered to speak of keys: which actor was spawned for which key, which
messages were accepted for it, and which are in a buffer.  `Exec` says what a call of the host's
task does: most of them are a step of the host in the system of actors.  `Env` is everything
else, which is any step of any actor, the run loop around the host's callbacks included, except
for what the callbacks are there for.

* `Inv` is the invariant of the world, `Owes` what a host owes before a call, and `Rely` what the
  others leave alone.
* `exec_keeps` and `env_keeps`: every call and every other step keeps the one and obeys the other.
-/

namespace Tellus.Host

open Concurrent

variable {K M : Type}

/-! ### The world -/

/-- What a host enqueues to an entity: a message, or the one built by `passivate`. -/
inductive Told (M : Type) where
  | message (m : M)
  | passivate
  deriving DecidableEq

/-- What travels between actors: envelopes to the host, what it tells its entities, and whatever
the others say. -/
inductive Payload (K M : Type) where
  | envelope (key : K) (message : M)
  | told (t : Told M)
  | other
  deriving DecidableEq

/-- The item by which the host `h` tells something. -/
def item (h : ActorId) (t : Told M) : Item (Payload K M) := .message (some h) (.told t)

/-- What an item tells on behalf of the host `h`. -/
def toldBy (h : ActorId) : Item (Payload K M) → Option (Told M)
  | .message (some a) (.told t) => if a = h then some t else none
  | _ => none

@[simp] lemma toldBy_item (h : ActorId) (t : Told M) :
    toldBy h (item h t : Item (Payload K M)) = some t := by
  simp [toldBy, item]

/-- What the host has enqueued to an actor. -/
def told (h a : ActorId) (tr : List (Label (Payload K M))) : List (Told M) :=
  (sends a tr).filterMap (toldBy h)

/-- What of this the actor has processed. -/
def heard (h a : ActorId) (tr : List (Label (Payload K M))) : List (Told M) :=
  (handed a tr).filterMap (toldBy h)

/-- What of this is still in the mailbox, or just taken out of it. -/
def waiting (h a : ActorId) (s : Sys (Payload K M)) : List (Told M) :=
  (s.inbox a).filterMap (toldBy h)

/-- The message of an envelope for `key`. -/
def enveloped [DecidableEq K] (key : K) : Item (Payload K M) → Option M
  | .message _ (.envelope key' m) => if key' = key then some m else none
  | _ => none

/-- The messages for a key the host has been handed. -/
def envelopes [DecidableEq K] (h : ActorId) (key : K) (tr : List (Label (Payload K M))) : List M :=
  (handed h tr).filterMap (enveloped key)

/-- The messages among what was told. -/
def messages (ts : List (Told M)) : List M :=
  ts.filterMap fun
    | .message m => some m
    | .passivate => none

/-- The surroundings of a host. -/
structure World (K M : Type) where
  sys : Sys (Payload K M)
  trace : List (Label (Payload K M))
  clock : ℕ
  /-- The key an actor was spawned for. -/
  entity : ActorId → Option K
  /-- The actors spawned for a key, oldest first. -/
  incarnations : K → List ActorId
  /-- When envelopes for a key were routed. -/
  routed : K → List ℕ
  /-- The messages for a key in the order of routing, and whether they were accepted: that is,
  not refused by a full mailbox or a full buffer. -/
  routings : K → List (M × Bool)
  /-- The messages for a key which are in a buffer. -/
  buffered : K → List M

namespace World

/-- Before anything has happened. -/
def init : World K M where
  sys := .init
  trace := []
  clock := 0
  entity := fun _ => none
  incarnations := fun _ => []
  routed := fun _ => []
  routings := fun _ => []
  buffered := fun _ => []

/-- The messages accepted for a key, in the order of routing. -/
def accepted (w : World K M) (key : K) : List M :=
  (w.routings key).filterMap fun r => if r.2 then some r.1 else none

/-- A step of the system of actors. -/
@[simps] def act (w : World K M) (l : Label (Payload K M)) (s' : Sys (Payload K M)) :
    World K M :=
  { w with sys := s', trace := w.trace ++ [l] }

@[simp] lemma accepted_act (w : World K M) (l : Label (Payload K M)) (s' : Sys (Payload K M)) :
    (w.act l s').accepted = w.accepted := rfl

variable [DecidableEq K]

/-- An actor was spawned for a key. -/
@[simps] def host (w : World K M) (a : ActorId) (key : K) : World K M :=
  { w with
    entity := Function.update w.entity a (some key)
    incarnations := Function.update w.incarnations key (w.incarnations key ++ [a]) }

/-- An envelope is being routed. -/
@[simps] def route (w : World K M) (key : K) : World K M :=
  { w with routed := Function.update w.routed key (w.clock :: w.routed key) }

/-- A message was accepted, or refused. -/
@[simps] def verdict (w : World K M) (key : K) (m : M) (ok : Bool) : World K M :=
  { w with routings := Function.update w.routings key (w.routings key ++ [(m, ok)]) }

/-- A buffer is left with the given messages. -/
@[simps] def setBuffered (w : World K M) (key : K) (ms : List M) : World K M :=
  { w with buffered := Function.update w.buffered key ms }

@[simp] lemma accepted_host (w : World K M) (a : ActorId) (key : K) :
    (w.host a key).accepted = w.accepted := rfl

@[simp] lemma accepted_setBuffered (w : World K M) (key : K) (ms : List M) :
    (w.setBuffered key ms).accepted = w.accepted := rfl

lemma accepted_verdict (w : World K M) (key : K) (m : M) (ok : Bool) (key' : K) :
    (w.verdict key m ok).accepted key' =
      w.accepted key' ++ if key' = key then (if ok then [m] else []) else [] := by
  by_cases hkey : key' = key
  · subst hkey
    cases ok <;> simp [accepted]
  · simp [accepted, hkey]

end World

/-- The user code of the host which only its callbacks run: what they tell the entities, and
their beginning and end. -/
def ofHost (h : ActorId) : Label (Payload K M) → Prop
  | .send _ (.message (some a) (.told _)) => a = h
  | .hand a _ => a = h
  | .returned a => a = h
  | .restart a => a = h
  | _ => False

section Steps

variable [DecidableEq K] (kind : ActorId → Kind) (h : ActorId)

/-- How a call of the host `h` is answered. -/
inductive Exec (w : World K M) : (op : Op K M) → op.Ans → World K M → Prop
  | spawn {key : K} {c : ActorId} {s' : Sys (Payload K M)}
      (hs : Step kind w.sys (.spawn h c) s') :
      Exec w (.spawn key) c ((w.act (.spawn h c) s').host c key)
  | spawnTicker {c : ActorId} {s' : Sys (Payload K M)} (hs : Step kind w.sys (.spawn h c) s') :
      Exec w .spawnTicker c (w.act (.spawn h c) s')
  | watch {a : ActorId} {s' : Sys (Payload K M)} (hs : Step kind w.sys (.watch h a) s') :
      Exec w (.watch a) () (w.act (.watch h a) s')
  | tell {key : K} {a : ActorId} {m : M} {s' : Sys (Payload K M)}
      (hs : Step kind w.sys (.send a (item h (.message m))) s') :
      Exec w (.tell key a m) (.ok ())
        (((w.act (.send a (item h (.message m))) s').route key).verdict key m true)
  | tellFull {key : K} {a : ActorId} {m : M} (ha : (w.sys.phase a).connected = true) :
      Exec w (.tell key a m) (.error .mailboxFull) ((w.route key).verdict key m false)
  | tellTerminated {key : K} {a : ActorId} {m : M} (ha : (w.sys.phase a).connected = false) :
      Exec w (.tell key a m) (.error .actorTerminated) ((w.route key).verdict key m true)
  /-- A forced message counts against no capacity. -/
  | tellForced {key : K} {a : ActorId} {m : M} {s' : Sys (Payload K M)}
      (hs : Step kind w.sys (.send a (item h (.message m))) s') :
      Exec w (.tryTellForced key a m) (.ok ())
        ((w.act (.send a (item h (.message m))) s').setBuffered key (w.buffered key).tail)
  | tellForcedTerminated {key : K} {a : ActorId} {m : M}
      (ha : (w.sys.phase a).connected = false) :
      Exec w (.tryTellForced key a m) (.error .actorTerminated)
        (w.setBuffered key (w.buffered key).tail)
  | passivate {a : ActorId} {s' : Sys (Payload K M)}
      (hs : Step kind w.sys (.send a (item h .passivate)) s') :
      Exec w (.passivate a) (.ok ()) (w.act (.send a (item h .passivate)) s')
  | passivateFull {a : ActorId} (ha : (w.sys.phase a).connected = true) :
      Exec w (.passivate a) (.error .mailboxFull) w
  | passivateTerminated {a : ActorId} (ha : (w.sys.phase a).connected = false) :
      Exec w (.passivate a) (.error .actorTerminated) w
  | buffer {key : K} {m : M} :
      Exec w (.buffer key m) () ((w.verdict key m true).setBuffered key (w.buffered key ++ [m]))
  | refuse {key : K} {m : M} : Exec w (.refuse key m) () (w.verdict key m false)
  | deadLetter {a : ActorId} {error : String} : Exec w (.deadLetter a error) () w
  | now : Exec w .now w.clock w
  | order {entries : K → Option (Entry M)} {keys : List K} (hnodup : keys.Nodup)
      (hkeys : ∀ key, key ∈ keys ↔ entries key ≠ none) : Exec w (.order entries) keys w
  | panics (b : Bool) : Exec w .panics b w
  | nextMessage {held : State K M} {o : Option ActorId} {key : K} {m : M}
      {s' : Sys (Payload K M)} (hs : Step kind w.sys (.hand h (.message o (.envelope key m))) s') :
      Exec w (.nextIncoming held) (some (.message ⟨key, m⟩))
        ((w.act (.hand h (.message o (.envelope key m))) s').route key)
  | nextTerminated {held : State K M} {x : ActorId} {s' : Sys (Payload K M)}
      (hs : Step kind w.sys (.hand h (.terminated x)) s') :
      Exec w (.nextIncoming held) (some (.terminated x)) (w.act (.hand h (.terminated x)) s')
  | stopped {held : State K M} (hstop : w.sys.phase h = .dropping false) :
      Exec w (.nextIncoming held) none w
  | returned {s' : Sys (Payload K M)} (hs : Step kind w.sys (.returned h) s')
      (hidle : s'.phase h = .idle) : Exec w (.returned true) () (w.act (.returned h) s')
  /-- The state is dropped, with its buffers. -/
  | fails {s' : Sys (Payload K M)} (hs : Step kind w.sys (.returned h) s')
      (hfail : s'.phase h = .failed) :
      Exec w (.returned false) () { w.act (.returned h) s' with buffered := fun _ => [] }
  | restart {s' : Sys (Payload K M)} (hs : Step kind w.sys (.restart h) s') :
      Exec w .awaitRestart true (w.act (.restart h) s')
  | notRestarted (hstop : w.sys.phase h = .terminating .drain) : Exec w .awaitRestart false w

omit [DecidableEq K] in
/-- What happens besides the calls of the host: a step of any actor, or time passes.  That
includes whatever else the user code given to the host does with its context. -/
inductive Env (w : World K M) : World K M → Prop
  | step {l : Label (Payload K M)} {s' : Sys (Payload K M)} (hs : Step kind w.sys l s')
      (hl : ¬ofHost h l) : Env w (w.act l s')
  | tick : Env w { w with clock := w.clock + 1 }

end Steps

/-! ### What was told -/

section Told

variable {h a : ActorId} {l : Label (Payload K M)} {tr tr' : List (Label (Payload K M))}

lemma told_append (h a : ActorId) (tr tr' : List (Label (Payload K M))) :
    told h a (tr ++ tr') = told h a tr ++ told h a tr' := by
  rw [told, sends_append, List.filterMap_append]
  rfl

/-- Nobody else tells on behalf of the host. -/
lemma told_of_not_ofHost (hl : ¬ofHost h l) (a : ActorId) : told h a [l] = [] := by
  rcases sends_single a l with hnil | ⟨i, rfl, hone, -⟩
  · rw [told, hnil, List.filterMap_nil]
  · rw [told, hone]
    cases i with
    | terminated x => rfl
    | message o p =>
        cases p with
        | told t =>
            cases o with
            | none => rfl
            | some b =>
                have hb : b ≠ h := fun hb => hl hb
                simp [toldBy, hb]
        | _ => cases o <;> rfl

lemma told_send (h a b : ActorId) (t : Told M) :
    told h a [(.send b (item h t) : Label (Payload K M))] = if b = a then [t] else [] := by
  by_cases hb : b = a <;> simp [told, sends, hb]

/-- What has been processed, in terms of what has been taken out of the mailbox. -/
lemma heard_eq (h a : ActorId) (tr : List (Label (Payload K M))) :
    heard h a tr = (consumed a tr).filterMap (toldBy h) :=
  (consumed_filterMap (fun _ => rfl) a tr).symm

lemma envelopes_append [DecidableEq K] (h : ActorId) (key : K)
    (tr tr' : List (Label (Payload K M))) :
    envelopes h key (tr ++ tr') = envelopes h key tr ++ envelopes h key tr' := by
  rw [envelopes, handed_append, List.filterMap_append]
  rfl

/-- The host is handed nothing except by its run loop. -/
lemma envelopes_of_not_ofHost [DecidableEq K] (hl : ¬ofHost h l) (key : K) :
    envelopes h key [l] = [] := by
  cases l with
  | hand b i =>
      have hb : b ≠ h := fun hb => hl hb
      simp [envelopes, handed, hb]
  | _ => rfl

/-- **One step of one mailbox**, as far as the host is concerned. -/
lemma told_step {kind : ActorId → Kind} {s s' : Sys (Payload K M)} (hs : Step kind s l s')
    (heq : told h a tr = heard h a tr ++ waiting h a s)
    (hdrain : s.phase a = .terminating .drain → waiting h a s = []) :
    told h a (tr ++ [l]) = heard h a (tr ++ [l]) ++ waiting h a s' := by
  rw [heard_eq] at heq ⊢
  rw [told_append, heq, consumed_append, List.filterMap_append, List.append_assoc,
    List.append_assoc]
  congr 1
  rcases hs.mailbox a with hbox | ⟨hphase, -, hnil, hsends, hconsumed⟩
  · rw [waiting, told, waiting, ← List.filterMap_append, hbox, List.filterMap_append]
  · rw [hdrain hphase, told, waiting, hsends, hconsumed, hnil]
    rfl

end Told

/-! ### The invariant -/

/-- An actor has failed or stopped: it has left its run loop, or is between two rounds of it. -/
def retired {P : Type} : Phase P → Bool
  | .dropping _ => true
  | .failed => true
  | .restarting => true
  | .backoff => true
  | .terminating _ => true
  | .finished => true
  | _ => false

/-- The host neither stops nor fails, and no entity does before it has processed the message built
by `passivate`. -/
structure Behaved (h : ActorId) (w : World K M) : Prop where
  entities : ∀ a key, w.entity a = some key → retired (w.sys.phase a) = true →
    .passivate ∈ heard h a w.trace
  host : retired (w.sys.phase h) = false

/-- What every step keeps of the actors spawned for keys. -/
structure Hosted (kind : ActorId → Kind) (h : ActorId) (w : World K M) : Prop where
  run : Runs kind w.trace w.sys
  born : ∀ a key, w.entity a = some key → w.sys.phase a ≠ .unborn
  child : ∀ a key, w.entity a = some key → ∃ g, w.sys.parent a = some (h, g)
  listed : ∀ a key, w.entity a = some key ↔ a ∈ w.incarnations key
  nodup : ∀ key, (w.incarnations key).Nodup
  /-- At most the last actor of a key is not closed. -/
  past : ∀ key before a, w.incarnations key = before ++ [a] →
    ∀ b ∈ before, (w.sys.phase b).closed = true
  clock : ∀ key, ∀ t ∈ w.routed key, t ≤ w.clock

/-- Every message accepted for a key was enqueued to one of its actors or is in the buffer, and
those routed are the ones which were received. -/
structure Accounted [DecidableEq K] (h : ActorId) (w : World K M) : Prop where
  mailbox : ∀ a key, w.entity a = some key →
    told h a w.trace = heard h a w.trace ++ waiting h a w.sys
  accepted : ∀ key, w.accepted key =
    (w.incarnations key).flatMap (fun a => messages (told h a w.trace)) ++ w.buffered key
  received : ∀ key, (w.routings key).map Prod.fst <+: envelopes h key w.trace

/-- What every step keeps of the world.  `good` is the promise that hosts and entities behave. -/
structure Inv [DecidableEq K] (kind : ActorId → Kind) (h : ActorId) (good : Prop)
    (w : World K M) : Prop extends Hosted kind h w where
  last : ∀ a before after, told h a w.trace = before ++ .passivate :: after → after = []
  behaved : good → Behaved h w
  accounted : good → Accounted h w

/-- What the others, and most calls, leave alone. -/
structure Frame (h : ActorId) (w w' : World K M) : Prop where
  entity : w'.entity = w.entity
  incarnations : w'.incarnations = w.incarnations
  born : ∀ a, w.sys.phase a ≠ .unborn → w'.sys.phase a ≠ .unborn
  closed : ∀ a, (w.sys.phase a).closed = true → (w'.sys.phase a).closed = true
  passivated : ∀ a, .passivate ∈ told h a w'.trace → .passivate ∈ told h a w.trace

/-- What the others leave alone between two calls of the host. -/
structure Rely [DecidableEq K] (h : ActorId) (w w' : World K M) : Prop extends Frame h w w' where
  routed : w'.routed = w.routed
  routings : w'.routings = w.routings
  envelopes : ∀ key, envelopes h key w'.trace = envelopes h key w.trace
  buffered : w'.buffered = w.buffered
  clock : w.clock ≤ w'.clock

namespace Frame

variable {h : ActorId} {w w' w'' : World K M}

lemma trans (hf : Frame h w w') (hf' : Frame h w' w'') : Frame h w w'' :=
  ⟨hf'.entity.trans hf.entity, hf'.incarnations.trans hf.incarnations,
    fun a hb => hf'.born a (hf.born a hb),
    fun a hc => hf'.closed a (hf.closed a hc), fun a ht => hf.passivated a (hf'.passivated a ht)⟩

/-- A step which leaves the actors alone. -/
lemma of_eq (hsys : w'.sys = w.sys) (htrace : w'.trace = w.trace)
    (hentity : w'.entity = w.entity) (hincarnations : w'.incarnations = w.incarnations) :
    Frame h w w' where
  entity := hentity
  incarnations := hincarnations
  born := by rw [hsys]; exact fun _ hb => hb
  closed := by rw [hsys]; exact fun _ hc => hc
  passivated := by rw [htrace]; exact fun _ ht => ht

/-- A step of the system of actors in which nobody is asked to stop. -/
lemma act {kind : ActorId → Kind} {l : Label (Payload K M)} {s' : Sys (Payload K M)}
    (hs : Step kind w.sys l s') (hl : ∀ a, .passivate ∉ told h a [l]) : Frame h w (w.act l s') where
  entity := rfl
  incarnations := rfl
  born := fun _ hb => hs.born hb
  closed := fun _ hc => hs.closed hc
  passivated := fun a ht => by
    rw [World.act_trace, told_append] at ht
    exact (List.mem_append.mp ht).resolve_right (hl a)

/-- A step of the system of actors in which the host tells nothing. -/
lemma silent {kind : ActorId → Kind} {l : Label (Payload K M)} {s' : Sys (Payload K M)}
    (hs : Step kind w.sys l s') (hl : ∀ a, told h a [l] = []) : Frame h w (w.act l s') :=
  .act hs fun a => by rw [hl]; exact List.not_mem_nil

end Frame

lemma Rely.refl [DecidableEq K] (h : ActorId) (w : World K M) : Rely h w w :=
  ⟨.of_eq rfl rfl rfl rfl, rfl, rfl, fun _ => rfl, rfl, le_refl _⟩

lemma Rely.trans [DecidableEq K] {h : ActorId} {w w' w'' : World K M} (hr : Rely h w w')
    (hr' : Rely h w' w'') : Rely h w w'' :=
  ⟨hr.toFrame.trans hr'.toFrame, hr'.routed.trans hr.routed, hr'.routings.trans hr.routings,
    fun key => (hr'.envelopes key).trans (hr.envelopes key), hr'.buffered.trans hr.buffered,
    hr.clock.trans hr'.clock⟩

/-! ### Keeping the invariant -/

section Keeping

variable {kind : ActorId → Kind} {h a : ActorId} {good : Prop} {w : World K M}
  {l : Label (Payload K M)} {s' : Sys (Payload K M)}

/-- An actor which has not been spawned is nobody's entity. -/
lemma Hosted.entity_unborn (hw : Hosted kind h w) (ha : w.sys.phase a = .unborn) :
    w.entity a = none := by
  cases hkey : w.entity a with
  | none => rfl
  | some key => exact absurd ha (hw.born a key hkey)

/-- A step of the system of actors which spawns no entity. -/
lemma Hosted.act (hw : Hosted kind h w) (hs : Step kind w.sys l s') :
    Hosted kind h (w.act l s') where
  run := hw.run.snoc hs
  born := fun a key ha => hs.born (hw.born a key ha)
  child := fun a key ha => by
    obtain ⟨g, hg⟩ := hw.child a key ha
    refine ⟨g, ?_⟩
    rcases hs.parent with hp | ⟨b, c, cb, -, hc, -, -, hp, -⟩
    · rw [World.act_sys, hp]
      exact hg
    · have hne : a ≠ c := by
        rintro rfl
        exact hw.born a key ha hc
      rw [World.act_sys, hp, Function.update_of_ne hne]
      exact hg
  listed := hw.listed
  nodup := hw.nodup
  past := fun key before a hsplit b hb => hs.closed (hw.past key before a hsplit b hb)
  clock := hw.clock

/-- A step which leaves the actors alone. -/
lemma Hosted.of_eq {w' : World K M} (hw : Hosted kind h w) (hsys : w'.sys = w.sys)
    (htrace : w'.trace = w.trace) (hentity : w'.entity = w.entity)
    (hincarnations : w'.incarnations = w.incarnations)
    (hclock : ∀ key, ∀ t ∈ w'.routed key, t ≤ w'.clock) : Hosted kind h w' where
  run := by rw [hsys, htrace]; exact hw.run
  born := by rw [hsys, hentity]; exact hw.born
  child := by rw [hsys, hentity]; exact hw.child
  listed := by rw [hentity, hincarnations]; exact hw.listed
  nodup := by rw [hincarnations]; exact hw.nodup
  past := by rw [hsys, hincarnations]; exact hw.past
  clock := hclock

/-- An envelope is routed now. -/
lemma Hosted.clock_route [DecidableEq K] (hw : Hosted kind h w) (key key' : K) :
    ∀ t ∈ (w.route key).routed key', t ≤ w.clock := by
  intro t ht
  by_cases hkey : key' = key
  · subst hkey
    rw [World.route_routed, Function.update_self] at ht
    rcases List.mem_cons.mp ht with rfl | ht
    · exact le_refl _
    · exact hw.clock key' t ht
  · rw [World.route_routed, Function.update_of_ne hkey] at ht
    exact hw.clock key' t ht

variable [DecidableEq K]

/-- Nothing is hosted before anything has happened. -/
lemma Inv.init : Inv kind h good (World.init : World K M) where
  run := .nil
  born := fun _ _ ha => by cases ha
  child := fun _ _ ha => by cases ha
  listed := fun a key => by simp [World.init]
  nodup := fun _ => List.nodup_nil
  past := fun key before a hsplit => by simp [World.init] at hsplit
  clock := fun _ t ht => by cases ht
  last := fun a before after hsplit => by simp [World.init, told, sends] at hsplit
  behaved := fun _ => ⟨fun _ _ ha => (by cases ha), rfl⟩
  accounted := fun _ => ⟨fun _ _ ha => (by cases ha), fun _ => rfl, fun _ => List.prefix_rfl⟩

/-- What an entity has processed was told. -/
lemma Accounted.told_of_heard {key : K} {t : Told M} (hw : Accounted h w)
    (ha : w.entity a = some key) (ht : t ∈ heard h a w.trace) : t ∈ told h a w.trace := by
  rw [hw.mailbox a key ha]
  exact List.mem_append_left _ ht

/-- Nothing told is left in the mailbox of an entity which has processed that it is to stop. -/
lemma Inv.waiting_nil {key : K} (hw : Inv kind h good w) (hg : good) (ha : w.entity a = some key)
    (ht : .passivate ∈ heard h a w.trace) : waiting h a w.sys = [] := by
  obtain ⟨before, after, hsplit⟩ := List.append_of_mem ht
  have htold := (hw.accounted hg).mailbox a key ha
  rw [hsplit, List.append_assoc, List.cons_append] at htold
  exact (List.append_eq_nil_iff.mp (hw.last a _ _ htold)).2

/-- The mailboxes of the entities after a step. -/
lemma Inv.mailbox_act {key : K} (hw : Inv kind h good w) (hg : good)
    (hs : Step kind w.sys l s') (ha : w.entity a = some key) :
    told h a (w.trace ++ [l]) = heard h a (w.trace ++ [l]) ++ waiting h a s' := by
  refine told_step hs ((hw.accounted hg).mailbox a key ha) fun hdrain => ?_
  refine hw.waiting_nil hg ha ((hw.behaved hg).entities a key ha ?_)
  rw [hdrain]
  rfl

/-- A step in which the host tells nothing. -/
lemma Inv.act (hw : Inv kind h good w) (hs : Step kind w.sys l s') (hl : ∀ a, told h a [l] = [])
    (hgood : good → Behaved h (w.act l s')) : Inv kind h good (w.act l s') where
  toHosted := hw.toHosted.act hs
  last := fun a before after hsplit => by
    rw [World.act_trace, told_append, hl, List.append_nil] at hsplit
    exact hw.last a before after hsplit
  behaved := hgood
  accounted := fun hg => by
    have hacc := hw.accounted hg
    refine ⟨fun a key ha => hw.mailbox_act hg hs ha, fun key => ?_,
      fun key => (hacc.received key).trans ?_⟩
    · have hsame : ∀ a, told h a (w.trace ++ [l]) = told h a w.trace := fun a => by
        rw [told_append, hl, List.append_nil]
      simp only [World.act_incarnations, World.act_trace, World.act_buffered, hsame]
      exact hacc.accepted key
    · rw [World.act_trace, envelopes_append]
      exact List.prefix_append ..

/-- A step which leaves the actors alone. -/
lemma Inv.of_eq {w' : World K M} (hw : Inv kind h good w) (hsys : w'.sys = w.sys)
    (htrace : w'.trace = w.trace) (hentity : w'.entity = w.entity)
    (hincarnations : w'.incarnations = w.incarnations)
    (hclock : ∀ key, ∀ t ∈ w'.routed key, t ≤ w'.clock) (hgood : good → Behaved h w')
    (haccepted : good → ∀ key, w'.accepted key =
      (w.incarnations key).flatMap (fun a => messages (told h a w.trace)) ++ w'.buffered key)
    (hreceived : good → ∀ key, (w'.routings key).map Prod.fst <+: envelopes h key w.trace) :
    Inv kind h good w' where
  toHosted := hw.toHosted.of_eq hsys htrace hentity hincarnations hclock
  last := by rw [htrace]; exact hw.last
  behaved := hgood
  accounted := fun hg => by
    refine ⟨?_, ?_, ?_⟩
    · rw [hsys, htrace, hentity]
      exact (hw.accounted hg).mailbox
    · rw [htrace, hincarnations]
      exact haccepted hg
    · rw [htrace]
      exact hreceived hg

/-- `a` is the entity the host has for `key`, and has not been asked to stop. -/
structure Addresses (h : ActorId) (w : World K M) (key : K) (a : ActorId) : Prop where
  entity : w.entity a = some key
  current : (w.incarnations key).getLast? = some a
  unasked : .passivate ∉ told h a w.trace

lemma messages_append (ts ts' : List (Told M)) :
    messages (ts ++ ts') = messages ts ++ messages ts' :=
  List.filterMap_append ..

/-- Telling the current entity of a key extends what was told for this key, and no other. -/
lemma Hosted.flatMap_send {key : K} (hw : Hosted kind h w)
    (ha : Addresses h w key a) (t : Told M) (key' : K) :
    (w.incarnations key').flatMap
        (fun b => messages (told h b (w.trace ++ [.send a (item h t)]))) =
      (w.incarnations key').flatMap (fun b => messages (told h b w.trace)) ++
        if key' = key then messages [t] else [] := by
  have hother : ∀ b, b ≠ a → told h b (w.trace ++ [.send a (item h t)]) = told h b w.trace := by
    intro b hb
    rw [told_append, told_send, if_neg (fun hab => hb hab.symm), List.append_nil]
  by_cases hkey : key' = key
  · subst hkey
    obtain ⟨before, hsplit⟩ := List.getLast?_eq_some_iff.mp ha.current
    have hnot : ∀ b ∈ before, b ≠ a := by
      have hnodup := hw.nodup key'
      rw [hsplit, List.nodup_append] at hnodup
      exact fun b hb => hnodup.2.2 b hb a (List.mem_singleton_self a)
    rw [hsplit, List.flatMap_append, List.flatMap_append, if_pos rfl, List.append_assoc]
    congr 1
    · exact List.flatMap_congr fun b hb => by rw [hother b (hnot b hb)]
    · simp [told_append, told_send, messages_append]
  · rw [if_neg hkey, List.append_nil]
    refine List.flatMap_congr fun b hb => ?_
    rw [hother b ?_]
    rintro rfl
    have hb := (hw.listed b key').mpr hb
    rw [ha.entity] at hb
    exact hkey (Option.some.inj hb).symm

/-- The host tells an entity which has not been asked to stop: whatever it asked to stop is told
nothing more. -/
lemma Inv.last_send {key : K} (hw : Inv kind h good w) (ha : Addresses h w key a) (t : Told M)
    (b : ActorId) (before after : List (Told M))
    (hsplit : told h b (w.trace ++ [.send a (item h t)]) = before ++ .passivate :: after) :
    after = [] := by
  rw [told_append, told_send] at hsplit
  by_cases hb : a = b
  · subst hb
    rw [if_pos rfl] at hsplit
    rcases List.eq_nil_or_concat after with rfl | ⟨after', t', rfl⟩
    · rfl
    · rw [List.concat_eq_append, ← List.cons_append, ← List.append_assoc] at hsplit
      obtain ⟨hsplit, -⟩ := List.append_inj' hsplit rfl
      refine absurd ?_ ha.unasked
      rw [hsplit]
      simp
  · rw [if_neg hb, List.append_nil] at hsplit
    exact hw.last b before after hsplit

/-- As long as everybody behaves, the current entity of a key has a mailbox. -/
lemma Inv.connected {key : K} (hw : Inv kind h good w) (hg : good) (ha : Addresses h w key a) :
    (w.sys.phase a).connected = true := by
  have hnot : retired (w.sys.phase a) ≠ true := fun hr =>
    ha.unasked ((hw.accounted hg).told_of_heard ha.entity
      ((hw.behaved hg).entities a key ha.entity hr))
  have hborn := hw.born a key ha.entity
  refine Phase.connected_of_live ?_
  cases hp : w.sys.phase a <;> simp_all [retired, Phase.live]

/-- The message routed next is the last one the host was handed. -/
def Pending (good : Prop) (h : ActorId) (w : World K M) (key : K) (m : M) : Prop :=
  good → envelopes h key w.trace = (w.routings key).map Prod.fst ++ [m]

/-- A message which was received is accepted, or refused. -/
lemma Accounted.verdict {key : K} {m : M} (hw : Accounted h w)
    (hm : envelopes h key w.trace = (w.routings key).map Prod.fst ++ [m]) (ok : Bool) (key' : K) :
    ((w.verdict key m ok).routings key').map Prod.fst <+: envelopes h key' w.trace := by
  by_cases hkey : key' = key
  · subst hkey
    rw [World.verdict_routings, Function.update_self, List.map_append, hm]
    exact List.prefix_rfl
  · rw [World.verdict_routings, Function.update_of_ne hkey]
    exact hw.received key'

/-- A step in which the host tells its entity of `key` something.  `more` is what was accepted
with it, and `rest` what it leaves in the buffer. -/
lemma Inv.send {key : K} {t : Told M} {w' : World K M} (more rest : List M)
    (hw : Inv kind h good w) (ha : Addresses h w key a)
    (hs : Step kind w.sys (.send a (item h t)) s')
    (hw' : Hosted kind h w') (hsys : w'.sys = s')
    (htrace : w'.trace = w.trace ++ [.send a (item h t)]) (hentity : w'.entity = w.entity)
    (hincarnations : w'.incarnations = w.incarnations)
    (haccepted : ∀ key', w'.accepted key' = w.accepted key' ++ if key' = key then more else [])
    (hreceived : good → ∀ key', (w'.routings key').map Prod.fst <+: envelopes h key' w.trace)
    (hbuffered : w'.buffered = Function.update w.buffered key rest)
    (hmore : w.buffered key ++ more = messages [t] ++ rest) (hgood : good → Behaved h w') :
    Inv kind h good w' where
  toHosted := hw'
  last := fun b before after hsplit => by
    rw [htrace] at hsplit
    exact hw.last_send ha t b before after hsplit
  behaved := hgood
  accounted := fun hg => by
    refine ⟨fun b key' hb => ?_, fun key' => ?_, fun key' => ?_⟩
    · rw [hentity] at hb
      rw [htrace, hsys]
      exact hw.mailbox_act hg hs hb
    · rw [htrace, hincarnations, hw.flatMap_send ha t key', haccepted, hbuffered,
        (hw.accounted hg).accepted key']
      by_cases hkey : key' = key
      · subst hkey
        rw [Function.update_self, if_pos rfl, if_pos rfl, List.append_assoc, List.append_assoc,
          hmore]
      · rw [Function.update_of_ne hkey, if_neg hkey, if_neg hkey, List.append_nil, List.append_nil]
    · rw [htrace, envelopes_append]
      exact (hreceived hg key').trans (List.prefix_append ..)

/-- An entity after a spawn is the new one, or was there before. -/
lemma World.host_cases {key key' : K} {c : ActorId}
    (ha : ((w.act l s').host c key).entity a = some key') :
    a = c ∧ key' = key ∨ a ≠ c ∧ w.entity a = some key' := by
  by_cases hac : a = c
  · subst hac
    exact .inl ⟨rfl, by simpa using ha.symm⟩
  · exact .inr ⟨hac, by simpa [Function.update_of_ne hac] using ha⟩

/-- An entity is spawned, all earlier ones of its key being closed. -/
lemma Hosted.spawn {key : K} {c : ActorId} (hw : Hosted kind h w)
    (hs : Step kind w.sys (.spawn h c) s')
    (hpast : ∀ a, w.entity a = some key → (w.sys.phase a).closed = true) :
    Hosted kind h ((w.act (.spawn h c) s').host c key) := by
  obtain ⟨hc, hstart, hparent⟩ := hs.spawned
  have hact := hw.act hs
  have hnew : ∀ key, c ∉ w.incarnations key := fun key hmem => by
    have hentity := (hw.listed c key).mpr hmem
    rw [hw.entity_unborn hc] at hentity
    cases hentity
  refine ⟨hact.run, fun a key' ha => ?_, fun a key' ha => ?_, fun a key' => ?_, fun key' => ?_,
    fun key' before a hsplit b hb => ?_, hw.clock⟩
  · rcases World.host_cases ha with ⟨rfl, -⟩ | ⟨-, ha⟩
    · show s'.phase a ≠ _
      rw [hstart]
      exact Phase.start_ne_unborn _
    · exact hact.born a key' ha
  · rcases World.host_cases ha with ⟨rfl, -⟩ | ⟨-, ha⟩
    · exact hparent
    · exact hact.child a key' ha
  · by_cases hac : a = c
    · subst hac
      by_cases hkey : key' = key
      · simp [hkey]
      · have hkey' : key ≠ key' := fun h => hkey h.symm
        simp [hkey', hnew, Function.update_of_ne hkey]
    · by_cases hkey : key' = key
      · simp [hkey, hac, hw.listed]
      · simp [hac, hw.listed, Function.update_of_ne hkey]
  · by_cases hkey : key' = key
    · subst hkey
      rw [World.host_incarnations, Function.update_self]
      refine List.nodup_append.mpr ⟨hw.nodup key', List.nodup_singleton c, fun a ha b hb hab => ?_⟩
      rw [List.mem_singleton] at hb
      subst hb hab
      exact hnew key' ha
    · simpa [Function.update_of_ne hkey] using hw.nodup key'
  · by_cases hkey : key' = key
    · subst hkey
      simp only [World.host_incarnations, World.act_incarnations, Function.update_self] at hsplit
      obtain ⟨rfl, -⟩ := List.append_inj' hsplit rfl
      exact hs.closed (hpast b ((hw.listed b key').mpr hb))
    · simp only [World.host_incarnations, World.act_incarnations,
        Function.update_of_ne hkey] at hsplit
      exact hact.past key' before a hsplit b hb

/-- A new entity has been told nothing, and has processed nothing. -/
lemma Inv.spawn {key : K} {c : ActorId} (hw : Inv kind h good w)
    (hs : Step kind w.sys (.spawn h c) s')
    (hpast : ∀ a, w.entity a = some key → (w.sys.phase a).closed = true)
    (hgood : good → Behaved h ((w.act (.spawn h c) s').host c key)) :
    Inv kind h good ((w.act (.spawn h c) s').host c key) := by
  obtain ⟨hc, hstart, -⟩ := hs.spawned
  have hsame : ∀ a, told h a (w.trace ++ [.spawn h c]) = told h a w.trace := fun a => by
    rw [told_append]
    exact List.append_nil _
  refine ⟨hw.toHosted.spawn hs hpast, fun a before after hsplit => ?_, hgood,
    fun hg => ⟨fun a key' ha => ?_, fun key' => ?_, fun key' => ?_⟩⟩
  · rw [World.host_trace, World.act_trace, hsame] at hsplit
    exact hw.last a before after hsplit
  · rcases World.host_cases ha with ⟨rfl, -⟩ | ⟨-, ha⟩
    · have hact := hw.toHosted.act hs
      have hfifo := Runs.fifo hact.run a (.inl (by rw [World.act_sys, hstart, Phase.live_start]))
      rw [World.host_trace, World.host_sys, heard_eq, waiting, ← List.filterMap_append, told, hfifo]
    · exact hw.mailbox_act hg hs ha
  · have hold := (hw.accounted hg).accepted key'
    by_cases hkey : key' = key
    · subst hkey
      have htold : told h c w.trace = [] := by
        rw [told, Runs.sends_unborn hw.run hc]
        rfl
      simp [hsame, htold, hold, messages]
    · simp [hsame, hold, Function.update_of_ne hkey]
  · rw [World.host_trace, World.act_trace, envelopes_append]
    exact ((hw.accounted hg).received key').trans (List.prefix_append ..)

/-! ### The contract -/

/-- What a host owes before a call. -/
def Owes (config : HostConfig) (held : State K M → World K M → Prop) (h : ActorId) (good : Prop)
    (w : World K M) : Op K M → Prop
  | .spawn key => ∀ a, w.entity a = some key → (w.sys.phase a).closed = true
  | .tell key a m => (Addresses h w key a ∧ w.buffered key = []) ∧ Pending good h w key m
  | .buffer key m => Pending good h w key m
  | .refuse key m => Pending good h w key m
  | .tryTellForced key a m => Addresses h w key a ∧ ∃ rest, w.buffered key = m :: rest
  | .passivate a => ∃ key, Addresses h w key a ∧ ∀ idleTimeout,
      config.idleTimeout = some idleTimeout → ∀ t ∈ w.routed key, t + idleTimeout ≤ w.clock
  | .nextIncoming state => held state w
  | _ => True

/-- **One call of the host** keeps the invariant. -/
lemma exec_keeps {config : HostConfig} {held : State K M → World K M → Prop} {op : Op K M}
    {x : op.Ans} {w' : World K M} (hw : Inv kind h good w) (hpre : Owes config held h good w op)
    (hx : Exec kind h w op x w') (hgood : good → Behaved h w') : Inv kind h good w' := by
  cases hx with
  | spawn hs => exact hw.spawn hs hpre hgood
  | @tell key a m s' hs =>
      obtain ⟨⟨ha, hempty⟩, hm⟩ := hpre
      have hact := hw.toHosted.act hs
      refine hw.send [m] [] ha hs (hact.of_eq rfl rfl rfl rfl (hact.clock_route key)) rfl rfl rfl
        rfl (fun key' => ?_) (fun hg => (hw.accounted hg).verdict (hm hg) true) ?_ ?_ hgood
      · rw [World.accepted_verdict, if_pos rfl]
        rfl
      · rw [← hempty, Function.update_eq_self]
        rfl
      · rw [hempty]
        rfl
  | @tellFull key a m ha =>
      refine hw.of_eq rfl rfl rfl rfl (hw.clock_route _) hgood (fun hg key' => ?_)
        fun hg => (hw.accounted hg).verdict (hpre.2 hg) false
      rw [World.accepted_verdict, if_neg Bool.false_ne_true, ite_self, List.append_nil]
      exact (hw.accounted hg).accepted key'
  | tellTerminated ha =>
      -- the mailbox of an entity which has not been asked to stop is there
      refine hw.of_eq rfl rfl rfl rfl (hw.clock_route _) hgood (fun hg => ?_)
        fun hg => (hw.accounted hg).verdict (hpre.2 hg) true
      rw [hw.connected hg hpre.1.1] at ha
      cases ha
  | @tellForced key a m s' hs =>
      obtain ⟨ha, rest, hrest⟩ := hpre
      refine hw.send [] rest ha hs ((hw.toHosted.act hs).of_eq rfl rfl rfl rfl hw.clock) rfl rfl
        rfl rfl (fun key' => ?_) (fun hg => (hw.accounted hg).received) ?_ ?_ hgood
      · rw [ite_self, List.append_nil]
        rfl
      · show Function.update w.buffered key (w.buffered key).tail = _
        rw [hrest]
        rfl
      · rw [hrest, List.append_nil]
        rfl
  | tellForcedTerminated ha =>
      refine hw.of_eq rfl rfl rfl rfl hw.clock hgood (fun hg => ?_)
        fun hg => (hw.accounted hg).received
      rw [hw.connected hg hpre.1] at ha
      cases ha
  | @passivate a s' hs =>
      obtain ⟨key, ha, -⟩ := hpre
      refine hw.send [] (w.buffered key) ha hs (hw.toHosted.act hs) rfl rfl rfl rfl
        (fun key' => ?_) (fun hg => (hw.accounted hg).received) ?_ ?_ hgood
      · rw [ite_self, List.append_nil]
        rfl
      · rw [Function.update_eq_self]
        rfl
      · rw [List.append_nil]
        rfl
  | @buffer key m =>
      refine hw.of_eq rfl rfl rfl rfl hw.clock hgood (fun hg key' => ?_)
        fun hg => (hw.accounted hg).verdict (hpre hg) true
      have hold := (hw.accounted hg).accepted key'
      rw [World.accepted_setBuffered, World.accepted_verdict, if_pos rfl, hold, List.append_assoc]
      by_cases hkey : key' = key
      · subst hkey
        simp
      · simp [hkey]
  | refuse =>
      refine hw.of_eq rfl rfl rfl rfl hw.clock hgood (fun hg key' => ?_)
        fun hg => (hw.accounted hg).verdict (hpre hg) false
      rw [World.accepted_verdict, if_neg Bool.false_ne_true, ite_self, List.append_nil]
      exact (hw.accounted hg).accepted key'
  | nextMessage hs =>
      have hact := hw.act hs (fun _ => rfl) fun hg => ⟨(hgood hg).entities, (hgood hg).host⟩
      exact hact.of_eq rfl rfl rfl rfl (hact.clock_route _) hgood
        (fun hg => (hact.accounted hg).accepted) fun hg => (hact.accounted hg).received
  | fails hs hfail =>
      have hact := hw.act hs (fun _ => rfl) fun hg => ⟨(hgood hg).entities, (hgood hg).host⟩
      refine hact.of_eq rfl rfl rfl rfl hw.clock hgood (fun hg => ?_)
        fun hg => (hact.accounted hg).received
      have hup : retired (_ : Phase (Payload K M)) = false := (hgood hg).host
      rw [World.act_sys, hfail] at hup
      cases hup
  | spawnTicker hs => exact hw.act hs (fun _ => rfl) hgood
  | watch hs => exact hw.act hs (fun _ => rfl) hgood
  | nextTerminated hs => exact hw.act hs (fun _ => rfl) hgood
  | returned hs => exact hw.act hs (fun _ => rfl) hgood
  | restart hs => exact hw.act hs (fun _ => rfl) hgood
  | _ => exact hw

/-- **Whatever happens besides** keeps the invariant, and what the host relies on. -/
lemma env_keeps {w' : World K M} (hw : Inv kind h good w) (he : Env kind h w w')
    (hgood : good → Behaved h w') : Inv kind h good w' ∧ Rely h w w' := by
  cases he with
  | step hs hl =>
      have hnil := fun a => told_of_not_ofHost hl a
      refine ⟨hw.act hs hnil hgood, .silent hs hnil, rfl, rfl, fun key => ?_, rfl, le_refl _⟩
      rw [World.act_trace, envelopes_append, envelopes_of_not_ofHost hl, List.append_nil]
  | tick =>
      refine ⟨hw.of_eq rfl rfl rfl rfl (fun key t ht => ?_) hgood
        (fun hg => (hw.accounted hg).accepted) fun hg => (hw.accounted hg).received,
        .of_eq rfl rfl rfl rfl, rfl, rfl, fun _ => rfl, rfl, Nat.le_succ _⟩
      exact (hw.clock key t ht).trans (Nat.le_succ _)

/-- The contract of a host with everybody else. -/
def contract (config : HostConfig) (held : State K M → World K M → Prop) (kind : ActorId → Kind)
    (h : ActorId) (good : Prop) : Contract Unit (Op K M) Op.Ans (World K M) where
  exec := fun _ w op x w' => Exec kind h w op x w' ∧ (good → Behaved h w')
  pre := fun _ => Owes config held h good
  inv := Inv kind h good
  rely := fun _ => Rely h
  rely_refl := fun _ w => .refl h w
  rely_trans := fun _ _ _ _ hr hr' => hr.trans hr'

end Keeping

end Tellus.Host
