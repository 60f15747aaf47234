import Mathlib.Tactic
import Tellus.Host.World

/-!
The callbacks of a host keep its contract with the world.

`Owned` ties the state of a host to the actors: every actor spawned for a key is closed, or is the
one the entry of its key refers to.  So there is no other actor of a key when the host spawns one,
and none of them is addressed after it has been asked to stop.

* `route_safe`, `passivateIdle_safe`, `terminated_safe`: the methods, each from state to state.
* `code_safe`: the blocks of the run loop, assembled from these.
* `reached_good`: the contract is kept in every run.
-/

namespace Tellus.Host

open Concurrent

variable {K M : Type}

/-! ### The state of a host and its actors -/

/-- Every actor spawned for a key is closed, or is the one the host has for it. -/
structure Owned (h : ActorId) (state : State K M) (w : World K M) : Prop where
  entry : ∀ key e, state.entries key = some e → state.keys e.actor = some key ∧
    w.entity e.actor = some key ∧ (w.incarnations key).getLast? = some e.actor
  key : ∀ a key, state.keys a = some key → ∃ e, state.entries key = some e ∧ e.actor = a
  owner : ∀ a key, w.entity a = some key → (w.sys.phase a).closed = true ∨
    ∃ e, state.entries key = some e ∧ e.actor = a
  ticker : ∀ a, state.ticker = some a → w.entity a = none ∧ w.sys.phase a ≠ .unborn
  live : ∀ key a t, state.entries key = some (.live a t) → .passivate ∉ told h a w.trace

/-- No live entity was messaged after the time its entry says, except for the key being routed. -/
def Timed (skip : Option K) (state : State K M) (w : World K M) : Prop :=
  ∀ key a lastMessage, state.entries key = some (.live a lastMessage) → some key ≠ skip →
    ∀ t ∈ w.routed key, t ≤ lastMessage

/-- The messages received for a key have all been routed, except for those of `flying`. -/
def Received [DecidableEq K] (h : ActorId) (flying : K → List M) (w : World K M) : Prop :=
  ∀ key, envelopes h key w.trace = (w.routings key).map Prod.fst ++ flying key

/-- Nothing is left to be routed. -/
def nothing : K → List M := fun _ => []

/-- What holds inside of a callback: the buffers are `buffered`, the times of `skip` are not known,
and `flying` is being routed. -/
structure Mid [DecidableEq K] (h : ActorId) (good : Prop) (state : State K M)
    (buffered : K → List M) (skip : Option K) (flying : K → List M) (w : World K M) : Prop where
  owned : Owned h state w
  buffered : w.buffered = buffered
  timed : Timed skip state w
  received : good → Received h flying w

/-- What holds between two callbacks. -/
def Held [DecidableEq K] (h : ActorId) (good : Prop) (state : State K M) (w : World K M) : Prop :=
  Mid h good state state.buffered none nothing w

section Owned

variable {h : ActorId} {state : State K M} {w w' : World K M} {key : K} {a : ActorId}
  {buffered : K → List M} {skip : Option K} {flying flying' : K → List M} {good : Prop}

lemma Owned.frame (ho : Owned h state w) (hf : Frame h w w') : Owned h state w' where
  entry := by rw [hf.entity, hf.incarnations]; exact ho.entry
  key := ho.key
  owner := fun a key ha => by
    rw [hf.entity] at ha
    exact (ho.owner a key ha).imp_left (hf.closed a)
  ticker := fun a ha => by
    rw [hf.entity]
    exact (ho.ticker a ha).imp_right (hf.born a)
  live := fun key a t he ht => ho.live key a t he (hf.passivated a ht)


/-- A live entity can be told something. -/
lemma Owned.addresses {t : ℕ} (ho : Owned h state w) (he : state.entries key = some (.live a t)) :
    Addresses h w key a :=
  ⟨(ho.entry key _ he).2.1, (ho.entry key _ he).2.2, ho.live key a t he⟩

/-- All actors of a key without an entry are closed. -/
lemma Owned.closed (ho : Owned h state w) (he : state.entries key = none)
    (ha : w.entity a = some key) : (w.sys.phase a).closed = true := by
  refine (ho.owner a key ha).resolve_right fun ⟨e, he', _⟩ => ?_
  rw [he] at he'
  cases he'

lemma State.buffered_of_entry {e : Entry M} (he : state.entries key = some e) :
    state.buffered key = e.buffered := by
  simp [State.buffered, he]

/-- There is nothing to say about the times of an entity which is not live. -/
lemma Timed.unskip {e : Entry M} (ht : Timed (some key) state w) (he : state.entries key = some e)
    (hstopping : ∀ a t, e ≠ .live a t) : Timed none state w := by
  intro key' a t hlive _
  refine ht key' a t hlive fun hkey => ?_
  obtain rfl := Option.some.inj hkey
  rw [he] at hlive
  exact hstopping a t (Option.some.inj hlive)

variable [DecidableEq K]

/-- A step of the system of actors in which the host is handed nothing. -/
lemma Received.act {kind : ActorId → Kind} {l : Label (Payload K M)} {s' : Sys (Payload K M)}
    (hr : Received h flying w) (_ : Step kind w.sys l s') (hl : ∀ key, envelopes h key [l] = []) :
    Received h flying (w.act l s') := by
  intro key
  rw [World.act_trace, envelopes_append, hl, List.append_nil]
  exact hr key

/-- The message being routed is accepted, or refused. -/
lemma Received.verdict {m : M} (hr : Received h (Function.update nothing key [m]) w) (ok : Bool) :
    Received h nothing (w.verdict key m ok) := by
  intro key'
  have hkey' := hr key'
  by_cases hkey : key' = key
  · subst hkey
    rw [Function.update_self] at hkey'
    simp [hkey', nothing]
  · rw [Function.update_of_ne hkey] at hkey'
    simp [hkey', Function.update_of_ne hkey, nothing]

lemma Mid.frame (hm : Mid h good state buffered skip flying w) (hf : Frame h w w')
    (hbuffered : w'.buffered = w.buffered)
    (hrouted : ∀ key, some key ≠ skip → w'.routed key = w.routed key)
    (hreceived : Received h flying w → Received h flying' w') :
    Mid h good state buffered skip flying' w' where
  owned := hm.owned.frame hf
  buffered := hbuffered.trans hm.buffered
  timed := fun key a t he hskip => by rw [hrouted key hskip]; exact hm.timed key a t he hskip
  received := fun hg => hreceived (hm.received hg)

/-- A step of the system of actors which is not about keys. -/
lemma Mid.silent {kind : ActorId → Kind} {l : Label (Payload K M)} {s' : Sys (Payload K M)}
    (hm : Mid h good state buffered skip flying w) (hs : Step kind w.sys l s')
    (hl : ∀ a, told h a [l] = []) (hl' : ∀ key, envelopes h key [l] = []) :
    Mid h good state buffered skip flying (w.act l s') :=
  hm.frame (.silent hs hl) rfl (fun _ _ => rfl) fun hr => hr.act hs hl'

/-- An entry after an insertion is the new one, or was there before. -/
lemma State.insert_cases {e e' : Entry M} {key' : K}
    (he : (state.insert key e).entries key' = some e') :
    key' = key ∧ e' = e ∨ key' ≠ key ∧ state.entries key' = some e' := by
  by_cases hkey : key' = key
  · subst hkey
    exact .inl ⟨rfl, by simpa using he.symm⟩
  · exact .inr ⟨hkey, by simpa [Function.update_of_ne hkey] using he⟩

/-- An entry after a removal was there before, under another key. -/
lemma State.of_remove {e : Entry M} {key' : K} (he : (state.remove key).entries key' = some e) :
    key' ≠ key ∧ state.entries key' = some e := by
  have hkey : key' ≠ key := by
    rintro rfl
    simp at he
  exact ⟨hkey, by simpa [Function.update_of_ne hkey] using he⟩

lemma State.insert_insert (state : State K M) (key : K) (e e' : Entry M) :
    (state.insert key e).insert key e' = state.insert key e' := by
  simp [State.insert]

lemma State.buffered_insert (state : State K M) (key : K) (e : Entry M) :
    (state.insert key e).buffered = Function.update state.buffered key e.buffered := by
  funext key'
  by_cases hkey : key' = key
  · subst hkey
    simp [State.buffered]
  · simp [State.buffered, Function.update_of_ne hkey]

omit [DecidableEq K] in
@[simp] lemma State.buffered_forget (state : State K M) (a : ActorId) :
    (state.forget a).buffered = state.buffered := rfl

lemma State.buffered_remove (state : State K M) (key : K) :
    (state.remove key).buffered = Function.update state.buffered key [] := by
  funext key'
  by_cases hkey : key' = key
  · subst hkey
    simp [State.buffered]
  · simp [State.buffered, Function.update_of_ne hkey]

/-- What is known of an entity changes, but not which one it is. -/
lemma Owned.insert {e e' : Entry M} (ho : Owned h state w) (he : state.entries key = some e)
    (hactor : e'.actor = e.actor)
    (hlive : ∀ a t, e' = .live a t → .passivate ∉ told h a w.trace) :
    Owned h (state.insert key e') w := by
  have hkept : ∀ a key', (∃ e'', state.entries key' = some e'' ∧ e''.actor = a) →
      ∃ e'', (state.insert key e').entries key' = some e'' ∧ e''.actor = a := by
    rintro a key' ⟨e'', he', ha⟩
    by_cases hkey : key' = key
    · subst hkey
      obtain rfl : e = e'' := by simpa [he] using he'
      exact ⟨e', by simp, hactor.trans ha⟩
    · exact ⟨e'', by simpa [Function.update_of_ne hkey] using he', ha⟩
  refine ⟨fun key' e'' he' => ?_, fun a key' ha => hkept a key' (ho.key a key' ha),
    fun a key' ha => (ho.owner a key' ha).imp_right (hkept a key'), ho.ticker,
    fun key' a t he' => ?_⟩
  · rcases State.insert_cases he' with ⟨rfl, rfl⟩ | ⟨-, he'⟩
    · rw [hactor]
      exact ho.entry key' e he
    · exact ho.entry key' e'' he'
  · rcases State.insert_cases he' with ⟨-, hnew⟩ | ⟨-, he'⟩
    · exact hlive a t hnew.symm
    · exact ho.live key' a t he'

/-- The entity which has gone is forgotten. -/
lemma Owned.remove (ho : Owned h state w) (hkey : state.keys a = some key)
    (hclosed : (w.sys.phase a).closed = true) : Owned h ((state.forget a).remove key) w := by
  obtain ⟨e, he, hactor⟩ := ho.key a key hkey
  refine ⟨fun key' e' he' => ?_, fun b key' hb => ?_, fun b key' hb => ?_, ho.ticker,
    fun key' b t he' => ?_⟩
  · obtain ⟨hne, he'⟩ := State.of_remove he'
    obtain ⟨hkeys, hentity, hlast⟩ := ho.entry key' e' he'
    refine ⟨?_, hentity, hlast⟩
    have hea : e'.actor ≠ a := fun hea => by
      rw [hea, hkey] at hkeys
      exact hne (Option.some.inj hkeys).symm
    simpa [Function.update_of_ne hea] using hkeys
  · have hba : b ≠ a := by
      rintro rfl
      simp at hb
    have hb : state.keys b = some key' := by simpa [Function.update_of_ne hba] using hb
    obtain ⟨e', he', hb'⟩ := ho.key b key' hb
    have hne : key' ≠ key := by
      rintro rfl
      rw [he] at he'
      obtain rfl := Option.some.inj he'
      exact hba (hb'.symm.trans hactor)
    exact ⟨e', by simpa [Function.update_of_ne hne] using he', hb'⟩
  · rcases ho.owner b key' hb with hc | ⟨e', he', hb'⟩
    · exact .inl hc
    · by_cases hne : key' = key
      · subst hne
        rw [he] at he'
        obtain rfl := Option.some.inj he'
        exact .inl (by rw [← hb', hactor]; exact hclosed)
      · exact .inr ⟨e', by simpa [Function.update_of_ne hne] using he', hb'⟩
  · exact ho.live key' b t (State.of_remove he').2

lemma Timed.insert {e : Entry M} (ht : Timed skip state w) (hskip : skip = none ∨ skip = some key)
    (hstopping : ∀ a t, e ≠ .live a t) : Timed none (state.insert key e) w := by
  intro key' a t hlive _
  rcases State.insert_cases hlive with ⟨-, hnew⟩ | ⟨hkey, hlive⟩
  · exact absurd hnew.symm (hstopping a t)
  · refine ht key' a t hlive ?_
    rcases hskip with rfl | rfl
    · exact nofun
    · exact fun h => hkey (Option.some.inj h)

lemma Timed.remove (ht : Timed skip state w) : Timed skip (state.remove key) w := by
  intro key' a t hlive hskip
  exact ht key' a t (State.of_remove hlive).2 hskip

/-- A new entity takes the place left for its key. -/
lemma Owned.spawn {kind : ActorId → Kind} {c : ActorId} {s' : Sys (Payload K M)}
    (ho : Owned h state w) (hw : Hosted kind h w) (hs : Step kind w.sys (.spawn h c) s')
    (hnone : state.entries key = none) (t : ℕ) :
    Owned h ((state.remember c key).insert key (.live c t))
      ((w.act (.spawn h c) s').host c key) := by
  have hc : w.sys.phase c = .unborn := hs.spawned.1
  have hentity : w.entity c = none := hw.entity_unborn hc
  have htold : ∀ a, told h a (w.trace ++ [.spawn h c]) = told h a w.trace := fun a => by
    rw [told_append]
    exact List.append_nil _
  have hunused : ∀ e key', state.entries key' = some e → e.actor ≠ c := fun e key' he hec => by
    have := (ho.entry key' e he).2.1
    rw [hec, hentity] at this
    cases this
  refine ⟨fun key' e he => ?_, fun a key' ha => ?_, fun a key' ha => ?_, fun a ha => ?_,
    fun key' a t' he => ?_⟩
  · rcases State.insert_cases he with ⟨rfl, rfl⟩ | ⟨hkey, he⟩
    · simp [Entry.actor]
    · have hec := hunused e key' he
      simpa [Function.update_of_ne hkey, Function.update_of_ne hec] using ho.entry key' e he
  · by_cases hac : a = c
    · subst hac
      obtain rfl : key = key' := by simpa using ha
      exact ⟨.live a t, by simp, rfl⟩
    · obtain ⟨e, he, hea⟩ := ho.key a key' (by simpa [Function.update_of_ne hac] using ha)
      have hkey : key' ≠ key := by
        rintro rfl
        rw [hnone] at he
        cases he
      exact ⟨e, by simpa [Function.update_of_ne hkey] using he, hea⟩
  · by_cases hac : a = c
    · subst hac
      obtain rfl : key = key' := by simpa using ha
      exact .inr ⟨.live a t, by simp, rfl⟩
    · have ha : w.entity a = some key' := by simpa [Function.update_of_ne hac] using ha
      rcases ho.owner a key' ha with hclosed | ⟨e, he, hea⟩
      · exact .inl (hs.closed hclosed)
      · have hkey : key' ≠ key := by
          rintro rfl
          rw [hnone] at he
          cases he
        exact .inr ⟨e, by simpa [Function.update_of_ne hkey] using he, hea⟩
  · obtain ⟨hnot, hborn⟩ := ho.ticker a ha
    have hac : a ≠ c := fun hac => hborn (hac ▸ hc)
    exact ⟨by simpa [Function.update_of_ne hac] using hnot, hs.born hborn⟩
  · rw [World.host_trace, World.act_trace, htold]
    rcases State.insert_cases he with ⟨-, hnew⟩ | ⟨-, he⟩
    · obtain ⟨rfl, -⟩ := Entry.live.inj hnew
      rw [told, Runs.sends_unborn hw.run hc]
      simp
    · exact ho.live key' a t' he

end Owned

/-! ### Calls -/

section Calls

variable [DecidableEq K] {config : HostConfig} {kind : ActorId → Kind} {h : ActorId} {good : Prop}
  {state : State K M} {w : World K M} {key : K} {a : ActorId} {buffered : K → List M}
  {skip : Option K} {flying : K → List M} {α : Type} {post : World K M → α → Prop}

/-- The contract of a host, with what it holds between two callbacks. -/
abbrev hosting (config : HostConfig) (kind : ActorId → Kind) (h : ActorId) (good : Prop) :
    Contract Unit (Op K M) Op.Ans (World K M) :=
  contract config (Held h good) kind h good

/-- A callback returns a state which may be held. -/
abbrev Returns (config : HostConfig) (kind : ActorId → Kind) (h : ActorId) (good : Prop)
    (callback : Task K M (State K M)) (w : World K M) : Prop :=
  Safe (hosting config kind h good) () (fun w state => Held h good state w) callback w

lemma stable_true : Stable (hosting (K := K) (M := M) config kind h good) () fun _ => True :=
  fun _ _ _ _ _ => trivial

lemma stable_mid : Stable (hosting config kind h good) () (Mid h good state buffered skip flying) :=
  fun w w' hm hr _ => by
    refine hm.frame hr.toFrame hr.buffered (fun key _ => by rw [hr.routed]) fun hreceived key => ?_
    rw [hr.envelopes, hr.routings]
    exact hreceived key

/-- A call, from a stable assertion. -/
lemma safe_call (op : Op K M) {P : World K M → Prop}
    (hP : Stable (hosting config kind h good) () P) (hs : P w) {f : op.Ans → Task K M α}
    (hf : ∀ w, Inv kind h good w → P w → Owes config (Held h good) h good w op ∧
      ∀ x w', Exec kind h w op x w' → Inv kind h good w' →
        Safe (hosting config kind h good) () post (f x) w') :
    Safe (hosting config kind h good) () post ((ask op).bind f) w :=
  Safe.call_of hP hs fun w hw hPw =>
    ⟨(hf w hw hPw).1, fun x w' hx hw' => (hf w hw hPw).2 x w' hx.1 hw'⟩

/-- The current instant ends the routing of a message to a live entity. -/
lemma now_safe {t : ℕ} (he : state.entries key = some (.live a t))
    (hm : Mid h good state state.buffered (some key) nothing w) :
    Returns config kind h good
      ((ask .now).bind fun now => .ret (state.insert key (.live a now))) w := by
  refine safe_call .now stable_mid hm fun w hw hm => ⟨trivial, fun x w' hx _ => ?_⟩
  cases hx with
  | now =>
      have hheld : Held h good (state.insert key (.live a w.clock)) w := by
        refine ⟨hm.owned.insert he rfl fun b t' hb => ?_, ?_, fun key' b t' hb _ r hr => ?_,
          hm.received⟩
        · cases hb
          exact hm.owned.live key a t he
        · rw [hm.buffered, State.buffered_insert]
          exact (Function.update_eq_self_iff.mpr (State.buffered_of_entry he).symm).symm
        · rcases State.insert_cases hb with ⟨-, hnew⟩ | ⟨hkey, hb⟩
          · obtain ⟨-, rfl⟩ := Entry.live.inj hnew
            exact hw.clock key' r hr
          · exact hm.timed key' b t' hb (by simpa using hkey) r hr
      exact Safe.ret_of stable_mid hheld fun _ _ h => h

lemma Mid.pending {m : M}
    (hm : Mid h good state buffered skip (Function.update nothing key [m]) w) :
    Pending good h w key m := by
  intro hg
  rw [hm.received hg key, Function.update_self]

/-- A message is told to a live entity. -/
lemma tell_safe {t : ℕ} {m : M} (he : state.entries key = some (.live a t))
    (hm : Mid h good state state.buffered (some key) (Function.update nothing key [m]) w) :
    Returns config kind h good
      ((ask (.tell key a m)).bind fun _ =>
        (ask .now).bind fun now => .ret (state.insert key (.live a now))) w := by
  refine safe_call (.tell key a m) stable_mid hm fun w hw hm =>
    ⟨⟨⟨hm.owned.addresses he, ?_⟩, hm.pending⟩, fun x w' hx _ => now_safe he ?_⟩
  · rw [hm.buffered, State.buffered_of_entry he]
    rfl
  · have hrouted : ∀ key', some key' ≠ some key → (w.route key).routed key' = w.routed key' :=
      fun key' hkey => Function.update_of_ne (fun h => hkey (by rw [h])) ..
    cases hx with
    | tell hs =>
        have hf : Frame h w (w.act (.send a (item h (.message m))) _) :=
          .act hs fun b => by rw [told_send]; split <;> simp
        exact hm.frame (hf.trans (.of_eq rfl rfl rfl rfl)) rfl hrouted
          fun hr => (hr.act hs fun _ => rfl).verdict true
    | tellFull => exact hm.frame (.of_eq rfl rfl rfl rfl) rfl hrouted fun hr => hr.verdict false
    | tellTerminated =>
        exact hm.frame (.of_eq rfl rfl rfl rfl) rfl hrouted fun hr => hr.verdict true

/-- The buffers after a live entity has taken the place left for its key. -/
lemma State.buffered_spawned {c : ActorId} {t : ℕ} (hnone : state.entries key = none) :
    ((state.remember c key).insert key (.live c t)).buffered = state.buffered := by
  rw [State.buffered_insert]
  refine Function.update_eq_self_iff.mpr ?_
  simp [State.buffered, hnone, Entry.buffered]

/-- Spawning an entity, its key having no entry. -/
lemma spawnEntity_safe (hnone : state.entries key = none)
    (hm : Mid h good state buffered (some key) flying w) :
    Safe (hosting config kind h good) ()
      (fun w c =>
        Mid h good ((state.remember c key).insert key (.live c 0)) buffered (some key) flying w)
      (spawnEntity key) w := by
  refine safe_call (.spawn key) stable_mid hm fun w hw hm =>
    ⟨fun a ha => hm.owned.closed hnone ha, fun c w' hx _ => ?_⟩
  cases hx with
  | @spawn _ _ s' hs =>
      have hm : Mid h good ((state.remember c key).insert key (.live c 0)) buffered (some key)
          flying ((w.act (.spawn h c) s').host c key) := by
        refine ⟨hm.owned.spawn hw.toHosted hs hnone 0, hm.buffered, fun key' b t hb hskip => ?_,
          fun hg => (hm.received hg).act hs fun _ => rfl⟩
        rcases State.insert_cases hb with ⟨rfl, -⟩ | ⟨-, hb⟩
        · exact absurd rfl hskip
        · exact hm.timed key' b t hb hskip
      refine safe_call (.watch c) stable_mid hm fun w hw hm => ⟨trivial, fun _ w' hx _ => ?_⟩
      cases hx with
      | watch hs =>
          have hm := hm.silent hs (fun _ => rfl) fun _ => rfl
          exact Safe.ret_of stable_mid hm fun _ _ hm => hm

/-- An entity has been asked to stop. -/
lemma Held.passivate {t : ℕ} {s' : Sys (Payload K M)} (hm : Held h good state w)
    (he : state.entries key = some (.live a t))
    (hs : Step kind w.sys (.send a (item h .passivate)) s') :
    Held h good (state.insert key (.stopping a [])) (w.act (.send a (item h .passivate)) s') := by
  have ho : Owned h (state.insert key (.stopping a [])) w :=
    hm.owned.insert he rfl fun b t hb => (by cases hb)
  have hentity := (hm.owned.addresses he).entity
  refine ⟨⟨ho.entry, ho.key, fun b key' hb => (ho.owner b key' hb).imp_left hs.closed,
    fun b hb => (ho.ticker b hb).imp_right hs.born, fun key' b t' hlive => ?_⟩, ?_, ?_,
    fun hg => (hm.received hg).act hs fun _ => rfl⟩
  · have hba : b ≠ a := by
      rintro rfl
      have hb := (ho.entry key' _ hlive).2.1
      obtain rfl : key = key' := Option.some.inj (hentity.symm.trans hb)
      simp at hlive
    rw [World.act_trace, told_append, told_send, if_neg fun hab => hba hab.symm, List.append_nil]
    exact ho.live key' b t' hlive
  · show w.buffered = _
    rw [hm.buffered, State.buffered_insert]
    exact (Function.update_eq_self_iff.mpr (State.buffered_of_entry he).symm).symm
  · exact hm.timed.insert (.inl rfl) nofun

/-! ### Methods -/

/-- Routing an envelope. -/
lemma route_safe {m : M}
    (hm : Mid h good state state.buffered (some key) (Function.update nothing key [m]) w) :
    Returns config kind h good (route config state key m) w := by
  rw [route]
  split
  · rename_i a t he
    exact tell_safe he hm
  · rename_i a ms he
    split
    · refine safe_call (.buffer key m) stable_mid hm fun w hw hm =>
        ⟨hm.pending, fun x w' hx _ => ?_⟩
      cases hx with
      | buffer =>
          have hheld : Held h good (state.insert key (.stopping a (ms ++ [m])))
              ((w.verdict key m true).setBuffered key (w.buffered key ++ [m])) := by
            have ho : Owned h state
                ((w.verdict key m true).setBuffered key (w.buffered key ++ [m])) :=
              hm.owned.frame (.of_eq rfl rfl rfl rfl)
            refine ⟨ho.insert he rfl fun b t hb => (by cases hb), ?_,
              hm.timed.insert (.inr rfl) nofun, fun hg => (hm.received hg).verdict true⟩
            show Function.update w.buffered key (w.buffered key ++ [m]) = _
            rw [State.buffered_insert, hm.buffered, State.buffered_of_entry he]
            rfl
          exact Safe.ret_of stable_mid hheld fun _ _ hheld => hheld
    · refine safe_call (.deadLetter a "host buffer full") stable_mid hm fun w hw hm =>
        ⟨trivial, fun x w' hx _ => ?_⟩
      cases hx with
      | deadLetter =>
          refine safe_call (.refuse key m) stable_mid hm fun w hw hm =>
            ⟨hm.pending, fun x w' hx _ => ?_⟩
          cases hx with
          | refuse =>
              have hheld : Held h good state (w.verdict key m false) :=
                ⟨hm.owned.frame (.of_eq rfl rfl rfl rfl), hm.buffered, hm.timed.unskip he nofun,
                  fun hg => (hm.received hg).verdict false⟩
              exact Safe.ret_of stable_mid hheld fun _ _ hheld => hheld
  · rename_i hnone
    refine Safe.bind (spawnEntity_safe hnone hm) fun w c hw hm => ?_
    rw [← State.buffered_spawned (c := c) (t := 0) hnone] at hm
    have htell : Returns config kind h good _ w :=
      tell_safe (m := m) (a := c) (t := 0) (by simp) hm
    simp only [State.insert_insert] at htell
    exact htell

/-- Sweeping over some keys. -/
lemma passivateEach_safe {idleTimeout : ℕ+} (htimeout : config.idleTimeout = some idleTimeout)
    (keys : List K) (hm : Held h good state w) :
    Returns config kind h good (passivateEach idleTimeout keys state) w := by
  induction keys generalizing state w with
  | nil => exact Safe.ret_of stable_mid hm fun _ _ hm => hm
  | cons key keys ih =>
      rw [passivateEach]
      split
      · rename_i a lastMessage he
        refine safe_call .now stable_mid hm fun w hw hm => ⟨trivial, fun now w' hx _ => ?_⟩
        cases hx with
        | now =>
            split
            · exact ih hm
            · rename_i hidle
              have hidle : ¬w.clock - lastMessage < idleTimeout := hidle
              have hstable : Stable (hosting config kind h good) () fun w' =>
                  Held h good state w' ∧ w.clock ≤ w'.clock :=
                stable_mid.and fun _ _ hle hr _ => hle.trans hr.clock
              refine safe_call (.passivate a) hstable ⟨hm, le_refl _⟩ fun w' hw' hm' =>
                ⟨⟨key, hm'.1.owned.addresses he, fun idleTimeout' htimeout' t ht => ?_⟩,
                  fun x w'' hx _ => ?_⟩
              · rw [htimeout] at htimeout'
                obtain rfl := Option.some.inj htimeout'
                have hlast := hm'.1.timed key a lastMessage he nofun t ht
                have hpos := idleTimeout.pos
                have hclock := hm'.2
                omega
              · cases hx with
                | passivateFull => exact ih hm'.1
                | passivateTerminated => exact ih hm'.1
                | passivate hs => exact ih (hm'.1.passivate he hs)
      · exact ih hm
      · exact ih hm

/-- A sweep. -/
lemma passivateIdle_safe (hm : Held h good state w) :
    Returns config kind h good (passivateIdle config state) w := by
  rw [passivateIdle]
  split
  · exact Safe.ret_of stable_mid hm fun _ _ hm => hm
  · rename_i idleTimeout htimeout
    refine safe_call (.order state.entries) stable_mid hm fun w hw hm =>
      ⟨trivial, fun keys w' hx _ => ?_⟩
    cases hx with
    | order => exact passivateEach_safe htimeout keys hm

/-- The next ticker is spawned. -/
lemma tickLater_safe (hm : Held h good state w) :
    Returns config kind h good (tickLater config state) w := by
  rw [tickLater]
  split
  · have hm : Held h good { state with ticker := none } w :=
      ⟨⟨hm.owned.entry, hm.owned.key, hm.owned.owner, nofun, hm.owned.live⟩, hm.buffered, hm.timed,
        hm.received⟩
    exact Safe.ret_of stable_mid hm fun _ _ hm => hm
  · refine safe_call .spawnTicker stable_mid hm fun w hw hm => ⟨trivial, fun c w' hx hw' => ?_⟩
    cases hx with
    | @spawnTicker _ s' hs =>
        have hm : Held h good state (w.act (.spawn h c) s') :=
          hm.silent hs (fun _ => rfl) fun _ => rfl
        have hm : Held h good { state with ticker := some c } (w.act (.spawn h c) s') := by
          refine ⟨⟨hm.owned.entry, hm.owned.key, hm.owned.owner, fun a ha => ?_, hm.owned.live⟩,
            hm.buffered, hm.timed, hm.received⟩
          obtain rfl := Option.some.inj ha
          obtain ⟨hunborn, hstart, -⟩ := hs.spawned
          refine ⟨hw.entity_unborn hunborn, ?_⟩
          rw [World.act_sys, hstart]
          exact Phase.start_ne_unborn _
        refine safe_call (.watch c) stable_mid hm fun w hw hm => ⟨trivial, fun _ w' hx _ => ?_⟩
        cases hx with
        | watch hs =>
            have hm := hm.silent hs (fun _ => rfl) fun _ => rfl
            exact Safe.ret_of stable_mid hm fun _ _ hm => hm

/-- A new entity is told what was buffered for it. -/
lemma tellBuffered_safe {t : ℕ} (he : state.entries key = some (.live a t)) (ms : List M)
    (hm : Mid h good state (Function.update state.buffered key ms) skip flying w) :
    Safe (hosting config kind h good) () (fun w _ => Mid h good state state.buffered skip flying w)
      (tellBuffered key a ms) w := by
  induction ms generalizing w with
  | nil =>
      have hempty : Function.update state.buffered key [] = state.buffered :=
        Function.update_eq_self_iff.mpr (State.buffered_of_entry he).symm
      exact Safe.ret_of stable_mid (hempty ▸ hm) fun _ _ hm => hm
  | cons m ms ih =>
      -- the message told next is the head of the buffer
      have hhead : ∀ w : World K M, w.buffered = Function.update state.buffered key (m :: ms) →
          w.buffered key = m :: ms := fun w hw => by rw [hw, Function.update_self]
      have htail : ∀ w : World K M, w.buffered = Function.update state.buffered key (m :: ms) →
          Function.update w.buffered key (w.buffered key).tail =
            Function.update state.buffered key ms := fun w hw => by
        rw [hhead w hw, hw, Function.update_idem]
        rfl
      refine safe_call (.tryTellForced key a m) stable_mid hm fun w hw hm =>
        ⟨⟨hm.owned.addresses he, ms, hhead w hm.buffered⟩, fun x w' hx _ => ?_⟩
      cases hx with
      | tellForced hs =>
          have hf : Frame h w (w.act (.send a (item h (.message m))) _) :=
            .act hs fun b => by rw [told_send]; split <;> simp
          exact ih ⟨hm.owned.frame (hf.trans (.of_eq rfl rfl rfl rfl)), htail w hm.buffered, hm.timed,
            fun hg => (hm.received hg).act hs fun _ => rfl⟩
      | tellForcedTerminated =>
          have hm : Mid h good state (Function.update state.buffered key ms) skip flying
              (w.setBuffered key (w.buffered key).tail) :=
            ⟨hm.owned.frame (.of_eq rfl rfl rfl rfl), htail w hm.buffered, hm.timed, hm.received⟩
          refine safe_call (.deadLetter a "entity terminated") stable_mid hm fun w hw hm =>
            ⟨trivial, fun _ w' hx _ => ?_⟩
          cases hx with
          | deadLetter => exact ih hm

/-- A terminated signal is dealt with. -/
lemma terminated_safe {x : ActorId} (hm : Held h good state w)
    (hclosed : (w.sys.phase x).closed = true) :
    Returns config kind h good (terminated config state x) w := by
  rw [terminated]
  split
  · exact Safe.bind (passivateIdle_safe hm) fun w state hw hm => tickLater_safe hm
  · split
    · exact Safe.ret_of stable_mid hm fun _ _ hm => hm
    · rename_i key hkey
      obtain ⟨e, he, hactor⟩ := hm.owned.key x key hkey
      have ho := hm.owned.remove hkey hclosed
      have htimed : ∀ skip, Timed skip ((state.forget x).remove key) w :=
        fun skip key' a t hlive _ => hm.timed.remove key' a t hlive nofun
      -- the entry of the entity is gone, together with a buffer which was empty
      have hremoved : e.buffered = [] → Held h good ((state.forget x).remove key) w := by
        intro hempty
        refine ⟨ho, ?_, htimed none, hm.received⟩
        rw [hm.buffered, State.buffered_remove]
        exact (Function.update_eq_self_iff.mpr
          ((State.buffered_of_entry he).trans hempty).symm).symm
      rw [he]
      cases e with
      | live b t => exact Safe.ret_of stable_mid (hremoved rfl) fun _ _ hm => hm
      | stopping b ms =>
          dsimp only
          split
          · rename_i hempty
            exact Safe.ret_of stable_mid (hremoved (List.isEmpty_iff.mp hempty)) fun _ _ hm => hm
          · have hnone : ((state.forget x).remove key).entries key = none := by simp
            have hm : Mid h good ((state.forget x).remove key)
                (Function.update ((state.forget x).remove key).buffered key ms) (some key) nothing
                w := by
              refine ⟨ho, ?_, htimed _, hm.received⟩
              rw [hm.buffered, State.buffered_remove, Function.update_idem]
              exact (Function.update_eq_self_iff.mpr (State.buffered_of_entry he).symm).symm
            refine Safe.bind (spawnEntity_safe hnone hm) fun w c hw hm => ?_
            rw [← State.buffered_spawned (c := c) (t := 0) hnone] at hm
            have hlive : (((((state.forget x).remove key).remember c key).insert key
                (.live c 0))).entries key = some (.live c 0) := by simp
            refine Safe.bind (tellBuffered_safe hlive ms hm) fun w _ hw hm => ?_
            have hnow : Returns config kind h good _ w := now_safe hlive hm
            simp only [State.insert_insert] at hnow
            exact hnow

/-! ### The run loop -/

/-- What holds at the points of the run loop. -/
def PointOk (h : ActorId) (good : Prop) (w : World K M) : Point K M → Prop
  | .run => (∀ a key, w.entity a = some key → (w.sys.phase a).closed = true) ∧
      w.buffered = nothing ∧ (good → Received h nothing w)
  | .running state => Held h good state w
  | .failed => w.buffered = nothing ∧ ¬good
  | .terminate => True

/-- A callback which ends in a state returns to the run loop, and may panic anywhere. -/
lemma call_safe {callback : Task K M (State K M)}
    (hcallback : Returns config kind h good callback w) :
    Safe (hosting config kind h good) () (PointOk h good) (call callback) w := by
  refine Safe.bind (Safe.interruptible (fun _ _ => trivial) (fun w b w' hx => ?_) hcallback)
    fun w x hw hx => ?_
  · obtain ⟨hx, -⟩ := hx
    cases hx with
    | panics => exact .refl h w
  · cases x with
    | some state =>
        refine safe_call (.returned true) stable_mid (hx state rfl) fun w hw hm =>
          ⟨trivial, fun _ w' hx _ => ?_⟩
        cases hx with
        | returned hs =>
            have hm := hm.silent hs (fun _ => rfl) fun _ => rfl
            exact Safe.ret_of stable_mid hm fun _ _ hm => hm
    | none =>
        refine safe_call (.returned false) stable_true trivial fun w hw _ =>
          ⟨trivial, fun _ w' hx hw' => ?_⟩
        cases hx with
        | fails hs hfail =>
            refine fun w'' hr _ => ⟨hr.buffered, fun hg => ?_⟩
            have hup : retired (_ : Phase (Payload K M)) = false := (hw'.behaved hg).host
            rw [World.act_sys, hfail] at hup
            cases hup

omit [DecidableEq K] in
/-- After a restart nothing is left of the entities. -/
lemma Hosted.closed_of_restart {s' : Sys (Payload K M)} (hw : Hosted kind h w)
    (hs : Step kind w.sys (.restart h) s') (ha : w.entity a = some key) :
    (s'.phase a).closed = true := by
  have hbackoff : w.sys.phase h = .backoff := by
    cases hs with
    | move ha hm =>
        cases hm
        exact ha
  obtain ⟨g, hg⟩ := hw.child a key ha
  refine hs.closed ?_
  rw [(Runs.tree hw.run).child_finished hg (by rw [hbackoff]; rfl) (by rw [hbackoff]; rfl)]
  rfl

/-- **Every block of the run loop is safe** from every world which meets its point's assertion. -/
lemma code_safe (pt : Point K M) (hpt : PointOk h good w pt) :
    Safe (hosting config kind h good) () (PointOk h good) (code config pt) w := by
  cases pt with
  | run =>
      obtain ⟨hclosed, hbuffered, hreceived⟩ := hpt
      refine call_safe (tickLater_safe ⟨⟨nofun, nofun, fun a key ha => ?_, nofun, nofun⟩, hbuffered,
        nofun, hreceived⟩)
      exact .inl (hclosed a key ha)
  | running state =>
      refine safe_call (.nextIncoming state) stable_mid hpt fun w hw hm =>
        ⟨hm, fun x w' hx hw' => ?_⟩
      cases hx with
      | stopped => exact fun _ _ _ => trivial
      | @nextMessage _ o key m s' hs =>
          refine call_safe (route_safe ⟨?_, hm.buffered, fun key' a t hlive hskip => ?_,
            fun hg key' => ?_⟩)
          · exact hm.owned.frame ((Frame.silent hs fun _ => rfl).trans (.of_eq rfl rfl rfl rfl))
          · have hkey : key' ≠ key := fun hkey => hskip (by rw [hkey])
            rw [World.route_routed, Function.update_of_ne hkey]
            exact hm.timed key' a t hlive nofun
          · have hkey' := hm.received hg key'
            rw [World.route_trace, World.act_trace, envelopes_append, hkey']
            by_cases hkey : key' = key
            · subst hkey
              simp [envelopes, handed, enveloped, nothing]
            · have hne : key ≠ key' := fun h => hkey h.symm
              simp [envelopes, handed, enveloped, nothing, hne, Function.update_of_ne hkey]
      | nextTerminated hs =>
          have hclosed := (Runs.watching hw.run).taking h _ hs.handed.1
          have hm := hm.silent hs (fun _ => rfl) fun _ => by simp [envelopes, handed, enveloped]
          exact call_safe (terminated_safe hm (hs.closed hclosed))
  | failed =>
      obtain ⟨hb, hbad⟩ := hpt
      have hstable : Stable (hosting config kind h good) () fun w : World K M =>
          w.buffered = nothing := fun _ _ hb hr _ => hr.buffered.trans hb
      refine safe_call .awaitRestart hstable hb fun w hw hb => ⟨trivial, fun x w' hx hw' => ?_⟩
      cases hx with
      | notRestarted => exact fun _ _ _ => trivial
      | restart hs =>
          intro w'' hr _
          refine ⟨fun a key ha => ?_, hr.buffered.trans hb, fun hg => absurd hg hbad⟩
          rw [hr.entity] at ha
          exact hr.closed a (hw.toHosted.closed_of_restart hs ha)
  | terminate => exact fun _ _ _ => trivial

/-! ### Runs -/

/-- The steps of a host and everybody else. -/
abbrev HostStep (config : HostConfig) (kind : ActorId → Kind) (h : ActorId) (good : Prop) :
    Tasks Unit (Op K M) Op.Ans (World K M) (Point K M) →
      Tasks Unit (Op K M) Op.Ans (World K M) (Point K M) → Prop :=
  Tasks.Step (fun _ => code config) (hosting config kind h good).exec
    fun w w' => Env kind h w w' ∧ (good → Behaved h w')

/-- The states a host and everybody else can get into, from before anything has happened. -/
abbrev Reached (config : HostConfig) (kind : ActorId → Kind) (h : ActorId) (good : Prop)
    (st : Tasks Unit (Op K M) Op.Ans (World K M) (Point K M)) : Prop :=
  Relation.ReflTransGen (HostStep config kind h good) (Tasks.solo World.init (.ret .run)) st

/-- **The contract is kept in every run.** -/
lemma reached_good {st : Tasks Unit (Op K M) Op.Ans (World K M) (Point K M)}
    (hst : Reached config kind h good st) :
    Tasks.Good (hosting config kind h good) (fun _ => PointOk h good) st := by
  have hinit : Tasks.Good (hosting config kind h good) (fun _ => PointOk h good)
      (Tasks.solo (World.init : World K M) (.ret .run)) := by
    refine ⟨Inv.init, fun _ w hr _ => ⟨fun a key ha => ?_, hr.buffered, fun _ key => ?_⟩⟩
    · rw [hr.entity] at ha
      cases ha
    · rw [hr.envelopes, hr.routings]
      rfl
  refine Tasks.invariant (fun _ w pt _ hpt => code_safe pt hpt)
    (fun _ w op x w' hw hpre hx => ⟨exec_keeps hw hpre hx.1 hx.2, fun j hj => absurd rfl hj⟩)
    (fun w w' hw he => ?_) hinit hst
  obtain ⟨hw', hr⟩ := env_keeps hw he.1 he.2
  exact ⟨hw', fun _ => hr⟩

end Calls

end Tellus.Host
