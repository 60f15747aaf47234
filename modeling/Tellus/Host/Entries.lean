import Mathlib.Tactic
import Tellus.Host.Fencing
import Tellus.Lib.History

/-!
At most one incarnation per key.

The first half is about a host on its own, handed any envelopes and signals whatsoever, its calls
answered in any way: only the functions which spawn have to return a fresh actor.  What its maps
and its ticker hold is then told from the history of its calls.  The second half is about a host
among the other actors, where a signal arrives only if somebody has terminated.

* `Kept`: the two maps of a host are inverse to each other, its buffers are bounded, and it knows
  only actors spawned since it was last initialised.
* `Consistent`: what holds of the state between two callbacks.
* `one_incarnation_per_key`: the two halves.
-/

namespace Tellus.Host

open Concurrent

variable {K M : Type}

/-! ### What the calls tell -/

/-- The calls of a host's task. -/
abbrev Calls (K M : Type) := History (Op K M) Op.Ans

/-- The actors spawned so far. -/
def spawned (h : Calls K M) : List ActorId :=
  h.filterMap fun
    | ⟨.spawn _, c⟩ => some c
    | ⟨.spawnTicker, c⟩ => some c
    | _ => none

/-- The actors spawned since `init` was last begun, after one more call. -/
def spawnedAfter (actors : List ActorId) : (op : Op K M) × op.Ans → List ActorId
  | ⟨.awaitRestart, _⟩ => []
  | ⟨.spawn _, c⟩ => actors ++ [c]
  | ⟨.spawnTicker, c⟩ => actors ++ [c]
  | _ => actors

/-- The actors spawned since `init` was last begun. -/
def spawnedSince (h : Calls K M) : List ActorId := h.foldl spawnedAfter []

/-- The tickers whose signal has not been handled, after one more call. -/
def tickersAfter (tickers : List ActorId) : (op : Op K M) × op.Ans → List ActorId
  | ⟨.awaitRestart, _⟩ => []
  | ⟨.spawnTicker, c⟩ => tickers ++ [c]
  | ⟨.nextIncoming _, some (.terminated a)⟩ => tickers.filter (· ≠ a)
  | _ => tickers

/-- The tickers spawned since `init` was last begun whose signal has not been handled. -/
def unhandled (h : Calls K M) : List ActorId := h.foldl tickersAfter []

/-- The state the latest incoming was handled in. -/
def lastHeld (h : Calls K M) : Option (State K M) :=
  h.foldl (fun held call =>
    match call with
    | ⟨.nextIncoming state, _⟩ => some state
    | _ => held) none

section Concat

variable (h : Calls K M) (call : (op : Op K M) × op.Ans)

lemma spawnedSince_concat : spawnedSince (h ++ [call]) = spawnedAfter (spawnedSince h) call := by
  rw [spawnedSince, List.foldl_append]
  rfl

lemma unhandled_concat : unhandled (h ++ [call]) = tickersAfter (unhandled h) call := by
  rw [unhandled, List.foldl_append]
  rfl

/-- Whatever was spawned since `init` was spawned. -/
lemma spawned_of_spawnedSince {h : Calls K M} {a : ActorId} (ha : a ∈ spawnedSince h) :
    a ∈ spawned h := by
  induction h using List.reverseRecOn with
  | nil => cases ha
  | append_singleton h call ih =>
      rw [spawnedSince_concat] at ha
      rw [spawned, List.filterMap_append, List.mem_append]
      obtain ⟨op, x⟩ := call
      cases op with
      | spawn key =>
          rcases List.mem_append.mp ha with ha | ha
          · exact .inl (ih ha)
          · exact .inr (by simpa using ha)
      | spawnTicker =>
          rcases List.mem_append.mp ha with ha | ha
          · exact .inl (ih ha)
          · exact .inr (by simpa using ha)
      | awaitRestart => cases ha
      | _ => exact .inl (ih ha)

end Concat

/-! ### The contract -/

/-- Spawning returns a fresh actor, and a map is iterated over key by key; anything else may be
answered in any way. -/
def Fresh (h : Calls K M) : (op : Op K M) → op.Ans → Prop
  | .spawn _, c => c ∉ spawned h
  | .spawnTicker, c => c ∉ spawned h
  | .order entries, keys => keys.Nodup ∧ ∀ key, key ∈ keys ↔ entries key ≠ none
  | _, _ => True

/-- A panic of user code is no call. -/
def isPanics : Op K M → Bool
  | .panics => true
  | _ => false

/-- The state of a host, as far as it is about its entities: every key with an entry is the image
of exactly its entity, and `keys` has no other pairs. -/
structure Kept (config : HostConfig) (h : Calls K M) (state : State K M) : Prop where
  entry : ∀ key e, state.entries key = some e → state.keys e.actor = some key
  key : ∀ a key, state.keys a = some key → ∃ e, state.entries key = some e ∧ e.actor = a
  buffer : ∀ key a ms, state.entries key = some (.stopping a ms) → ms.length ≤ config.buffer
  ticker : ∀ t, state.ticker = some t → state.keys t = none ∧ t ∈ spawnedSince h
  known : ∀ a key, state.keys a = some key → a ∈ spawnedSince h

/-- What holds of the state of a host between two callbacks. -/
structure Consistent (config : HostConfig) (h : Calls K M) (state : State K M) : Prop
    extends Kept config h state where
  /-- The ticker is the one whose signal has not been handled. -/
  ticking : unhandled h = state.ticker.toList
  /-- There is one exactly if there is an idle timeout. -/
  timeout : state.ticker = none ↔ config.idleTimeout = none

/-- What is due before a call: the state is consistent between two callbacks, and no actor a spawn
may return is known when `remember` is called with it. -/
def Due (config : HostConfig) (h : Calls K M) : Op K M → Prop
  | .nextIncoming state => Consistent config h state
  | .spawn _ => ∀ held, lastHeld h = some held → ∀ c, c ∉ spawned h → held.keys c = none
  | _ => True

/-- What is due at each place of the run loop. -/
def DueAt (config : HostConfig) (h : Calls K M) : Point K M → Prop
  | .run => spawnedSince h = [] ∧ unhandled h = []
  | .running state => Consistent config h state
  | _ => True

/-- The contract of a host on its own. -/
abbrev alone (config : HostConfig) : Contract Unit (Op K M) Op.Ans (Calls K M) :=
  History.contract isPanics Fresh (Due config)

/-! ### The state -/

section State

variable {config : HostConfig} {h h' : Calls K M} {state : State K M} {key : K} {a c : ActorId}

lemma Kept.mono (hk : Kept config h state) (hh : ∀ a ∈ spawnedSince h, a ∈ spawnedSince h') :
    Kept config h' state :=
  ⟨hk.entry, hk.key, hk.buffer, fun t ht => ⟨(hk.ticker t ht).1, hh t (hk.ticker t ht).2⟩,
    fun a key ha => hh a (hk.known a key ha)⟩

/-- No actor which has not been spawned yet is known. -/
lemma Kept.unknown (hk : Kept config h state) (hc : c ∉ spawned h) : state.keys c = none := by
  cases hkey : state.keys c with
  | none => rfl
  | some key => exact absurd (spawned_of_spawnedSince (hk.known c key hkey)) hc

lemma Kept.init : Kept config h (State.default : State K M) :=
  ⟨nofun, nofun, nofun, nofun, nofun⟩

variable [DecidableEq K]

/-- The entry of a key is replaced by another one of the same entity. -/
lemma Kept.replace (hk : Kept config h state) {e e' : Entry M} (he : state.entries key = some e)
    (hactor : e'.actor = e.actor)
    (hbuffer : ∀ a ms, e' = .stopping a ms → ms.length ≤ config.buffer) :
    Kept config h (state.insert key e') := by
  refine ⟨fun key' f hf => ?_, fun a key' ha => ?_, fun key' a ms hf => ?_, hk.ticker, hk.known⟩
  · by_cases hkey : key' = key
    · subst hkey
      rw [State.insert_entries, Function.update_self, Option.some.injEq] at hf
      subst hf
      rw [State.insert_keys, hactor]
      exact hk.entry key' e he
    · rw [State.insert_entries, Function.update_of_ne hkey] at hf
      exact hk.entry key' f hf
  · obtain ⟨f, hf, rfl⟩ := hk.key a key' ha
    by_cases hkey : key' = key
    · subst hkey
      rw [he, Option.some.injEq] at hf
      subst hf
      exact ⟨e', by simp, hactor⟩
    · exact ⟨f, by simpa [hkey] using hf, rfl⟩
  · by_cases hkey : key' = key
    · subst hkey
      rw [State.insert_entries, Function.update_self, Option.some.injEq] at hf
      exact hbuffer a ms hf
    · rw [State.insert_entries, Function.update_of_ne hkey] at hf
      exact hk.buffer key' a ms hf

/-- A live entity has been messaged later. -/
lemma Kept.later {t : ℕ} (hk : Kept config h (state.insert key (.live c t))) (t' : ℕ) :
    Kept config h (state.insert key (.live c t')) := by
  have he : (state.insert key (.live c t)).entries key = some (.live c t) := by simp
  have hreplace : Kept config h ((state.insert key (.live c t)).insert key (.live c t')) :=
    hk.replace he rfl nofun
  rwa [State.insert_insert] at hreplace

/-- A fresh entity is remembered for a key without an entry. -/
lemma Kept.remember (hk : Kept config h state) (hnone : state.entries key = none)
    (hc : state.keys c = none) (hticker : state.ticker ≠ some c) (hmem : c ∈ spawnedSince h)
    (t : ℕ) : Kept config h ((state.remember c key).insert key (.live c t)) := by
  refine ⟨fun key' f hf => ?_, fun a key' ha => ?_, fun key' a ms hf => ?_, fun t ht => ?_,
    fun a key' ha => ?_⟩
  · by_cases hkey : key' = key
    · subst hkey
      rw [State.insert_entries, Function.update_self, Option.some.injEq] at hf
      subst hf
      simp [Entry.actor]
    · rw [State.insert_entries, Function.update_of_ne hkey, State.remember_entries] at hf
      have hkeys := hk.entry key' f hf
      have hne : f.actor ≠ c := by
        intro hfc
        rw [hfc, hc] at hkeys
        cases hkeys
      simpa [hne] using hkeys
  · by_cases hac : a = c
    · subst hac
      rw [State.insert_keys, State.remember_keys, Function.update_self, Option.some.injEq] at ha
      subst ha
      exact ⟨.live a t, by simp, rfl⟩
    · rw [State.insert_keys, State.remember_keys, Function.update_of_ne hac] at ha
      obtain ⟨f, hf, hfa⟩ := hk.key a key' ha
      have hkey : key' ≠ key := by
        rintro rfl
        rw [hnone] at hf
        cases hf
      exact ⟨f, by simpa [hkey] using hf, hfa⟩
  · by_cases hkey : key' = key
    · subst hkey
      simp at hf
    · rw [State.insert_entries, Function.update_of_ne hkey, State.remember_entries] at hf
      exact hk.buffer key' a ms hf
  · have hne : t ≠ c := by
      rintro rfl
      exact hticker ht
    refine ⟨?_, (hk.ticker t ht).2⟩
    rw [State.insert_keys, State.remember_keys, Function.update_of_ne hne]
    exact (hk.ticker t ht).1
  · by_cases hac : a = c
    · subst hac
      exact hmem
    · rw [State.insert_keys, State.remember_keys, Function.update_of_ne hac] at ha
      exact hk.known a key' ha

/-- An entity is forgotten together with its entry. -/
lemma Kept.remove (hk : Kept config h state) (ha : state.keys a = some key) :
    Kept config h ((state.forget a).remove key) := by
  obtain ⟨e, he, rfl⟩ := hk.key a key ha
  refine ⟨fun key' f hf => ?_, fun b key' hb => ?_, fun key' b ms hf => ?_, fun t ht => ?_,
    fun b key' hb => ?_⟩
  · have hkey : key' ≠ key := by
      rintro rfl
      simp at hf
    rw [State.remove_entries, Function.update_of_ne hkey, State.forget_entries] at hf
    have hkeys := hk.entry key' f hf
    have hne : f.actor ≠ e.actor := by
      intro hfe
      rw [hfe, ha, Option.some.injEq] at hkeys
      exact hkey hkeys.symm
    simpa [hne] using hkeys
  · have hne : b ≠ e.actor := by
      rintro rfl
      simp at hb
    rw [State.remove_keys, State.forget_keys, Function.update_of_ne hne] at hb
    obtain ⟨f, hf, rfl⟩ := hk.key b key' hb
    have hkey : key' ≠ key := by
      rintro rfl
      rw [he, Option.some.injEq] at hf
      exact hne (by rw [hf])
    exact ⟨f, by simpa [hkey] using hf, rfl⟩
  · have hkey : key' ≠ key := by
      rintro rfl
      simp at hf
    rw [State.remove_entries, Function.update_of_ne hkey, State.forget_entries] at hf
    exact hk.buffer key' b ms hf
  · refine ⟨?_, (hk.ticker t ht).2⟩
    by_cases hte : t = e.actor
    · simp [hte]
    · rw [State.remove_keys, State.forget_keys, Function.update_of_ne hte]
      exact (hk.ticker t ht).1
  · have hne : b ≠ e.actor := by
      rintro rfl
      simp at hb
    rw [State.remove_keys, State.forget_keys, Function.update_of_ne hne] at hb
    exact hk.known b key' hb

end State

/-! ### The callbacks -/

section Callbacks

variable [DecidableEq K] {config : HostConfig} {h : Calls K M} {state : State K M} {key : K}
  {a : ActorId} {tickers : List ActorId}

/-- Calls which neither spawn nor begin or end anything. -/
def plain : Op K M → Bool
  | .spawn _ => false
  | .spawnTicker => false
  | .panics => false
  | .nextIncoming _ => false
  | .awaitRestart => false
  | _ => true

/-- What holds inside of a callback. -/
structure Inside (config : HostConfig) (tickers : List ActorId) (h : Calls K M)
    (state : State K M) : Prop where
  kept : Kept config h state
  ticking : unhandled h = tickers

omit [DecidableEq K] in
/-- The end of a callback which leaves the ticker alone. -/
lemma Inside.consistent {s : State K M} (hm : Inside config state.ticker.toList h s)
    (hs : s.ticker = state.ticker) (htimeout : state.ticker = none ↔ config.idleTimeout = none) :
    Consistent config h s :=
  ⟨hm.kept, by rw [hs]; exact hm.ticking, by rw [hs]; exact htimeout⟩

omit [DecidableEq K] in
/-- A plain call changes nothing. -/
lemma safe_plain {α : Type} {post : Calls K M → α → Prop} {op : Op K M} {k : op.Ans → Task K M α}
    (hop : plain op = true) (hm : Inside config tickers h state)
    (hk : ∀ h x, Inside config tickers h state → Safe (alone config) () post (k x) h) :
    Safe (alone config) () post (.call op k) h := by
  have hdue : Due config h op := by
    cases op <;> first | exact trivial | cases hop
  have hrecord : ∀ x : op.Ans, spawnedSince (h.record isPanics op x) = spawnedSince h ∧
      unhandled (h.record isPanics op x) = unhandled h := by
    intro x
    cases op <;> first
      | exact ⟨spawnedSince_concat _ _, unhandled_concat _ _⟩
      | cases hop
  refine History.safe_call.mpr ⟨hdue, fun x _ => hk _ x ⟨hm.kept.mono ?_, ?_⟩⟩
  · intro b hb
    rw [(hrecord x).1]
    exact hb
  · rw [(hrecord x).2]
    exact hm.ticking

omit [DecidableEq K] in
/-- An entity is spawned: it is not known yet, and there is no ticker of that name. -/
lemma spawnEntity_alone (hm : Inside config tickers h state)
    (hheld : ∀ held, lastHeld h = some held → ∀ c, c ∉ spawned h → held.keys c = none) :
    Safe (alone config) () (fun h c => Inside config tickers h state ∧ state.keys c = none ∧
      state.ticker ≠ some c ∧ c ∈ spawnedSince h) (spawnEntity key) h := by
  refine History.safe_call.mpr ⟨hheld, fun c hc => ?_⟩
  have hsince : spawnedSince (h.record isPanics (.spawn key) c) = spawnedSince h ++ [c] :=
    spawnedSince_concat _ _
  have hticking : unhandled (h.record isPanics (.spawn key) c) = unhandled h :=
    unhandled_concat _ _
  have hm' : Inside config tickers (h.record isPanics (.spawn key) c) state :=
    ⟨hm.kept.mono fun b hb => by rw [hsince]; exact List.mem_append_left _ hb,
      hticking.trans hm.ticking⟩
  have hmem : c ∈ spawnedSince (h.record isPanics (.spawn key) c) := by
    rw [hsince]
    exact List.mem_append_right _ (List.mem_singleton_self c)
  have hunknown := hm.kept.unknown hc
  have hticker : state.ticker ≠ some c := fun ht =>
    hc (spawned_of_spawnedSince (hm.kept.ticker c ht).2)
  refine History.safe_call.mpr ⟨trivial, fun x hx => History.safe_ret.mpr ?_⟩
  have hsince' : spawnedSince ((h.record isPanics (.spawn key) c).record isPanics (.watch c) x) =
      spawnedSince (h.record isPanics (.spawn key) c) := spawnedSince_concat _ _
  refine ⟨⟨hm'.kept.mono fun b hb => by rw [hsince']; exact hb, ?_⟩, hunknown, hticker, ?_⟩
  · exact (unhandled_concat _ _).trans hm'.ticking
  · rw [hsince']
    exact hmem

/-- A message is routed. -/
lemma route_alone {message : M} (hc : Consistent config h state) (hheld : lastHeld h = some state) :
    Safe (alone config) () (Consistent config) (route config state key message) h := by
  have hm : Inside config state.ticker.toList h state := ⟨hc.toKept, hc.ticking⟩
  unfold route
  cases he : state.entries key with
  | none =>
      refine (spawnEntity_alone hm fun held hh c hc' => ?_).bind fun h c _ hs => ?_
      · rw [hheld, Option.some.injEq] at hh
        subst hh
        exact hc.unknown hc'
      · obtain ⟨hm, hunknown, hticker, hmem⟩ := hs
        have hm' : Inside config state.ticker.toList h
            ((state.remember c key).insert key (.live c 0)) :=
          ⟨hm.kept.remember he hunknown hticker hmem 0, hm.ticking⟩
        refine safe_plain rfl hm' fun h _ hm' => ?_
        refine safe_plain rfl hm' fun h t hm' => History.safe_ret.mpr ?_
        exact Inside.consistent ⟨hm'.kept.later t, hm'.ticking⟩ rfl hc.timeout
  | some e =>
      cases e with
      | live b t =>
          refine safe_plain rfl hm fun h _ hm => ?_
          refine safe_plain rfl hm fun h t' hm => History.safe_ret.mpr ?_
          exact Inside.consistent ⟨hm.kept.replace he rfl nofun, hm.ticking⟩ rfl hc.timeout
      | stopping b ms =>
          dsimp only
          split
          · rename_i hlt
            refine safe_plain rfl hm fun h _ hm => History.safe_ret.mpr ?_
            refine Inside.consistent ⟨?_, hm.ticking⟩ rfl hc.timeout
            refine hm.kept.replace he rfl fun a ms' hms => ?_
            cases hms
            rw [List.length_append]
            exact hlt
          · refine safe_plain rfl hm fun h _ hm => ?_
            exact safe_plain rfl hm fun h _ hm => History.safe_ret.mpr (hm.consistent rfl hc.timeout)

/-- Asking entities to stop keeps the maps as they are. -/
lemma passivateEach_alone (idleTimeout : ℕ) (keys : List K) (hm : Inside config tickers h state) :
    Safe (alone config) () (fun h s => Inside config tickers h s)
      (passivateEach idleTimeout keys state) h := by
  induction keys generalizing h state with
  | nil => exact History.safe_ret.mpr hm
  | cons key keys ih =>
      unfold passivateEach
      cases he : state.entries key with
      | none => exact ih hm
      | some e =>
          cases e with
          | stopping b ms => exact ih hm
          | live b t =>
              refine safe_plain rfl hm fun h now hm => ?_
              dsimp only [Prog.ret_bind]
              split
              · exact ih hm
              · refine safe_plain rfl hm fun h x hm => ?_
                rcases x with _ | _
                · exact ih hm
                · refine ih ⟨hm.kept.replace he rfl fun a ms hms => ?_, hm.ticking⟩
                  cases hms
                  exact Nat.zero_le _

lemma passivateIdle_alone (hm : Inside config tickers h state) :
    Safe (alone config) () (fun h s => Inside config tickers h s) (passivateIdle config state) h := by
  unfold passivateIdle
  split
  · exact History.safe_ret.mpr hm
  · rename_i idleTimeout _
    exact safe_plain rfl hm fun h keys hm => passivateEach_alone idleTimeout keys hm

omit [DecidableEq K] in
/-- The next ticker is the only one. -/
lemma tickLater_alone (hm : Inside config [] h state) :
    Safe (alone config) () (Consistent config) (tickLater config state) h := by
  unfold tickLater
  split
  · rename_i hnone
    refine History.safe_ret.mpr ⟨⟨hm.kept.entry, hm.kept.key, hm.kept.buffer, nofun, hm.kept.known⟩,
      hm.ticking, ?_⟩
    simp [hnone]
  · rename_i timeout hsome
    refine History.safe_call.mpr ⟨trivial, fun c hc => ?_⟩
    have hsince : spawnedSince (h.record isPanics .spawnTicker c) = spawnedSince h ++ [c] :=
      spawnedSince_concat _ _
    have hticking : unhandled (h.record isPanics .spawnTicker c) = unhandled h ++ [c] :=
      unhandled_concat _ _
    have hkept : Kept config (h.record isPanics .spawnTicker c) state :=
      hm.kept.mono fun b hb => by rw [hsince]; exact List.mem_append_left _ hb
    have hm' : Inside config [c] (h.record isPanics .spawnTicker c)
        { state with ticker := some c } := by
      refine ⟨⟨hkept.entry, hkept.key, hkept.buffer, fun t ht => ?_, hkept.known⟩, ?_⟩
      · cases ht
        refine ⟨hm.kept.unknown hc, ?_⟩
        rw [hsince]
        exact List.mem_append_right _ (List.mem_singleton_self c)
      · rw [hticking, hm.ticking]
        rfl
    refine safe_plain rfl hm' fun h _ hm' => History.safe_ret.mpr ⟨hm'.kept, hm'.ticking, ?_⟩
    simp [hsome]

omit [DecidableEq K] in
lemma tellBuffered_alone (ms : List M) (hm : Inside config tickers h state) :
    Safe (alone config) () (fun h _ => Inside config tickers h state) (tellBuffered key a ms) h := by
  induction ms generalizing h with
  | nil => exact History.safe_ret.mpr hm
  | cons m ms ih =>
      refine safe_plain rfl hm fun h x hm => ?_
      rcases x with _ | _
      · exact safe_plain rfl hm fun h _ hm => ih hm
      · exact ih hm

/-- A signal is handled: that of the ticker, that of an entity, or one which is none of the host's
business. -/
lemma terminated_alone (hk : Kept config h state)
    (hticking : unhandled h = state.ticker.toList.filter (· ≠ a))
    (htimeout : state.ticker = none ↔ config.idleTimeout = none)
    (hheld : lastHeld h = some state) :
    Safe (alone config) () (Consistent config) (terminated config state a) h := by
  unfold terminated
  split
  · rename_i hticker
    have hnil : unhandled h = [] := by
      rw [hticking, hticker]
      simp
    exact (passivateIdle_alone ⟨hk, hnil⟩).bind fun h state _ hm => tickLater_alone hm
  · rename_i hticker
    have hsame : state.ticker.toList.filter (· ≠ a) = state.ticker.toList := by
      refine List.filter_eq_self.mpr fun t ht => ?_
      rw [Option.mem_toList] at ht
      simp only [ne_eq, decide_eq_true_eq]
      rintro rfl
      exact hticker ht
    have hm : Inside config state.ticker.toList h state := ⟨hk, hticking.trans hsame⟩
    split
    · exact History.safe_ret.mpr (hm.consistent rfl htimeout)
    · rename_i key hkey
      have hremoved : Inside config state.ticker.toList h ((state.forget a).remove key) :=
        ⟨hk.remove hkey, hm.ticking⟩
      have hdone : Consistent config h ((state.forget a).remove key) :=
        hremoved.consistent rfl htimeout
      split
      · rename_i b ms he
        split
        · exact History.safe_ret.mpr hdone
        · refine (spawnEntity_alone hremoved fun held hh c hc => ?_).bind fun h c _ hs => ?_
          · rw [hheld, Option.some.injEq] at hh
            subst hh
            exact hk.unknown hc
          · obtain ⟨hm, hunknown, hticker, hmem⟩ := hs
            have hnone : ((state.forget a).remove key).entries key = none := by simp
            have hm' : Inside config state.ticker.toList h
                ((((state.forget a).remove key).remember c key).insert key (.live c 0)) :=
              ⟨hm.kept.remember hnone hunknown hticker hmem 0, hm.ticking⟩
            refine (tellBuffered_alone ms hm').bind fun h _ _ hm' => ?_
            refine safe_plain rfl hm' fun h t hm' => History.safe_ret.mpr ?_
            exact Inside.consistent ⟨hm'.kept.later t, hm'.ticking⟩ rfl htimeout
      · exact History.safe_ret.mpr hdone
      · exact History.safe_ret.mpr hdone

omit [DecidableEq K] in
/-- A callback which ends in a consistent state returns to the run loop with it. -/
lemma call_alone {callback : Task K M (State K M)}
    (hcallback : Safe (alone config) () (Consistent config) callback h) :
    Safe (alone config) () (DueAt config) (call callback) h := by
  refine (History.safe_interruptible rfl (fun _ => trivial) hcallback).bind fun h x _ hx => ?_
  cases x with
  | some state =>
      have hc : Consistent config h state := hx state rfl
      refine safe_plain rfl ⟨hc.toKept, hc.ticking⟩ fun h _ hm => ?_
      exact History.safe_ret.mpr (hm.consistent rfl hc.timeout)
  | none => exact History.safe_call.mpr ⟨trivial, fun _ _ => History.safe_ret.mpr trivial⟩

/-- **Every block of the run loop keeps to what is due.** -/
lemma code_alone (h : Calls K M) (pt : Point K M) (hpt : DueAt config h pt) :
    Safe (alone config) () (DueAt config) (code config pt) h := by
  cases pt with
  | run =>
      obtain ⟨-, hnil⟩ := hpt
      exact call_alone (tickLater_alone ⟨Kept.init, hnil⟩)
  | running state =>
      have hc : Consistent config h state := hpt
      refine History.safe_call.mpr ⟨hc, fun x _ => ?_⟩
      have hkept : Kept config (h ++ [⟨.nextIncoming state, x⟩]) state :=
        hc.toKept.mono fun b hb => by rw [spawnedSince_concat]; exact hb
      have hheld : lastHeld (h ++ [⟨.nextIncoming state, x⟩]) = some state := by
        rw [lastHeld, List.foldl_append]
        rfl
      rcases x with _ | (envelope | a)
      · exact History.safe_ret.mpr trivial
      · have hticking := (unhandled_concat h ⟨.nextIncoming state, some (.message envelope)⟩).trans
          hc.ticking
        exact call_alone (route_alone ⟨hkept, hticking, hc.timeout⟩ hheld)
      · have hticking := (unhandled_concat h ⟨.nextIncoming state, some (.terminated a)⟩).trans
          (congrArg (List.filter fun t => t ≠ a) hc.ticking)
        exact call_alone (terminated_alone hkept hticking hc.timeout hheld)
  | failed =>
      refine History.safe_call.mpr ⟨trivial, fun x _ => ?_⟩
      cases x with
      | true => exact History.safe_ret.mpr ⟨spawnedSince_concat _ _, unhandled_concat _ _⟩
      | false => exact History.safe_ret.mpr trivial
  | terminate => exact History.safe_ret.mpr trivial

end Callbacks

/-! ### Every run -/

section Runs

variable [DecidableEq K]

/-- The states a host on its own gets into, whatever it is handed. -/
abbrev Alone (config : HostConfig) (st : Tasks Unit (Op K M) Op.Ans (Calls K M) (Point K M)) :
    Prop :=
  Tasks.Reaches (fun _ => code config) (alone config).exec (fun _ _ => False)
    (.solo [] (.ret .run)) st

/-- A signal of an actor the host does not know changes nothing. -/
lemma terminated_unknown {config : HostConfig} {state : State K M} {a : ActorId}
    (hticker : state.ticker ≠ some a) (hkey : state.keys a = none) :
    terminated config state a = .ret state := by
  rw [terminated, if_neg hticker, hkey]
  rfl

/-- **At most one incarnation per key.**  A host on its own, handed any envelopes and signals: the
maps of its state are inverse to each other, its buffers are bounded, its ticker is the one whose
signal has not been handled and never an entity, what is spawned next is not known when it is
remembered, and signals of actors spawned before the last `init` change nothing.  A host among
other actors, restarts included: of all the actors spawned for a key at most one has not
terminated, and none is left when `init` is begun. -/
theorem one_incarnation_per_key (config : HostConfig) :
    (∀ st : Tasks Unit (Op K M) Op.Ans (Calls K M) (Point K M), Alone config st →
      (∀ state, st.task () = .ret (.running state) → Consistent config st.shared state ∧
        ∀ a, a ∉ spawnedSince st.shared → terminated config state a = .ret state) ∧
      ∀ op k, st.task () = .call op k → Due config st.shared op) ∧
    ∀ (kind : ActorId → Kind) (h : ActorId) (good : Prop)
      (st : Tasks Unit (Op K M) Op.Ans (World K M) (Point K M)), Reached config kind h good st →
      (∀ key a b, st.shared.entity a = some key → st.shared.entity b = some key →
        (st.shared.sys.phase a).closed = false → (st.shared.sys.phase b).closed = false →
          a = b) ∧
      (st.task () = .ret .run → ∀ a key, st.shared.entity a = some key →
        (st.shared.sys.phase a).closed = true) := by
  refine ⟨fun st hst => ?_, fun kind h good st hst => ?_⟩
  · have hstart : DueAt config ([] : Calls K M) .run := ⟨rfl, rfl⟩
    have hsafe := History.invariant code_alone hstart hst
    refine ⟨fun state hstate => ?_, fun op k hop => ?_⟩
    · rw [hstate] at hsafe
      have hc : Consistent config st.shared state := History.safe_ret.mp hsafe
      refine ⟨hc, fun a ha => terminated_unknown (fun ht => ha (hc.ticker a ht).2) ?_⟩
      cases hkey : state.keys a with
      | none => rfl
      | some key => exact absurd (hc.known a key hkey) ha
    · rw [hop] at hsafe
      exact hsafe.pre trivial
  · obtain ⟨hw, hsafe⟩ := reached_good hst
    refine ⟨fun key a b ha hb hopen hopen' => hw.toHosted.exclusive ha hb hopen hopen',
      fun hrun => ?_⟩
    have hs := hsafe ()
    rw [hrun] at hs
    exact (hs.result hw).1

end Runs

/-- A call is answered as it may be. -/
lemma answers_alone {config : HostConfig} {h : Calls K M} (op : Op K M) (x : op.Ans)
    (hx : Fresh h op x) : (alone config).exec () h op x (h.record isPanics op x) :=
  ⟨hx, rfl⟩

/-! ### A host with a full buffer -/

section Buffering

/-- The host has a ticker. -/
def tickingHost : State Unit ℕ := { State.default with ticker := some watcherId }

/-- It has an entity. -/
def hostingHost : State Unit ℕ := (tickingHost.remember childId ()).insert () (.live childId 0)

/-- It has asked the entity to stop, and has the next ticker. -/
def sweptHost : State Unit ℕ :=
  { hostingHost.insert () (.stopping childId []) with ticker := some nextTickerId }

/-- It has buffered a message for the next entity. -/
def bufferingHost : State Unit ℕ := sweptHost.insert () (.stopping childId [2])

/-- What the host has called to get there. -/
def bufferingCalls : Calls Unit ℕ :=
  [⟨.spawnTicker, watcherId⟩, ⟨.watch watcherId, ()⟩, ⟨.returned true, ()⟩,
    ⟨.nextIncoming tickingHost, some (.message ⟨(), 1⟩)⟩, ⟨.spawn (), childId⟩,
    ⟨.watch childId, ()⟩, ⟨.tell () childId 1, .ok ()⟩, ⟨.now, (0 : ℕ)⟩, ⟨.returned true, ()⟩,
    ⟨.nextIncoming hostingHost, some (.terminated watcherId)⟩,
    ⟨.order hostingHost.entries, [()]⟩, ⟨.now, (1 : ℕ)⟩, ⟨.passivate childId, .ok ()⟩,
    ⟨.spawnTicker, nextTickerId⟩, ⟨.watch nextTickerId, ()⟩, ⟨.returned true, ()⟩,
    ⟨.nextIncoming sweptHost, some (.message ⟨(), 2⟩)⟩, ⟨.buffer () 2, ()⟩, ⟨.returned true, ()⟩]

lemma buffering_run : Alone sweepConfig (.solo bufferingCalls (.ret (.running bufferingHost))) := by
  have h : Alone sweepConfig (.solo ([] : Calls Unit ℕ) (.ret .run)) := .refl
  have h := Tasks.solo_jump h
  have h := Tasks.solo_answer h (answers_alone .panics false trivial)
  have h := Tasks.solo_answer h (answers_alone .spawnTicker watcherId List.not_mem_nil)
  have h := Tasks.solo_answer h (answers_alone .panics false trivial)
  have h := Tasks.solo_answer h (answers_alone (.watch watcherId) () trivial)
  have h := Tasks.solo_answer h (answers_alone .panics false trivial)
  have h := Tasks.solo_answer h (answers_alone (.returned true) () trivial)
  have h := Tasks.solo_jump h
  have h := Tasks.solo_answer h
    (answers_alone (.nextIncoming tickingHost) (some (.message ⟨(), 1⟩)) trivial)
  have h := Tasks.solo_answer h (answers_alone .panics false trivial)
  have h := Tasks.solo_answer h (answers_alone (.spawn ()) childId (by show _ ∉ spawned _; decide))
  have h := Tasks.solo_answer h (answers_alone .panics false trivial)
  have h := Tasks.solo_answer h (answers_alone (.watch childId) () trivial)
  have h := Tasks.solo_answer h (answers_alone .panics false trivial)
  have h := Tasks.solo_answer h (answers_alone (.tell () childId 1) (.ok ()) trivial)
  have h := Tasks.solo_answer h (answers_alone .panics false trivial)
  have h := Tasks.solo_answer h (answers_alone .now (0 : ℕ) trivial)
  have h := Tasks.solo_answer h (answers_alone .panics false trivial)
  have h := Tasks.solo_answer h (answers_alone (.returned true) () trivial)
  have h := Tasks.solo_jump h
  have h := Tasks.solo_answer h
    (answers_alone (.nextIncoming hostingHost) (some (.terminated watcherId)) trivial)
  have h := Tasks.solo_answer h (answers_alone .panics false trivial)
  have h := Tasks.solo_answer h (answers_alone (.order _) [()] ⟨List.nodup_singleton (), by decide⟩)
  have h := Tasks.solo_answer h (answers_alone .panics false trivial)
  have h := Tasks.solo_answer h (answers_alone .now (1 : ℕ) trivial)
  have h := Tasks.solo_answer h (answers_alone .panics false trivial)
  have h := Tasks.solo_answer h (answers_alone (.passivate childId) (.ok ()) trivial)
  have h := Tasks.solo_answer h (answers_alone .panics false trivial)
  have h := Tasks.solo_answer h
    (answers_alone .spawnTicker nextTickerId (by show _ ∉ spawned _; decide))
  have h := Tasks.solo_answer h (answers_alone .panics false trivial)
  have h := Tasks.solo_answer h (answers_alone (.watch nextTickerId) () trivial)
  have h := Tasks.solo_answer h (answers_alone .panics false trivial)
  have h := Tasks.solo_answer h (answers_alone (.returned true) () trivial)
  have h := Tasks.solo_jump h
  have h := Tasks.solo_answer h
    (answers_alone (.nextIncoming sweptHost) (some (.message ⟨(), 2⟩)) trivial)
  have h := Tasks.solo_answer h (answers_alone .panics false trivial)
  have h := Tasks.solo_answer h (answers_alone (.buffer () 2) () trivial)
  have h := Tasks.solo_answer h (answers_alone .panics false trivial)
  have h := Tasks.solo_answer h (answers_alone (.returned true) () trivial)
  exact h

end Buffering

/-- A host which has asked its entity to stop and holds a buffer, and one whose second entity has
replaced the first. -/
theorem one_incarnation_buffering :
    (Alone sweepConfig (.solo bufferingCalls (.ret (.running bufferingHost))) ∧
      Consistent sweepConfig bufferingCalls bufferingHost ∧
      bufferingHost.entries () = some (.stopping childId [2])) ∧
    ∃ w p, Reached sweepConfig sweepKind parentId True (Tasks.solo (w : World Unit Unit) p) ∧
      w.incarnations () = [childId, nextId] ∧ (w.sys.phase nextId).closed = false ∧
      ∀ a b, w.entity a = some () → w.entity b = some () →
        (w.sys.phase a).closed = false → (w.sys.phase b).closed = false → a = b := by
  refine ⟨⟨buffering_run, ?_, rfl⟩, ?_⟩
  · exact (((one_incarnation_per_key sweepConfig).1 _ buffering_run).1 _ rfl).1
  · obtain ⟨-, w, p, hr, -, hboth, -, hopen, -⟩ := sweep_runs True
    exact ⟨w, p, hr, hboth, hopen, ((one_incarnation_per_key sweepConfig).2 _ _ _ _ hr).1 ()⟩

end Tellus.Host
