import Mathlib.Tactic
import Tellus.Lib.Duration
import Tellus.Actor.Loop

/-!
The numbers behind a restart (`backoff.rs`, `actor_config.rs`, `next_restart` of
`actor_context.rs`), in the machine words the code computes with.

The run loop is modelled over natural numbers (`Tellus.Backoff`, `Tellus.nextRestart`): here the
spans of time are seconds and nanoseconds, the steps and the counted restarts words of 32 bits.

* `Backoff.duration`: the delay of a step.
* `nextRestart`: whether and when a failed actor is restarted.
* `asNanos_duration`, `nextRestart_inNanos`: measured in nanoseconds, these are the functions of
  the run loop.
* `duration_doubles_iff`: the delay doubles up to the cap unless the factor of a step from 32 on
  falls short of it.
* `failures_counted`: along any failures, the counter follows the streak.
-/

namespace Tellus

namespace Supervision

open Machine

/-! ### The backoff -/

/-- The bounds of an exponential backoff. -/
structure Backoff where
  min : Duration
  max : Duration
  min_le_max : ¬ max < min
  deriving DecidableEq

/-- The bounds given contradict each other. -/
structure InvalidBackoff where
  min : Duration
  max : Duration
  deriving DecidableEq

namespace Backoff

/-- The bounds of a backoff starting at `min` and capped at `max`. -/
def new (min max : Duration) : Except InvalidBackoff Backoff :=
  if h : max < min then .error ⟨min, max⟩ else .ok ⟨min, max, h⟩

/-- The delay for the step, counted from zero. -/
def duration (b : Backoff) (step : UInt32) : Duration :=
  let factor := (checkedShl 1 step).getD 4294967295
  (b.min.saturatingMul factor).min b.max

/-- The `min` of the default, 250 milliseconds. -/
def defaultMin : Duration := ⟨0, 250000000, by decide⟩

/-- The `max` of the default, 4 seconds. -/
def defaultMax : Duration := .fromSecs 4

/-- The default, whose bounds are ordered as `new` expects. -/
def default : Backoff := ⟨defaultMin, defaultMax, by decide⟩

/-- The backoff in nanoseconds. -/
def inNanos (b : Backoff) : Tellus.Backoff where
  min := b.min.asNanos
  max := b.max.asNanos
  min_le_max := Nat.le_of_not_lt (Duration.lt_iff_asNanos_lt.not.mp b.min_le_max)

lemma new_eq_ok {min max : Duration} {b : Backoff} :
    new min max = .ok b ↔ b.min = min ∧ b.max = max := by
  unfold new
  constructor
  · intro h
    split at h
    · cases h
    · cases h
      exact ⟨rfl, rfl⟩
  · rintro ⟨rfl, rfl⟩
    rw [dif_neg b.min_le_max]

/-- The saturation of the product is never seen, since no cap is above it. -/
lemma asNanos_duration (b : Backoff) (step : UInt32) :
    (b.duration step).asNanos
      = b.min.asNanos * (if step.toNat < 32 then 2 ^ step.toNat else 2 ^ 32 - 1)
        ⊓ b.max.asNanos := by
  have hmax := b.max.asNanos_le_max
  rw [duration, Duration.asNanos_min, Duration.asNanos_saturatingMul, toNat_checkedShl_one,
    Nat.min_assoc, Nat.min_eq_right hmax]

/-- In nanoseconds, the delay is the one of the run loop. -/
lemma duration_inNanos (b : Backoff) (step : UInt32) :
    b.inNanos.duration step.toNat = (b.duration step).asNanos :=
  (b.asNanos_duration step).symm

end Backoff

/-- A delay doubled at every step and capped is what the code computes, unless the step is one
of those whose factor is replaced by the largest word, and this factor falls short of the cap. -/
theorem duration_doubles_iff {min max : Duration} {b : Backoff}
    (h : Backoff.new min max = .ok b) (step : UInt32) :
    (b.duration step).asNanos = max.asNanos ⊓ (min.asNanos * 2 ^ step.toNat)
      ↔ step.toNat < 32 ∨ min = Duration.zero
        ∨ max.asNanos ≤ min.asNanos * (2 ^ 32 - 1) := by
  obtain ⟨rfl, rfl⟩ := Backoff.new_eq_ok.mp h
  have hzero : b.min = Duration.zero ↔ b.min.asNanos = 0 := Duration.asNanos_inj.symm
  rw [b.asNanos_duration, hzero]
  generalize b.min.asNanos = min, b.max.asNanos = max
  by_cases hstep : step.toNat < 32
  · rw [if_pos hstep, Nat.min_comm]
    simp only [hstep, true_or]
  · have hpow : 2 ^ 32 ≤ 2 ^ step.toNat := Nat.pow_le_pow_right (by decide) (by omega)
    have hmul := Nat.mul_le_mul_left min hpow
    rw [if_neg hstep]
    simp only [hstep, false_or]
    rcases Nat.eq_zero_or_pos min with rfl | hmin
    · simp
    · generalize min * 2 ^ step.toNat = wide at *
      omega

/-- A backoff from one nanosecond up to 2 ^ 32 of them. -/
def fromNanosecond : Backoff := ⟨⟨0, 1, by decide⟩, ⟨4, 294967296, by decide⟩, by decide⟩

/-- Up to step 31 the factor is the power of two. -/
theorem duration_doubles_iff_fromNanosecond :
    Backoff.new fromNanosecond.min fromNanosecond.max = .ok fromNanosecond
      ∧ (fromNanosecond.duration 31).asNanos
        = fromNanosecond.max.asNanos ⊓ (fromNanosecond.min.asNanos * 2 ^ (31 : UInt32).toNat) := by
  have hnew : Backoff.new fromNanosecond.min fromNanosecond.max = .ok fromNanosecond := rfl
  exact ⟨hnew, (duration_doubles_iff hnew 31).mpr (.inl (by decide))⟩

/-- At step 32 it falls short by one, and so does the delay. -/
theorem duration_falls_short :
    Backoff.new fromNanosecond.min fromNanosecond.max = .ok fromNanosecond
      ∧ (fromNanosecond.duration 32).asNanos = 2 ^ 32 - 1
      ∧ (fromNanosecond.duration 32).asNanos
        ≠ fromNanosecond.max.asNanos ⊓ (fromNanosecond.min.asNanos * 2 ^ (32 : UInt32).toNat) :=
  ⟨rfl, by decide +kernel, by decide +kernel⟩

/-! ### The decision to restart -/

/-- The limit and pacing for restarts. -/
structure RestartPolicy where
  maxRestarts : UInt32
  maxRestarts_ne_zero : maxRestarts ≠ 0
  backoff : Backoff
  resetAfter : Duration

/-- A policy with the given limit, paced by the default backoff and reset after 30 seconds. -/
def RestartPolicy.new (maxRestarts : UInt32) (h : maxRestarts ≠ 0) : RestartPolicy :=
  ⟨maxRestarts, h, .default, .fromSecs 30⟩

/-- What becomes of a failed actor. -/
inductive SupervisionStrategy where
  | stop
  | restart (policy : RestartPolicy)

/-- The decision of `nextRestart`. -/
inductive Restart where
  | notConfigured
  | limitExceeded
  | after (delay : Duration)
  deriving DecidableEq

/-- Whether an incarnation was up, and for long enough for its streak to end. -/
def RestartPolicy.resets (policy : RestartPolicy) (uptime : Option Duration) : Bool :=
  uptime.any fun elapsed => policy.resetAfter ≤ elapsed

/-- The restarts of the streak a failure belongs to. -/
def RestartPolicy.streak (policy : RestartPolicy) (uptime : Option Duration) (restarts : UInt32) :
    UInt32 :=
  if policy.resets uptime then 0 else restarts

/-- Whether to restart, and the restarts counted from then on; `uptime` is how long the failed
incarnation was up, if it came up at all. -/
def nextRestart (strategy : SupervisionStrategy) (uptime : Option Duration) (restarts : UInt32) :
    Restart × UInt32 :=
  match strategy with
  | .stop => (.notConfigured, restarts)
  | .restart policy =>
      let restarts := policy.streak uptime restarts
      if policy.maxRestarts ≤ restarts then
        (.limitExceeded, restarts)
      else
        (.after (policy.backoff.duration restarts), restarts + 1)

/-! ### The decision in the run loop -/

/-- The policy in nanoseconds. -/
def RestartPolicy.inNanos (policy : RestartPolicy) : Tellus.RestartPolicy where
  maxRestarts := policy.maxRestarts.toNat
  maxRestarts_pos := Nat.pos_of_ne_zero fun h =>
    policy.maxRestarts_ne_zero (UInt32.toNat_inj.mp h)
  backoff := policy.backoff.inNanos
  resetAfter := policy.resetAfter.asNanos

/-- The strategy in nanoseconds. -/
def SupervisionStrategy.inNanos : SupervisionStrategy → Tellus.SupervisionStrategy
  | .stop => .stop
  | .restart policy => .restart policy.inNanos

/-- The decision in nanoseconds. -/
def Restart.inNanos : Restart → Tellus.Restart
  | .notConfigured => .notConfigured
  | .limitExceeded => .limitExceeded
  | .after delay => .after delay.asNanos

/-- Below the limit, which is a word, one more restart can be counted. -/
lemma toNat_add_one {policy : RestartPolicy} {n : UInt32} (h : ¬ policy.maxRestarts ≤ n) :
    (n + 1).toNat = n.toNat + 1 := by
  have hmax := policy.maxRestarts.toNat_lt
  rw [UInt32.le_iff_toNat_le] at h
  rw [UInt32.toNat_add, UInt32.toNat_one]
  exact Nat.mod_eq_of_lt (by omega)

/-- Whether the strategy lets the streak end, which is asked of a policy only. -/
def SupervisionStrategy.resets (uptime : Option Duration) : SupervisionStrategy → Bool
  | .stop => false
  | .restart policy => policy.resets uptime

lemma toNat_streak (policy : RestartPolicy) (uptime : Option Duration) (restarts : UInt32) :
    (policy.streak uptime restarts).toNat
      = if policy.resets uptime then 0 else restarts.toNat := by
  unfold RestartPolicy.streak
  split
  · exact UInt32.toNat_zero
  · rfl

/-- Measured in nanoseconds and with a counter which never wraps, this is the decision the run
loop makes once it has asked how long the actor was up. -/
theorem nextRestart_inNanos (strategy : SupervisionStrategy) (uptime : Option Duration)
    (restarts : UInt32) :
    Tellus.nextRestart strategy.inNanos (strategy.resets uptime) restarts.toNat
      = ((nextRestart strategy uptime restarts).1.inNanos,
        (nextRestart strategy uptime restarts).2.toNat) := by
  cases strategy with
  | stop => rfl
  | restart policy =>
      change Tellus.nextRestart (.restart policy.inNanos) (policy.resets uptime) _ = _
      simp only [nextRestart, Tellus.nextRestart, ← toNat_streak]
      generalize policy.streak uptime restarts = n
      have hle : policy.inNanos.maxRestarts ≤ n.toNat ↔ policy.maxRestarts ≤ n :=
        UInt32.le_iff_toNat_le.symm
      by_cases h : policy.maxRestarts ≤ n
      · rw [if_pos h, if_pos (hle.mpr h)]
        rfl
      · rw [if_neg h, if_neg (hle.not.mpr h), toNat_add_one h]
        simp only [Restart.inNanos, RestartPolicy.inNanos, Backoff.duration_inNanos]

/-! ### Streaks of failures -/

section Streaks

variable (policy : RestartPolicy) (failures : ℕ → Option Duration)

/-- The counter before the failure numbered `i`, each failure given by the uptime it ended. -/
def counter : ℕ → UInt32
  | 0 => 0
  | i + 1 => (nextRestart (.restart policy) (failures i) (counter i)).2

/-- The decision on the failure numbered `i`. -/
def decision (i : ℕ) : Restart :=
  (nextRestart (.restart policy) (failures i) (counter policy failures i)).1

/-- A streak starts with the first failure, and with each one after a long enough uptime. -/
def Starts (i : ℕ) : Prop :=
  i = 0 ∨ ∃ uptime, failures i = some uptime ∧ policy.resetAfter ≤ uptime

lemma resets_iff {policy : RestartPolicy} {failures : ℕ → Option Duration} {i : ℕ} :
    policy.resets (failures i) = true
      ↔ ∃ uptime, failures i = some uptime ∧ policy.resetAfter ≤ uptime := by
  cases h : failures i with
  | none => simp [RestartPolicy.resets]
  | some uptime => simp [RestartPolicy.resets]

instance (i : ℕ) : Decidable (Starts policy failures i) :=
  decidable_of_iff (i = 0 ∨ policy.resets (failures i) = true) (or_congr_right resets_iff)

/-- The failures before the one numbered `i` in its streak: those since the last start. -/
def earlier (i : ℕ) : ℕ := i - Nat.findGreatest (Starts policy failures) i

variable {policy failures} {i : ℕ}

/-- What a failure does to the counter, by whether the streak is at its limit. -/
lemma decision_cases (policy : RestartPolicy) (failures : ℕ → Option Duration) (i : ℕ) :
    let n := policy.streak (failures i) (counter policy failures i)
    (policy.maxRestarts.toNat ≤ n.toNat ∧ decision policy failures i = .limitExceeded
        ∧ counter policy failures (i + 1) = n)
      ∨ (n.toNat < policy.maxRestarts.toNat
        ∧ decision policy failures i = .after (policy.backoff.duration n)
        ∧ counter policy failures (i + 1) = n + 1 ∧ (n + 1).toNat = n.toNat + 1) := by
  intro n
  simp only [decision, counter, nextRestart]
  by_cases h : policy.maxRestarts ≤ n
  · rw [if_pos h]
    exact .inl ⟨UInt32.le_iff_toNat_le.mp h, rfl, rfl⟩
  · rw [if_neg h]
    exact .inr ⟨Nat.lt_of_not_le (UInt32.le_iff_toNat_le.not.mp h), rfl, rfl, toNat_add_one h⟩

lemma earlier_succ_of_starts (h : Starts policy failures (i + 1)) :
    earlier policy failures (i + 1) = 0 := by
  rw [earlier, Nat.findGreatest_eq h, Nat.sub_self]

lemma earlier_succ_of_not_starts (h : ¬ Starts policy failures (i + 1)) :
    earlier policy failures (i + 1) = earlier policy failures i + 1 := by
  have hle := Nat.findGreatest_le (P := Starts policy failures) i
  rw [earlier, earlier, Nat.findGreatest_of_not h]
  omega

/-- The invariant: at each failure up to the first above the limit, the counter says how many
failures of the streak there were before, and these are at most as many as the limit. -/
lemma toNat_streak_counter (h : ∀ j < i, decision policy failures j ≠ .limitExceeded) :
    (policy.streak (failures i) (counter policy failures i)).toNat = earlier policy failures i
      ∧ earlier policy failures i ≤ policy.maxRestarts.toNat := by
  induction i with
  | zero =>
      have hzero : earlier policy failures 0 = 0 := by simp [earlier]
      rw [hzero, toNat_streak]
      exact ⟨by simp [counter], Nat.zero_le _⟩
  | succ i ih =>
      obtain ⟨hn, hk⟩ := ih fun j hj => h j (by omega)
      rw [toNat_streak]
      by_cases hreset : policy.resets (failures (i + 1)) = true
      · rw [if_pos hreset, earlier_succ_of_starts (.inr (resets_iff.mp hreset))]
        exact ⟨rfl, Nat.zero_le _⟩
      · have hnot : ¬ Starts policy failures (i + 1) := by
          rintro (hz | hs)
          · omega
          · exact hreset (resets_iff.mpr hs)
        rw [if_neg hreset, earlier_succ_of_not_starts hnot]
        -- The failure before was answered with a restart, so it was counted.
        rcases decision_cases policy failures i with ⟨-, hlim, -⟩ | ⟨hlt, -, hc, hsucc⟩
        · exact absurd hlim (h i (by omega))
        · rw [hc, hsucc]
          omega

/-- **The streak is counted.**  Up to the first decision against a restart, a failure with `k`
others before it in its streak finds `k` in the counter.  Below the limit the actor is restarted
after the delay of step `k`, and the counter goes up by one without wrapping; at the limit it is
not, and the counter stays where it is. -/
theorem failures_counted (policy : RestartPolicy) (failures : ℕ → Option Duration) (i : ℕ)
    (h : ∀ j < i, decision policy failures j ≠ .limitExceeded) :
    let k := earlier policy failures i
    let n := policy.streak (failures i) (counter policy failures i)
    n.toNat = k ∧ k ≤ policy.maxRestarts.toNat
      ∧ (k < policy.maxRestarts.toNat →
        decision policy failures i = .after (policy.backoff.duration n)
          ∧ k + 1 < 2 ^ 32 ∧ (counter policy failures (i + 1)).toNat = k + 1)
      ∧ (k = policy.maxRestarts.toNat →
        decision policy failures i = .limitExceeded
          ∧ (counter policy failures (i + 1)).toNat = k)
      ∧ (counter policy failures (i + 1)).toNat ≤ policy.maxRestarts.toNat := by
  intro k n
  obtain ⟨hn, hk⟩ := toNat_streak_counter h
  have hword := policy.maxRestarts.toNat_lt
  rcases decision_cases policy failures i with ⟨hlim, hd, hc⟩ | ⟨hlt, hd, hc, hsucc⟩
  · rw [hc]
    refine ⟨hn, hk, ?_, ?_, ?_⟩
    · intro hlt
      omega
    · exact fun _ => ⟨hd, hn⟩
    · omega
  · rw [hc, hsucc]
    refine ⟨hn, hk, ?_, ?_, ?_⟩
    · exact fun _ => ⟨hd, by omega, by omega⟩
    · intro heq
      omega
    · omega

end Streaks

/-- One restart in a streak, which a second of uptime ends. -/
def once : RestartPolicy := ⟨1, by decide, fromNanosecond, .fromSecs 1⟩

/-- An actor which only the second time comes up for long enough. -/
def recovering (i : ℕ) : Option Duration := if i = 1 then some (.fromSecs 1) else none

/-- The second failure starts a streak of its own, and the third exceeds its limit. -/
theorem failures_counted_recovering :
    (∀ j < 2, decision once recovering j ≠ .limitExceeded)
      ∧ earlier once recovering 2 = 1 ∧ decision once recovering 2 = .limitExceeded
      ∧ (counter once recovering 3).toNat = 1 := by
  have h : ∀ j < 2, decision once recovering j ≠ .limitExceeded := by decide +kernel
  have hk : earlier once recovering 2 = 1 := by decide +kernel
  have hlimit : earlier once recovering 2 = once.maxRestarts.toNat := hk
  obtain ⟨-, -, -, hexceeded, -⟩ := failures_counted once recovering 2 h
  obtain ⟨hd, hc⟩ := hexceeded hlimit
  exact ⟨h, hk, hd, hc.trans hk⟩

/-- The failure above the limit is the second of its streak, yet the counter says one. -/
theorem limit_not_counted :
    decision once (fun _ => none) 0 ≠ .limitExceeded
      ∧ decision once (fun _ => none) 1 = .limitExceeded
      ∧ (counter once (fun _ => none) 2).toNat ≠ earlier once (fun _ => none) 1 + 1 := by
  decide +kernel

end Supervision

end Tellus
