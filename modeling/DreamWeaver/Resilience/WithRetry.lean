import DreamWeaver.Foundations.JsOrder
import DreamWeaver.Moderation.Repositories
import Mathlib.Data.ENat.Lattice

/-! # Retries

`withRetry` (`api/src/infrastructure/resilience.ts`) calls a function until it succeeds, with pauses between the calls
that double until they reach a bound. The outcomes of the function are any sequence; the log lines are left out. -/

namespace DreamWeaver.Resilience

open Proc

/-- `RetryOptions`, with `DEFAULT_OPTIONS` for those that are not given. -/
structure RetryOptions where
  maxRetries : ℕ := 3
  baseDelayMs : JsNumber := .finite 1000
  maxDelayMs : JsNumber := .finite 10000

/-- What `withRetry` awaits. -/
inductive RetryEffect where
  /-- `fn()` -/
  | call
  /-- `new Promise(resolve => setTimeout(resolve, delay))` -/
  | pause (delay : JsNumber)
  deriving DecidableEq

/-- The values that effects resolve with. -/
abbrev RetryEffect.Reply (α : Type) : RetryEffect → Type
  | .call => α
  | .pause _ => Unit

variable {α : Type}

/-- A procedure with these effects. -/
abbrev RetryProc (α : Type) := Proc RetryEffect (RetryEffect.Reply α) α

/-- An effect with its reply. -/
abbrev RetryEvent (α : Type) := Event RetryEffect (RetryEffect.Reply α)

/-- `Math.min(opts.baseDelayMs * Math.pow(2, attempt), opts.maxDelayMs)` -/
def RetryOptions.delay (opts : RetryOptions) (attempt : ℕ) : JsNumber :=
  .least (opts.baseDelayMs.mul (.ofExact (2 ^ attempt))) opts.maxDelayMs

/-- The loop from an attempt on, with so many attempts after it. -/
def attemptsFrom (opts : RetryOptions) (more attempt : ℕ) : RetryProc α :=
  retrying (fun attempt => perform (RetryEffect.pause (opts.delay attempt))) (perform RetryEffect.call) more attempt

/-- `withRetry` -/
def withRetry (opts : RetryOptions) : RetryProc α := attemptsFrom opts opts.maxRetries 0

/-- A call has the next outcome of the function; a pause ends. -/
def answer (outcomes : ℕ → Except JsError α) : (e : RetryEffect) → ℕ → Except JsError (e.Reply α) × ℕ
  | .call, calls => (outcomes calls, calls + 1)
  | .pause _, calls => (.ok (), calls)

/-- What `withRetry` does, its result, and the number of calls, where the function has these outcomes. -/
def retried (outcomes : ℕ → Except JsError α) (opts : RetryOptions) :
    List (RetryEvent α) × Except JsError α × ℕ :=
  record (answer outcomes) 0 (withRetry opts)

/-! ## The law -/

/-- The call with this number, from 0 on, succeeds. -/
def Succeeds (outcomes : ℕ → Except JsError α) (call : ℕ) : Prop := ∃ a, outcomes call = .ok a

/-- The position of the first success, from 1 on. -/
noncomputable def firstSuccess (outcomes : ℕ → Except JsError α) : ℕ∞ :=
  ⨅ call ∈ {call | Succeeds outcomes call}, ((call + 1 : ℕ) : ℕ∞)

/-- The delays of the pauses, in their order. -/
def delaysOf (log : List (RetryEvent α)) : List JsNumber :=
  log.filterMap fun event =>
    match event.effect with
    | .call => none
    | .pause delay => some delay

/-- **The law of the retries**, for outcomes of the function. -/
structure RetryLaw (outcomes : ℕ → Except JsError α) (opts : RetryOptions)
    (run : List (RetryEvent α) × Except JsError α × ℕ) : Prop where
  /-- The function is called until it succeeds, and `maxRetries` times more than once at the most. -/
  called : (run.2.2 : ℕ∞) = min (firstSuccess outcomes) (opts.maxRetries + 1)
  /-- The calls are all that is awaited, but for a pause between a call and the next one. -/
  awaited : run.1.map Event.effect =
    ((List.range (run.2.2 - 1)).flatMap fun attempt => [.call, .pause (opts.delay attempt)]) ++ [.call]
  /-- The first success is returned. -/
  returned : ∀ call : ℕ, firstSuccess outcomes = (call + 1 : ℕ) → call ≤ opts.maxRetries →
    run.2.1 = outcomes call ∧ Succeeds outcomes call
  /-- Where there is none, the error of the last call is thrown. -/
  thrown : opts.maxRetries + 1 < firstSuccess outcomes →
    run.2.1 = outcomes opts.maxRetries ∧ ¬ Succeeds outcomes opts.maxRetries
  /-- No delay exceeds the bound. -/
  capped : (JsNumber.finite 0).Le opts.baseDelayMs → (JsNumber.finite 0).Le opts.maxDelayMs →
    ∀ delay ∈ delaysOf run.1, ¬ (opts.maxDelayMs.Le delay ∧ opts.maxDelayMs ≠ delay)
  /-- For a positive base the delays do not decrease. -/
  nonDecreasing : opts.baseDelayMs.Pos → (JsNumber.finite 0).Le opts.maxDelayMs →
    (delaysOf run.1).Pairwise JsNumber.Le

/-! ## The calls -/

variable {outcomes : ℕ → Except JsError α} {opts : RetryOptions}

/-- An attempt that is not the last one is a call, and what its outcome leads to. -/
theorem record_attempt (more attempt : ℕ) :
    record (answer outcomes) attempt (attemptsFrom opts (more + 1) attempt) =
      let rest := record (answer outcomes) (attempt + 1) (catchWith (done (outcomes attempt)) fun _ => do
        perform (RetryEffect.pause (opts.delay attempt))
        attemptsFrom opts more (attempt + 1))
      (⟨.call, outcomes attempt⟩ :: rest.1, rest.2) := rfl

/-- A call that succeeds is the last one. -/
theorem record_of_ok {attempt : ℕ} {a : α} (hcall : outcomes attempt = .ok a) (more : ℕ) :
    record (answer outcomes) attempt (attemptsFrom opts more attempt) =
      ([⟨.call, outcomes attempt⟩], outcomes attempt, attempt + 1) := by
  cases more with
  | zero => rfl
  | succ more =>
    rw [record_attempt, hcall]
    rfl

/-- A call that rejects is followed by a pause and the next attempt. -/
theorem record_of_error {attempt : ℕ} {e : JsError} (hcall : outcomes attempt = .error e) (more : ℕ) :
    record (answer outcomes) attempt (attemptsFrom opts (more + 1) attempt) =
      let rest := record (answer outcomes) (attempt + 1) (attemptsFrom opts more (attempt + 1))
      (⟨.call, outcomes attempt⟩ :: ⟨.pause (opts.delay attempt), .ok ()⟩ :: rest.1, rest.2) := by
  rw [record_attempt, hcall]
  rfl

/-- The steps of attempts: a call and a pause for each but the last. -/
def stepsFrom (outcomes : ℕ → Except JsError α) (opts : RetryOptions) (attempt more : ℕ) : List (RetryEvent α) :=
  ((List.range' attempt more).flatMap fun i =>
    [⟨.call, outcomes i⟩, ⟨.pause (opts.delay i), .ok ()⟩]) ++ [⟨.call, outcomes (attempt + more)⟩]

/-- **The loop** goes on until a call succeeds or no attempts are left. -/
theorem exists_record (n attempt : ℕ) : ∃ more ≤ n, (∀ i < more, ¬ Succeeds outcomes (attempt + i)) ∧
    (Succeeds outcomes (attempt + more) ∨ more = n) ∧
    record (answer outcomes) attempt (attemptsFrom opts n attempt) =
      (stepsFrom outcomes opts attempt more, outcomes (attempt + more), attempt + more + 1) := by
  induction n generalizing attempt with
  | zero => exact ⟨0, le_rfl, by simp, .inr rfl, rfl⟩
  | succ n ih =>
    cases hcall : outcomes attempt with
    | ok a => exact ⟨0, Nat.zero_le _, by simp, .inl ⟨a, hcall⟩, record_of_ok hcall (n + 1)⟩
    | error e =>
      obtain ⟨more, hmore, hfail, hlast, hrun⟩ := ih (attempt + 1)
      have hnext : ∀ i, attempt + (i + 1) = attempt + 1 + i := fun i => by omega
      refine ⟨more + 1, Nat.succ_le_succ hmore, fun i hi => ?_, ?_, ?_⟩
      · cases i with
        | zero =>
          rintro ⟨a, ha⟩
          rw [Nat.add_zero, hcall] at ha
          cases ha
        | succ i =>
          rw [hnext i]
          exact hfail i (Nat.lt_of_succ_lt_succ hi)
      · rw [hnext more]
        exact hlast.imp_right fun heq => by rw [heq]
      · rw [record_of_error hcall, hrun, hnext more, stepsFrom, stepsFrom, hnext more, List.range'_succ,
          List.flatMap_cons]
        rfl

/-! ## The delays -/

variable {log : List (RetryEvent α)}

/-- The delays between so many calls. -/
theorem delaysOf_stepsFrom (attempt more : ℕ) :
    delaysOf (stepsFrom outcomes opts attempt more) = (List.range' attempt more).map opts.delay := by
  unfold stepsFrom delaysOf
  rw [List.filterMap_append]
  induction more generalizing attempt with
  | zero => rfl
  | succ more ih =>
    have hlast : attempt + (more + 1) = attempt + 1 + more := by omega
    rw [List.range'_succ, List.flatMap_cons, List.filterMap_append, List.append_assoc, hlast, ih]
    rfl

theorem pos_ofExact_pow (attempt : ℕ) : (JsNumber.ofExact (2 ^ attempt)).Pos := by
  have hone : (JsNumber.ofExact 1).Pos := by
    have hvalue : JsNumber.ofExact 1 = .finite 1 := by
      rw [JsNumber.ofExact_of_abs_le (by rw [abs_one]; exact one_le_pow₀ one_le_two), ← Nat.cast_one,
        double_natCast (by norm_num)]
    rw [hvalue]
    exact (one_pos : (0 : ℚ) < 1)
  exact hone.mono (JsNumber.ofExact_mono zero_le_one (one_le_pow₀ one_le_two))

/-- **The delays grow** with the attempts. -/
theorem delay_mono (hbase : opts.baseDelayMs.Pos) (hmax : opts.maxDelayMs ≠ .nan) {i j : ℕ} (h : i ≤ j) :
    (opts.delay i).Le (opts.delay j) :=
  JsNumber.least_mono (JsNumber.mul_mono hbase (pos_ofExact_pow i)
    (JsNumber.ofExact_mono (by positivity) (pow_le_pow_right₀ one_le_two h))) hmax

/-- A delay is not larger than the bound. -/
theorem delay_capped (hmax : opts.maxDelayMs ≠ .nan) (attempt : ℕ) :
    ¬ (opts.maxDelayMs.Le (opts.delay attempt) ∧ opts.maxDelayMs ≠ opts.delay attempt) := by
  rintro ⟨hle, hne⟩
  unfold RetryOptions.delay at hle hne
  by_cases hproduct : opts.baseDelayMs.mul (.ofExact (2 ^ attempt)) = .nan
  · -- nothing exceeds NaN
    rw [hproduct] at hle
    exact absurd rfl hle.ne_nan_right
  · exact hne (hle.antisymm (JsNumber.least_le_right hproduct hmax))

/-- A natural number that is not too large is exact. -/
theorem ofExact_natCast {n : ℕ} (h : n ≤ 2 ^ 53) : JsNumber.ofExact n = .finite n := by
  have hsmall : |(n : ℚ)| ≤ 2 ^ 1023 := by
    rw [abs_of_nonneg n.cast_nonneg]
    calc (n : ℚ) ≤ 2 ^ 53 := by exact_mod_cast h
      _ ≤ 2 ^ 1023 := pow_le_pow_right₀ one_le_two (by decide)
  rw [JsNumber.ofExact_of_abs_le hsmall, double_natCast h]

/-- **The repositories** pause as the default options say, before each of the three attempts after the first. -/
theorem delay_of_backoff {attempt : ℕ} (h : attempt < 3) : ∃ delay : ℕ,
    ({} : RetryOptions).delay attempt = .finite delay ∧
      Moderation.backoff attempt = perform (Moderation.StorageEffect.pause delay) := by
  refine ⟨min (1000 * 2 ^ attempt) 10000, ?_, rfl⟩
  have hpow : 2 ^ attempt ≤ 2 ^ 3 := Nat.pow_le_pow_right (by decide) h.le
  have hproduct : (JsNumber.finite 1000).mul (.ofExact (2 ^ attempt)) = .finite ((1000 * 2 ^ attempt : ℕ) : ℚ) := by
    have hfactor : JsNumber.ofExact (2 ^ attempt) = .finite ((2 ^ attempt : ℕ) : ℚ) := by
      rw [← ofExact_natCast (hpow.trans (by norm_num))]
      push_cast
      rfl
    rw [hfactor, ← ofExact_natCast (by omega : 1000 * 2 ^ attempt ≤ 2 ^ 53), JsNumber.mul]
    push_cast
    rfl
  rw [RetryOptions.delay, hproduct, JsNumber.least, Nat.cast_min]
  rfl

/-! ## All of it -/

theorem firstSuccess_eq {call : ℕ} (hcall : Succeeds outcomes call) (hfail : ∀ i < call, ¬ Succeeds outcomes i) :
    firstSuccess outcomes = (call + 1 : ℕ) := by
  refine le_antisymm (iInf₂_le call hcall) (le_iInf₂ fun i hi => ?_)
  have hle : call ≤ i := not_lt.mp fun hlt => hfail i hlt hi
  exact_mod_cast Nat.succ_le_succ hle

theorem le_firstSuccess {n : ℕ} (hfail : ∀ i < n, ¬ Succeeds outcomes i) :
    ((n + 1 : ℕ) : ℕ∞) ≤ firstSuccess outcomes := by
  refine le_iInf₂ fun i hi => ?_
  have hle : n ≤ i := not_lt.mp fun hlt => hfail i hlt hi
  exact_mod_cast Nat.succ_le_succ hle

/-- The first success is one. -/
theorem succeeds_of_firstSuccess {call : ℕ} (h : firstSuccess outcomes = (call + 1 : ℕ)) : Succeeds outcomes call := by
  by_contra hcall
  have hfail : ∀ i < call + 1, ¬ Succeeds outcomes i := by
    intro i hi hsuccess
    have hle : firstSuccess outcomes ≤ (i + 1 : ℕ) := iInf₂_le i hsuccess
    rw [h, Nat.cast_le] at hle
    obtain rfl : i = call := by omega
    exact hcall hsuccess
  have hle := le_firstSuccess hfail
  rw [h, Nat.cast_le] at hle
  exact Nat.not_succ_le_self _ hle

/-- **`withRetry`** keeps to the law, whatever the outcomes and the options are. -/
theorem retry_law (outcomes : ℕ → Except JsError α) (opts : RetryOptions) :
    RetryLaw outcomes opts (retried outcomes opts) := by
  obtain ⟨more, hmore, hfail, hlast, hrun⟩ := @exists_record _ outcomes opts opts.maxRetries 0
  rw [retried, withRetry, hrun]
  simp only [Nat.zero_add] at hfail hlast ⊢
  have hdelays := @delaysOf_stepsFrom _ outcomes opts 0 more
  rw [← List.range_eq_range'] at hdelays
  refine ⟨?_, ?_, ?_, ?_, ?_, ?_⟩
  · rcases hlast with hsuccess | rfl
    · rw [firstSuccess_eq hsuccess hfail, min_eq_left]
      exact_mod_cast Nat.succ_le_succ hmore
    · rw [min_eq_right]
      · exact Nat.cast_succ _
      · exact_mod_cast le_firstSuccess hfail
  · simp [stepsFrom, List.range_eq_range', List.map_flatMap]
  · intro call hfirst hle
    have hsuccess := succeeds_of_firstSuccess hfirst
    -- no call before the first success is one, and the loop does not end before it
    obtain rfl : more = call := by
      rcases hlast with hlast | rfl
      · rw [firstSuccess_eq hlast hfail, Nat.cast_inj] at hfirst
        omega
      · have hlater := le_firstSuccess hfail
        rw [hfirst, Nat.cast_le] at hlater
        omega
    exact ⟨rfl, hsuccess⟩
  · intro hnone
    have hlate : ∀ call ≤ opts.maxRetries, (∀ i < call, ¬ Succeeds outcomes i) → ¬ Succeeds outcomes call := by
      intro call hle hbefore hsuccess
      rw [firstSuccess_eq hsuccess hbefore] at hnone
      exact absurd (Nat.succ_le_succ hle) (not_le.mpr (by exact_mod_cast hnone))
    obtain rfl := hlast.resolve_left (hlate more hmore hfail)
    exact ⟨rfl, hlate _ le_rfl hfail⟩
  · intro _ hmax delay hmem
    rw [hdelays] at hmem
    obtain ⟨attempt, -, rfl⟩ := List.mem_map.mp hmem
    exact delay_capped hmax.ne_nan_right attempt
  · intro hbase hmax
    rw [hdelays, List.pairwise_map]
    exact List.pairwise_le_range.imp fun h => delay_mono hbase hmax.ne_nan_right h

end DreamWeaver.Resilience
