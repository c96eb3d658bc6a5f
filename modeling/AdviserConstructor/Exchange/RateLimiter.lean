import AdviserConstructor.Library.DecimalText
import AdviserConstructor.Library.InsertionDict
import Mathlib.Data.List.Induction
import Mathlib.Data.List.ReduceOption
import Mathlib.Tactic.Linarith

/-!
# The adaptive rate limiter

The limiter keeps the counters that the exchange reports in its response headers and decides from
them whether an order may be placed.  A counter is overwritten by the next response that reports it
and by nothing else: the windows of the counters, ten seconds and a minute, are not in the code, and
the reset times only decide how long the caller is told to wait.

* `pace_counter`: after any sequence of responses a counter is the last value reported for it;
* `canProceed_pace_iff`: whether an order may be placed depends on these last values alone.

Both are for the two exchanges.  Headers are text; values that are not numbers are ignored, as the
code does.
-/

namespace AdviserConstructor

open DecimalText

/-! ## Headers -/

/-- The exchanges the limiter knows. -/
inductive LimitedExchange where
  | binance | bybit
  deriving DecidableEq, Repr

/-- The headers of a response, and when it arrived. -/
structure HeaderResponse where
  receivedAt : ℚ
  headers : List (String × String)
  deriving DecidableEq, Repr

/-- `normalized_headers.get`: the last header with this name, in any case. -/
def headerValue (headers : List (String × String)) (name : String) : Option String :=
  (headers.reverse.find? fun header => lowered header.1 = name).map Prod.snd

/-- `_to_int` of a header. -/
def headerInt (response : HeaderResponse) (name : String) : Option ℤ :=
  (headerValue response.headers name).bind parseTruncated

/-- `_to_float` of a header. -/
def headerFloat (response : HeaderResponse) (name : String) : Option ℚ :=
  (headerValue response.headers name).bind parseDecimal

/-! ## The limiter -/

/-- `AdaptiveRateLimiter`. -/
structure AdaptiveRateLimiter where
  exchange : LimitedExchange
  counters : InsertionDict String ℤ := .empty
  resetTimes : InsertionDict String ℚ := .empty

namespace AdaptiveRateLimiter

/-- `_limits`. -/
def limitOrderCount10s : ℚ := 300

@[inherit_doc limitOrderCount10s]
def limitOrderCount1m : ℚ := 1200

@[inherit_doc limitOrderCount10s]
def limitWeightUsed1m : ℚ := 2400

@[inherit_doc limitOrderCount10s]
def limitRemaining : ℤ := 100

/-- Store a counter that a response reports. -/
def storeCounter (limiter : AdaptiveRateLimiter) (name : String) (value : Option ℤ) :
    AdaptiveRateLimiter :=
  match value with
  | some count => { limiter with counters := limiter.counters.assign name count }
  | none => limiter

/-- Store a time at which the exchange says a limit is reset. -/
def storeReset (limiter : AdaptiveRateLimiter) (name : String) (value : Option ℚ) :
    AdaptiveRateLimiter :=
  match value with
  | some time => { limiter with resetTimes := limiter.resetTimes.assign name time }
  | none => limiter

/-- The `retry-after` header as a point in time, if it is positive. -/
def retryAfterTime (response : HeaderResponse) : Option ℚ :=
  (headerFloat response "retry-after").bind fun retryAfter =>
    if 0 < retryAfter then some (response.receivedAt + retryAfter) else none

/-- `_parse_binance_headers`. -/
def parseBinanceHeaders (limiter : AdaptiveRateLimiter) (response : HeaderResponse) :
    AdaptiveRateLimiter :=
  (((limiter.storeCounter
    "order_count_10s" (headerInt response "x-mbx-order-count-10s")).storeCounter
    "order_count_1m" (headerInt response "x-mbx-order-count-1m")).storeCounter
    "weight_used_1m" (headerInt response "x-mbx-used-weight-1m")).storeReset
    "retry_after" (retryAfterTime response)

/-- `_parse_bybit_headers`; the reset time comes in milliseconds. -/
def parseBybitHeaders (limiter : AdaptiveRateLimiter) (response : HeaderResponse) :
    AdaptiveRateLimiter :=
  ((limiter.storeCounter "remaining" (headerInt response "x-bapi-limit-status")).storeReset
    "main" ((headerFloat response "x-bapi-limit-reset-timestamp").map (· / 1000))).storeReset
    "retry_after" (retryAfterTime response)

/-- `update_from_headers`. -/
def updateFromHeaders (limiter : AdaptiveRateLimiter) (response : HeaderResponse) :
    AdaptiveRateLimiter :=
  match limiter.exchange with
  | .binance => limiter.parseBinanceHeaders response
  | .bybit => limiter.parseBybitHeaders response

/-- The usage of the ten-second order window; bursts are smoothed below 98%. -/
def ratio10s (orderCount : ℤ) : ℚ :=
  if (orderCount : ℚ) / limitOrderCount10s < 98 / 100 then
    (orderCount : ℚ) / (limitOrderCount10s + 50)
  else (orderCount : ℚ) / limitOrderCount10s

/-- The usages of the windows that the exchange has reported. -/
def ratios (limiter : AdaptiveRateLimiter) : List ℚ :=
  [ (limiter.counters.get? "order_count_10s").map ratio10s,
    (limiter.counters.get? "order_count_1m").map fun count => (count : ℚ) / limitOrderCount1m,
    (limiter.counters.get? "weight_used_1m").map fun count =>
      (count : ℚ) / limitWeightUsed1m ].reduceOption

/-- `_get_usage_pct`. -/
def getUsagePct (limiter : AdaptiveRateLimiter) : ℚ :=
  match limiter.exchange with
  | .binance =>
      match limiter.ratios.max? with
      | none => 0
      | some ratio => max 0 (min ratio 1)
  | .bybit =>
      match limiter.counters.get? "remaining" with
      | none => 0
      | some remaining =>
          let used := max 0 (limitRemaining - max 0 remaining)
          max 0 (min ((used : ℚ) / limitRemaining) 1)

/-- `_time_until_reset`. -/
def timeUntilReset (limiter : AdaptiveRateLimiter) (now : ℚ) : ℚ :=
  match ((limiter.resetTimes.entries.map fun entry => max 0 (entry.2 - now)).filter
      (0 < ·)).min? with
  | some wait => wait
  | none =>
      match limiter.exchange with
      | .binance =>
          match limiter.counters.get? "order_count_10s" with
          | some count => if truncate (limitOrderCount10s * (98 / 100)) ≤ count then 1 else 0
          | none => 0
      | .bybit =>
          match limiter.counters.get? "remaining" with
          | some remaining =>
              if remaining ≤ max 1 (truncate ((limitRemaining : ℚ) * (1 / 10))) then 1 else 0
          | none => 0

/-- `can_proceed`: whether an order may be placed, and the wait otherwise. -/
def canProceed (limiter : AdaptiveRateLimiter) (isSl : Bool) (now : ℚ) : Bool × ℚ :=
  if isSl then (true, 0)
  else if 9 / 10 ≤ limiter.getUsagePct then (false, limiter.timeUntilReset now)
  else if 7 / 10 ≤ limiter.getUsagePct then (true, 1 / 5)
  else (true, 0)

/-- The limiter after the responses, oldest first. -/
def pace (exchange : LimitedExchange) (responses : List HeaderResponse) : AdaptiveRateLimiter :=
  responses.foldl updateFromHeaders { exchange := exchange }

/-! ## What the counters hold -/

/-- The counters of an exchange, each with the header that reports it. -/
def counterHeaders : LimitedExchange → List (String × String)
  | .binance =>
      [ ("order_count_10s", "x-mbx-order-count-10s"), ("order_count_1m", "x-mbx-order-count-1m"),
        ("weight_used_1m", "x-mbx-used-weight-1m") ]
  | .bybit => [("remaining", "x-bapi-limit-status")]

/-- The last number that the responses report in a header. -/
def lastReported (responses : List HeaderResponse) (header : String) : Option ℤ :=
  (responses.filterMap fun response => headerInt response header).getLast?

theorem lastReported_append (responses : List HeaderResponse) (response : HeaderResponse)
    (header : String) :
    lastReported (responses ++ [response]) header =
      (headerInt response header).or (lastReported responses header) := by
  unfold lastReported
  cases hvalue : headerInt response header with
  | none => simp [hvalue]
  | some count => simp [hvalue]

theorem get?_storeCounter (limiter : AdaptiveRateLimiter) (name key : String) (value : Option ℤ) :
    (limiter.storeCounter name value).counters.get? key =
      if key = name then value.or (limiter.counters.get? key) else limiter.counters.get? key := by
  cases value with
  | none => simp [storeCounter]
  | some count =>
    rw [storeCounter, InsertionDict.get?_assign]
    simp

@[simp] theorem storeReset_counters (limiter : AdaptiveRateLimiter) (name : String)
    (value : Option ℚ) : (limiter.storeReset name value).counters = limiter.counters := by
  cases value <;> rfl

@[simp] theorem storeCounter_exchange (limiter : AdaptiveRateLimiter) (name : String)
    (value : Option ℤ) : (limiter.storeCounter name value).exchange = limiter.exchange := by
  cases value <;> rfl

@[simp] theorem storeReset_exchange (limiter : AdaptiveRateLimiter) (name : String)
    (value : Option ℚ) : (limiter.storeReset name value).exchange = limiter.exchange := by
  cases value <;> rfl

theorem updateFromHeaders_exchange (limiter : AdaptiveRateLimiter) (response : HeaderResponse) :
    (limiter.updateFromHeaders response).exchange = limiter.exchange := by
  unfold updateFromHeaders
  split
  · simp [parseBinanceHeaders]
  · simp [parseBybitHeaders]

theorem updateFromHeaders_counter {limiter : AdaptiveRateLimiter} {name header : String}
    (hcounter : (name, header) ∈ counterHeaders limiter.exchange) (response : HeaderResponse) :
    (limiter.updateFromHeaders response).counters.get? name =
      (headerInt response header).or (limiter.counters.get? name) := by
  unfold updateFromHeaders
  cases hexchange : limiter.exchange with
  | binance =>
    rw [hexchange] at hcounter
    simp only [counterHeaders, List.mem_cons, List.not_mem_nil, or_false] at hcounter
    simp only [parseBinanceHeaders, storeReset_counters, get?_storeCounter]
    rcases hcounter with ⟨rfl, rfl⟩ | ⟨rfl, rfl⟩ | ⟨rfl, rfl⟩ <;> simp
  | bybit =>
    rw [hexchange] at hcounter
    simp only [counterHeaders, List.mem_cons, List.not_mem_nil, or_false] at hcounter
    obtain ⟨rfl, rfl⟩ := hcounter
    simp [parseBybitHeaders, get?_storeCounter]

theorem pace_append (exchange : LimitedExchange) (responses : List HeaderResponse)
    (response : HeaderResponse) :
    pace exchange (responses ++ [response]) =
      (pace exchange responses).updateFromHeaders response := by
  rw [pace, List.foldl_append]
  rfl

@[simp] theorem pace_exchange (exchange : LimitedExchange) (responses : List HeaderResponse) :
    (pace exchange responses).exchange = exchange := by
  induction responses using List.reverseRecOn with
  | nil => rfl
  | append_singleton responses response ih =>
    rw [pace_append, updateFromHeaders_exchange, ih]

/-- **A counter is the last value reported for it.** -/
theorem pace_counter {exchange : LimitedExchange} {name header : String}
    (hcounter : (name, header) ∈ counterHeaders exchange) (responses : List HeaderResponse) :
    (pace exchange responses).counters.get? name = lastReported responses header := by
  induction responses using List.reverseRecOn with
  | nil => rfl
  | append_singleton responses response ih =>
    rw [← pace_exchange exchange responses] at hcounter
    rw [pace_append, updateFromHeaders_counter hcounter, ih, lastReported_append]

/-! ## When an order may be placed -/

theorem ratio10s_lt_iff (orderCount : ℤ) : ratio10s orderCount < 9 / 10 ↔ orderCount < 294 := by
  have hcast : ((orderCount : ℚ) < 294) ↔ orderCount < 294 := by exact_mod_cast Iff.rfl
  unfold ratio10s limitOrderCount10s
  rw [← hcast]
  constructor
  · intro h
    by_contra hfull
    rw [if_neg (by linarith)] at h
    linarith
  · intro h
    rw [if_pos (by linarith)]
    linarith

theorem clamped_lt_iff (ratio : ℚ) : max 0 (min ratio 1) < 9 / 10 ↔ ratio < 9 / 10 := by
  constructor
  · intro h
    by_contra hcritical
    have hcut : (9 / 10 : ℚ) ≤ max 0 (min ratio 1) :=
      le_max_of_le_right (le_min (not_lt.mp hcritical) (by norm_num))
    exact absurd h (not_lt.mpr hcut)
  · intro h
    exact max_lt (by norm_num) ((min_le_left _ _).trans_lt h)

theorem max?_critical_iff (ratios : List ℚ) :
    ((match ratios.max? with
      | none => 0
      | some ratio => max 0 (min ratio 1)) < (9 / 10 : ℚ)) ↔ ∀ ratio ∈ ratios, ratio < 9 / 10 := by
  cases hmax : ratios.max? with
  | none =>
    rw [List.max?_eq_none_iff] at hmax
    subst hmax
    norm_num
  | some top =>
    obtain ⟨hmem, hle⟩ := List.max?_eq_some_iff.mp hmax
    exact (clamped_lt_iff top).trans
      ⟨fun h ratio hratio => (hle ratio hratio).trans_lt h, fun h => h top hmem⟩

/-- The last reported values leave headroom: fewer than 294 orders in ten seconds, 1080 orders and
a weight of 2160 in a minute; on the other exchange, more than ten requests. -/
def HasHeadroom (responses : List HeaderResponse) : LimitedExchange → Prop
  | .binance =>
      (∀ count ∈ lastReported responses "x-mbx-order-count-10s", count < 294) ∧
      (∀ count ∈ lastReported responses "x-mbx-order-count-1m", count < 1080) ∧
      (∀ weight ∈ lastReported responses "x-mbx-used-weight-1m", weight < 2160)
  | .bybit => ∀ remaining ∈ lastReported responses "x-bapi-limit-status", 10 < remaining

theorem forall_ratios_iff (limiter : AdaptiveRateLimiter) :
    (∀ ratio ∈ limiter.ratios, ratio < 9 / 10) ↔
      (∀ count ∈ limiter.counters.get? "order_count_10s", count < 294) ∧
      (∀ count ∈ limiter.counters.get? "order_count_1m", count < 1080) ∧
      (∀ weight ∈ limiter.counters.get? "weight_used_1m", weight < 2160) := by
  have h1m : ∀ count : ℤ, (count : ℚ) / limitOrderCount1m < 9 / 10 ↔ count < 1080 := by
    intro count
    have hcast : ((count : ℚ) < 1080) ↔ count < 1080 := by exact_mod_cast Iff.rfl
    rw [← hcast, limitOrderCount1m, div_lt_iff₀ (by norm_num)]
    norm_num
  have hweight : ∀ weight : ℤ, (weight : ℚ) / limitWeightUsed1m < 9 / 10 ↔ weight < 2160 := by
    intro weight
    have hcast : ((weight : ℚ) < 2160) ↔ weight < 2160 := by exact_mod_cast Iff.rfl
    rw [← hcast, limitWeightUsed1m, div_lt_iff₀ (by norm_num)]
    norm_num
  unfold ratios
  cases limiter.counters.get? "order_count_10s" <;> cases limiter.counters.get? "order_count_1m" <;>
    cases limiter.counters.get? "weight_used_1m" <;>
    simp [ratio10s_lt_iff, h1m, hweight]

theorem getUsagePct_pace_lt_iff (exchange : LimitedExchange) (responses : List HeaderResponse) :
    (pace exchange responses).getUsagePct < 9 / 10 ↔ HasHeadroom responses exchange := by
  unfold getUsagePct
  cases exchange with
  | binance =>
    have h10s : (pace .binance responses).counters.get? "order_count_10s" =
        lastReported responses "x-mbx-order-count-10s" := pace_counter (by decide) responses
    have h1m : (pace .binance responses).counters.get? "order_count_1m" =
        lastReported responses "x-mbx-order-count-1m" := pace_counter (by decide) responses
    have hweight : (pace .binance responses).counters.get? "weight_used_1m" =
        lastReported responses "x-mbx-used-weight-1m" := pace_counter (by decide) responses
    rw [pace_exchange]
    refine (max?_critical_iff _).trans ((forall_ratios_iff _).trans ?_)
    rw [h10s, h1m, hweight]
    exact Iff.rfl
  | bybit =>
    have hremaining : (pace .bybit responses).counters.get? "remaining" =
        lastReported responses "x-bapi-limit-status" := pace_counter (by decide) responses
    rw [pace_exchange]
    rw [hremaining, HasHeadroom]
    cases lastReported responses "x-bapi-limit-status" with
    | none => simp
    | some remaining =>
      have hused : (((max 0 (limitRemaining - max 0 remaining) : ℤ) : ℚ) < 90) ↔
          10 < remaining := by
        constructor
        · intro h
          have hint : max 0 (100 - max 0 remaining) < 90 := by exact_mod_cast h
          omega
        · intro h
          have hint : max 0 (100 - max 0 remaining) < 90 := by omega
          exact_mod_cast hint
      simp only [Option.mem_some_iff, forall_eq']
      refine (clamped_lt_iff _).trans ?_
      rw [← hused, div_lt_iff₀ (by norm_num [limitRemaining])]
      norm_num [limitRemaining]

/-- **Whether an order may be placed** depends on the last reported values and on nothing else. -/
theorem canProceed_pace_iff (exchange : LimitedExchange) (responses : List HeaderResponse)
    (now : ℚ) :
    ((pace exchange responses).canProceed false now).1 = true ↔ HasHeadroom responses exchange := by
  rw [← getUsagePct_pace_lt_iff]
  unfold canProceed
  by_cases hcritical : 9 / 10 ≤ (pace exchange responses).getUsagePct
  · simp [hcritical]
  · rw [if_neg (by simp), if_neg hcritical]
    simp only [not_le.mp hcritical, iff_true]
    split <;> rfl

end AdaptiveRateLimiter

end AdviserConstructor
