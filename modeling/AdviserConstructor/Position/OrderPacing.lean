import AdviserConstructor.Exchange.RateLimiter
import AdviserConstructor.Position.Tombstones
import Mathlib.Data.Finset.Order

/-!
# The order queue's wait for headroom

Between the tombstone check and the adapter call the queue asks the adapter whether it can place an
order, and sleeps while the answer is no.  The adapter answers for the limiter, without telling it
what the order is for: `can_proceed` has a bypass for stop orders, and nobody uses it.

Two properties of a sequence of responses are settled here.

* `NeverHeldBack`: whatever the queue has done before, a protective task that it has taken off the
  heap passes without a sleep;
* `NeverWedged`: in silence, once all reset times and a minute are over, an order may be placed, and
  the wait loop ends.

Each of them holds exactly if the last reported values leave headroom (`neverHeldBack_iff`,
`neverWedged_iff`), and `pacing_iff` puts them together.  The counters are not aged, so a window
that was full when the last response came stays full for ever, and the task that could bring the
next response is the one that waits.
-/

namespace AdviserConstructor

open AdaptiveRateLimiter StepSystem

/-! ## The adapter's answer -/

/-- The part of an exchange adapter that paces orders: its limiter and the `retry_after` of its
rate-limit state. -/
structure PacedAdapter where
  limiter : AdaptiveRateLimiter
  retryAfter : Option ℚ := none

namespace PacedAdapter

/-- `_update_rate_limit_state`: both adapters hand the headers to the limiter and keep the time to
retry after. -/
def updateRateLimitState (adapter : PacedAdapter) (response : HeaderResponse) : PacedAdapter :=
  let retryAfter := headerFloat response "retry-after"
  { limiter := adapter.limiter.updateFromHeaders response
    retryAfter :=
      match adapter.limiter.exchange with
      | .binance => retryAfter.or adapter.retryAfter
      | .bybit =>
          match retryAfter.filter (0 < ·) with
          | some seconds => some seconds
          | none =>
              match headerFloat response "x-bapi-limit-reset-timestamp" with
              | some resetMs => some (max 0 (resetMs / 1000 - response.receivedAt))
              | none => adapter.retryAfter }

/-- `can_place_order`. -/
def canPlaceOrder (adapter : PacedAdapter) (now : ℚ) : Bool :=
  (adapter.limiter.canProceed false now).1

/-- How long the queue sleeps between two questions: `retry_after`, or the default of a second. -/
def waitTime (adapter : PacedAdapter) : ℚ :=
  match adapter.retryAfter with
  | some seconds => if 0 < seconds then seconds else 1
  | none => 1

/-- An adapter after some responses, oldest first. -/
def after (exchange : LimitedExchange) (responses : List HeaderResponse) : PacedAdapter :=
  responses.foldl updateRateLimitState { limiter := { exchange := exchange } }

theorem after_limiter (exchange : LimitedExchange) (responses : List HeaderResponse) :
    (after exchange responses).limiter = pace exchange responses := by
  induction responses using List.reverseRecOn with
  | nil => rfl
  | append_singleton responses response ih =>
    rw [after, List.foldl_append, pace_append, ← ih]
    rfl

theorem canPlaceOrder_after (exchange : LimitedExchange) (responses : List HeaderResponse)
    (now : ℚ) :
    (after exchange responses).canPlaceOrder now = true ↔ HasHeadroom responses exchange := by
  rw [canPlaceOrder, after_limiter]
  exact canProceed_pace_iff exchange responses now

end PacedAdapter

/-! ## The wait loop -/

/-- What happens while the queue sleeps. -/
structure Nap where
  responses : List HeaderResponse := []
  processing : Bool := true

/-- Where the wait loop stands after some naps. -/
inductive Headroom where
  | granted
  | lost
  | sleeping (wakesAt : ℚ)
  deriving DecidableEq, Repr

/-- `_wait_for_rate_limit_headroom`, as far as the given naps carry it. -/
def waitForRateLimitHeadroom : Bool → PacedAdapter → ℚ → List Nap → Headroom
  | false, _, _, _ => .lost
  | true, adapter, now, [] =>
      if adapter.canPlaceOrder now then .granted else .sleeping (now + adapter.waitTime)
  | true, adapter, now, nap :: naps =>
      if adapter.canPlaceOrder now then .granted
      else
        waitForRateLimitHeadroom nap.processing
          (nap.responses.foldl PacedAdapter.updateRateLimitState adapter)
          (now + adapter.waitTime) naps

/-- A full window at a first question, a response that empties it during the nap. -/
example :
    waitForRateLimitHeadroom true
      (.after .binance [⟨0, [("X-MBX-ORDER-COUNT-10S", "300")]⟩]) 0
      [{ responses := [⟨1, [("X-MBX-ORDER-COUNT-10S", "1")]⟩] }] = .granted := by decide +kernel

/-- The tasks that protect a position. -/
def TaskAction.isProtective (action : TaskAction) : Bool :=
  action.isSl || action = .emergencyMarketClose

/-! ## The two properties -/

/-- No protective task that the queue has taken off the heap sleeps before its execution. -/
def NeverHeldBack (adapter : PacedAdapter) : Prop :=
  ∀ (steps : List QueueStep) (queue : QueueState) (id : TaskId) (key : TaskKey) (now : ℚ),
    run QueueState.step .initial steps = some queue → queue.phase = .waiting id key →
      (queue.store id).action.isProtective = true → queue.processing = true →
        waitForRateLimitHeadroom queue.processing adapter now [] = .granted

/-- The moment from which every reset time and every window is over. -/
def WindowsOver (adapter : PacedAdapter) (responses : List HeaderResponse) (now : ℚ) : Prop :=
  (∀ entry ∈ adapter.limiter.resetTimes.entries, entry.2 ≤ now) ∧
    ∀ response ∈ responses, response.receivedAt + 60 ≤ now

/-- In silence an order may be placed once the windows are over, and the wait loop ends. -/
def NeverWedged (adapter : PacedAdapter) (responses : List HeaderResponse) : Prop :=
  (∀ now, WindowsOver adapter responses now → adapter.canPlaceOrder now = true) ∧
    ∀ start, ∃ turns, waitForRateLimitHeadroom true adapter start (List.replicate turns {}) =
      .granted

theorem wait_granted {adapter : PacedAdapter} {now : ℚ} (h : adapter.canPlaceOrder now = true)
    (naps : List Nap) : waitForRateLimitHeadroom true adapter now naps = .granted := by
  cases naps <;> rw [waitForRateLimitHeadroom, if_pos h]

theorem exists_windowsOver (adapter : PacedAdapter) (responses : List HeaderResponse) :
    ∃ now, WindowsOver adapter responses now := by
  obtain ⟨now, hnow⟩ := Finset.exists_le
    ((adapter.limiter.resetTimes.entries.map Prod.snd).toFinset ∪
      (responses.map fun response => response.receivedAt + 60).toFinset)
  refine ⟨now, fun entry hentry => hnow _ ?_, fun response hresponse => hnow _ ?_⟩
  · exact Finset.mem_union_left _ (List.mem_toFinset.mpr (List.mem_map_of_mem hentry))
  · exact Finset.mem_union_right _ (List.mem_toFinset.mpr (List.mem_map.mpr ⟨_, hresponse, rfl⟩))

theorem exists_waiting_protective : ∃ (steps : List QueueStep) (queue : QueueState) (id : TaskId)
    (key : TaskKey), run QueueState.step .initial steps = some queue ∧
      queue.phase = .waiting id key ∧ (queue.store id).action.isProtective = true ∧
      queue.processing = true := by
  let steps : List QueueStep :=
    [.startProcessing, .enqueue (QueueState.initialStop 0), .dequeue, .checkTombstone]
  obtain ⟨queue, hrun⟩ : ∃ queue, run QueueState.step .initial steps = some queue :=
    Option.isSome_iff_exists.mp (by decide +kernel)
  have hfacts : (run QueueState.step .initial steps).map
      (fun queue => (queue.phase, (queue.store 0).action, queue.processing)) =
      some (.waiting 0 (QueueState.initialStop 0).key, .placeSl, true) := by decide +kernel
  rw [hrun, Option.map_some, Option.some.injEq, Prod.mk.injEq, Prod.mk.injEq] at hfacts
  refine ⟨steps, queue, 0, _, hrun, hfacts.1, ?_, hfacts.2.2⟩
  rw [hfacts.2.1]
  rfl

variable (exchange : LimitedExchange) (responses : List HeaderResponse)

/-- The bypass for stops is not used: a protective task waits like any other. -/
theorem neverHeldBack_iff :
    NeverHeldBack (.after exchange responses) ↔ HasHeadroom responses exchange := by
  constructor
  · intro h
    obtain ⟨steps, queue, id, key, hrun, hphase, hprotective, hprocessing⟩ :=
      exists_waiting_protective
    have hgranted := h steps queue id key 0 hrun hphase hprotective hprocessing
    rw [hprocessing, waitForRateLimitHeadroom] at hgranted
    split at hgranted
    · exact (PacedAdapter.canPlaceOrder_after exchange responses 0).mp ‹_›
    · cases hgranted
  · intro h steps queue id key now _ _ _ hprocessing
    rw [hprocessing]
    exact wait_granted ((PacedAdapter.canPlaceOrder_after exchange responses now).mpr h) []

/-- The counters do not age: the loop ends in silence only if it need not have slept. -/
theorem neverWedged_iff :
    NeverWedged (.after exchange responses) responses ↔ HasHeadroom responses exchange := by
  constructor
  · intro h
    obtain ⟨now, hover⟩ := exists_windowsOver (.after exchange responses) responses
    exact (PacedAdapter.canPlaceOrder_after exchange responses now).mp (h.1 now hover)
  · intro h
    refine ⟨fun now _ => (PacedAdapter.canPlaceOrder_after exchange responses now).mpr h,
      fun start => ⟨0, ?_⟩⟩
    exact wait_granted ((PacedAdapter.canPlaceOrder_after exchange responses start).mpr h) _

/-- **Pacing spares protection and does not wedge** exactly if the last reported values leave
headroom. -/
theorem pacing_iff :
    (NeverHeldBack (.after exchange responses) ∧
      NeverWedged (.after exchange responses) responses) ↔ HasHeadroom responses exchange :=
  ⟨fun h => (neverHeldBack_iff exchange responses).mp h.1, fun h =>
    ⟨(neverHeldBack_iff exchange responses).mpr h, (neverWedged_iff exchange responses).mpr h⟩⟩

/-- The last response before a silence: the order window of ten seconds is full. -/
def fullWindow : List HeaderResponse := [⟨0, [("X-MBX-ORDER-COUNT-10S", "300")]⟩]

/-- **A full window wedges the queue**: a stop that has been taken off the heap sleeps, and no
silence, however long, ends the wait. -/
theorem full_window_wedges_queue :
    ¬NeverHeldBack (.after .binance fullWindow) ∧
      ¬NeverWedged (.after .binance fullWindow) fullWindow := by
  have hreported : headerInt ⟨0, [("X-MBX-ORDER-COUNT-10S", "300")]⟩ "x-mbx-order-count-10s" =
      some 300 := by decide +kernel
  have hfull : ¬HasHeadroom fullWindow .binance := by
    intro hheadroom
    have hbelow : (300 : ℤ) < 294 :=
      hheadroom.1 300 (by simp [lastReported, fullWindow, hreported])
    omega
  exact ⟨fun h => hfull ((neverHeldBack_iff _ _).mp h),
    fun h => hfull ((neverWedged_iff _ _).mp h)⟩

end AdviserConstructor
