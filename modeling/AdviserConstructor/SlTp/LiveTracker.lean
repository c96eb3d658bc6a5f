import Mathlib.Algebra.BigOperators.Group.List.Basic
import Mathlib.Data.Rat.Floor
import AdviserConstructor.Position.Producers
import AdviserConstructor.SlTp.Pipeline

/-!
# The realtime adjuster

`RealtimeSLAdjuster` of `app/services/sl_tp/live_tracker.py`: the bar buffer of one symbol, the
volatility kill switch of `kill_switch.py`, the cooldowns, and `on_tick`, which runs the
adjustment pipeline for every position that is due and enqueues a `replace_sl` task for it.

The average true range comes from a library; `taAtr` is the series that it returns, without the
missing values.  The memo of the series is transparent and left out.  A clock value belongs to a
tick.  The kill switch hands a position over to a close that works on the database and leaves
the context alone.
-/

namespace AdviserConstructor

open DecimalText

/-- `int(value)`; `none` is a `TypeError` or a `ValueError`. -/
def PyVal.toInt? : PyVal → Option ℤ
  | .none | .side _ => Option.none
  | .bool b => some (if b then 1 else 0)
  | .int n => some n
  | .float x => some (if 0 ≤ x then ⌊x⌋ else ⌈x⌉)
  | .str s =>
      let digits :=
        match strip s.toList with
        | '+' :: rest | '-' :: rest => rest
        | chars => chars
      if digits.all Char.isDigit then (parseDecimal s).map Rat.floor else Option.none

abbrev KlineEvent := InsertionDict String PyVal

/-- A bar of the buffer. -/
structure Bar where
  openTime : ℤ
  «open» : ℚ
  high : ℚ
  low : ℚ
  close : ℚ
  volume : ℚ
  isClosed : Bool
  deriving DecidableEq, Repr

/-- `_extract_bar`; `none` is a malformed event. -/
def extractBar (event : KlineEvent) : Option Bar := do
  let openTime ←
    match event.getD "open_time" (event.getD "timestamp" .none) with
    | .none => some 0
    | value => value.toInt?
  let «open» ← (event.getD "open" .none).toFloat?
  let high ← (event.getD "high" .none).toFloat?
  let low ← (event.getD "low" .none).toFloat?
  let close ← (event.getD "close" .none).toFloat?
  let volume ←
    if (event.getD "volume" .none).truthy then (event.getD "volume" .none).toFloat? else some 0
  return ⟨openTime, «open», high, low, close, volume, (event.getD "is_closed" (.bool false)).truthy⟩

/-- `RealtimeSLAdjuster`, whose constructor rejects an empty buffer and a negative throttle. -/
structure Adjuster where
  symbol : String
  bufferBars : ℕ := 200
  bufferBars_pos : 0 < bufferBars := by decide
  throttleSeconds : ℚ := 3
  throttleSeconds_nonneg : 0 ≤ throttleSeconds := by decide
  buffer : List Bar := []
  buffer_le : buffer.length ≤ bufferBars := by decide
  lastAdjustmentAt : InsertionDict String ℚ := .empty
  lastKillSwitchAt : InsertionDict String ℚ := .empty

/-- What the adjuster is wired to. -/
structure TrackerEnv where
  /-- the values of the average true range over a list of bars -/
  taAtr : List Bar → ℤ → List ℚ
  killSwitchHandler : Bool
  accountId : String

namespace Adjuster

/-! ## The buffer -/

/-- The buffer with a bar appended, or put in the place of its last bar. -/
def placeBar (buffer : List Bar) (bar : Bar) : List Bar :=
  match buffer.getLast? with
  | some last =>
      if last.openTime = bar.openTime then buffer.dropLast ++ [bar] else buffer ++ [bar]
  | none => buffer ++ [bar]

/-- `update_buffer`; a malformed event leaves the buffer alone. -/
def updateBuffer (adj : Adjuster) (event : KlineEvent) : Option (Bar × Adjuster) :=
  (extractBar event).map fun bar =>
    let buffer := placeBar adj.buffer bar
    (bar,
      { adj with
        buffer := buffer.drop (buffer.length - adj.bufferBars)
        buffer_le := by
          rw [List.length_drop]
          omega })

/-- `_atr_series`. -/
def atrSeries (env : TrackerEnv) (adj : Adjuster) (period : ℤ) : Option (List ℚ) :=
  if period ≤ 0 ∨ (adj.buffer.length : ℤ) < period + 1 then none
  else
    let series := env.taAtr adj.buffer period
    if series = [] then none else some series

/-- `compute_atr`. -/
def computeAtr (env : TrackerEnv) (adj : Adjuster) (period : ℤ) : Option ℚ :=
  (adj.atrSeries env period).bind List.getLast?

/-! ## Who is due -/

/-- `needs_pipeline`. -/
def needsPipeline (position : PositionContext) : Bool :=
  position.trailingEnabled || position.breakevenEnabled || position.volatilitySlEnabled

/-- `_is_position_eligible`. -/
def isPositionEligible (adj : Adjuster) (position : PositionContext) : Bool :=
  position.symbol = adj.symbol && position.state = .open && needsPipeline position

/-- `_cooldown_elapsed`. -/
def cooldownElapsed (adj : Adjuster) (now : ℚ) (positionId : String) : Bool :=
  adj.throttleSeconds ≤ now - adj.lastAdjustmentAt.getD positionId 0

/-! ## The kill switch -/

/-- Which branch of the detector tripped. -/
inductive KillSwitchReason where
  | atrSpike | priceMove
  deriving DecidableEq, Repr

/-- `detect_volatility_spike`. -/
def detectVolatilitySpike (currentAtr baselineAtr spikeMult lastBarMovePct
    priceMovePctThreshold : Option ℚ) : Option KillSwitchReason :=
  let spiked : Bool :=
    match spikeMult, currentAtr, baselineAtr with
    | some mult, some current, some baseline => 0 < baseline && mult * baseline ≤ current
    | _, _, _ => false
  let moved : Bool :=
    match priceMovePctThreshold, lastBarMovePct with
    | some threshold, some move => threshold ≤ |move|
    | _, _ => false
  if spiked then some .atrSpike else if moved then some .priceMove else none

/-- `_atr_current_and_baseline`. -/
def atrCurrentAndBaseline (env : TrackerEnv) (adj : Adjuster) (period : ℤ) :
    Option ℚ × Option ℚ :=
  match adj.atrSeries env period with
  | none => (none, none)
  | some series =>
      if series.length < 2 then (none, none)
      else
        let before := series.dropLast
        let baseline := before.sum / before.length
        if baseline ≤ 0 then (none, none) else (series.getLast?, some baseline)

/-- `kill_switch_atr_period or volatility_atr_period or 14`. -/
def killSwitchPeriod (position : PositionContext) : ℤ :=
  match position.killSwitchAtrPeriod with
  | some period =>
      if period ≠ 0 then period
      else if position.volatilityAtrPeriod ≠ 0 then position.volatilityAtrPeriod else 14
  | none => if position.volatilityAtrPeriod ≠ 0 then position.volatilityAtrPeriod else 14

/-- `_kill_switch_cooldown_elapsed`. -/
def killSwitchCooldownElapsed (adj : Adjuster) (now : ℚ) (position : PositionContext) : Bool :=
  (match position.killSwitchCooldownSeconds with
    | some cooldown => (cooldown : ℚ)
    | none => adj.throttleSeconds) ≤ now - adj.lastKillSwitchAt.getD position.positionId 0

/-- The kill switch trips for a position. -/
def killSwitchTrips (env : TrackerEnv) (adj : Adjuster) (bar : Bar) (now : ℚ)
    (position : PositionContext) : Bool :=
  let lastBarMovePct :=
    if 0 < bar.open then some ((bar.close - bar.open) / bar.open * 100) else none
  let atrs :=
    if position.killSwitchAtrSpikeMult.isSome then
      adj.atrCurrentAndBaseline env (killSwitchPeriod position)
    else (none, none)
  position.symbol = adj.symbol && position.state = .open && position.killSwitchEnabled &&
    adj.killSwitchCooldownElapsed now position &&
    (detectVolatilitySpike atrs.1 atrs.2 position.killSwitchAtrSpikeMult lastBarMovePct
      position.killSwitchPriceMovePct).isSome

/-- `_check_kill_switch`: the ids of the positions that were handed over. -/
def checkKillSwitch (env : TrackerEnv) (adj : Adjuster) (bar : Bar) (now : ℚ)
    (positions : List PositionContext) : Adjuster × List String :=
  if !env.killSwitchHandler then (adj, [])
  else
    positions.foldl
      (fun (adj, killed) position =>
        if adj.killSwitchTrips env bar now position then
          ({ adj with lastKillSwitchAt := adj.lastKillSwitchAt.assign position.positionId now },
            killed ++ [position.positionId])
        else (adj, killed))
      (adj, [])

/-! ## One position -/

/-- `_evaluate_pipeline`. -/
def evaluate (env : TrackerEnv) (adj : Adjuster) (currentPrice : ℚ) (position : PositionContext) :
    Option SLAdjustmentResult :=
  let atr :=
    if position.volatilitySlEnabled then adj.computeAtr env position.volatilityAtrPeriod else none
  evaluatePipeline position currentPrice atr

/-- `setattr(position, field_name, value)`. -/
def applyTracking (position : PositionContext) : TrackingUpdate → PositionContext
  | .trailingHighestPrice value => { position with trailingHighestPrice := some value }
  | .trailingLowestPrice value => { position with trailingLowestPrice := some value }
  | .breakevenActivated value => { position with breakevenActivated := value }
  | .volatilityLastAtr value => { position with volatilityLastAtr := some value }

/-- The position half of `_apply_state_changes`. -/
def applyStateChanges (position : PositionContext) (result : SLAdjustmentResult) :
    PositionContext :=
  { result.updateTracking.foldl applyTracking position with
    currentSlPrice := result.newSlPrice }

/-- What the pipeline returns for a position in this tick; `none` also when it is not asked. -/
def visitResult (env : TrackerEnv) (killed : List String) (currentPrice now : ℚ)
    (adj : Adjuster) (position : PositionContext) : Option SLAdjustmentResult :=
  if position.positionId ∈ killed then none
  else if !adj.isPositionEligible position then none
  else if !adj.cooldownElapsed now position.positionId then none
  else adj.evaluate env currentPrice position

/-- The adjuster after a position was looked at. -/
def afterVisit (env : TrackerEnv) (killed : List String) (currentPrice now : ℚ)
    (adj : Adjuster) (position : PositionContext) : Adjuster :=
  match adj.visitResult env killed currentPrice now position with
  | none => adj
  | some _ => { adj with lastAdjustmentAt := adj.lastAdjustmentAt.assign position.positionId now }

/-- A position after it was looked at, with the task that was enqueued for it. -/
def visitPosition (env : TrackerEnv) (killed : List String) (currentPrice now : ℚ) (nowMs : ℕ)
    (adj : Adjuster) (position : PositionContext) : PositionContext × Option OrderTask :=
  match adj.visitResult env killed currentPrice now position with
  | none => (position, none)
  | some result =>
      let position := applyStateChanges position result
      (position,
        dispatchReplaceSl env.accountId position result.newSlPrice result.reason now nowMs)

/-- The loop of `on_tick` over the positions. -/
def visitAll (env : TrackerEnv) (killed : List String) (currentPrice now : ℚ) (nowMs : ℕ) :
    Adjuster → List PositionContext → Adjuster × List (PositionContext × Option OrderTask)
  | adj, [] => (adj, [])
  | adj, position :: rest =>
      let visited := adj.visitPosition env killed currentPrice now nowMs position
      let (adj, others) :=
        visitAll env killed currentPrice now nowMs
          (adj.afterVisit env killed currentPrice now position) rest
      (adj, visited :: others)

/-! ## `on_tick` -/

/-- A kline event with the clock at its arrival. -/
structure Tick where
  event : KlineEvent
  now : ℚ
  nowMs : ℕ := 0

/-- `on_tick`: the adjuster, and every position with the task enqueued for it. -/
def onTick (env : TrackerEnv) (adj : Adjuster) (tick : Tick) (positions : List PositionContext) :
    Adjuster × List (PositionContext × Option OrderTask) :=
  match adj.updateBuffer tick.event with
  | none => (adj, positions.map fun position => (position, none))
  | some (bar, adj) =>
      if bar.close ≤ 0 then (adj, positions.map fun position => (position, none))
      else
        let (adj, killed) := adj.checkKillSwitch env bar tick.now positions
        visitAll env killed bar.close tick.now tick.nowMs adj positions

end Adjuster

end AdviserConstructor
