import Mathlib.Data.Rat.Defs

/-!
# The configuration of a strategy

`AutoTradeConfig` and its risk row `AutoTradeRiskConfig`, as the tables have them.  Part of the
columns is content that a user edits, part is runtime state: whether the strategy runs, its
lifecycle stage, the time stamps and the latch of the kill-switch.

A strategy profile is a JSON column that only ever holds what `StrategyProfileConfig` has dumped,
so that its columns are the fields of the schema.  The condition of a watcher is in it too, its
parameters are not: they are dictionaries that nothing here looks into.

Time stamps are numbers; they are written and compared for equality only.
-/

namespace AdviserConstructor

/-! ## Lifecycle -/

/-- `LifecycleStage`. -/
inductive LifecycleStage where
  | research | sandbox | validation | live | rejected | archived
  deriving DecidableEq, Repr

/-! ## Strategy profiles -/

/-- `StrategyProfileTPLevel`. -/
structure ProfileTpLevel where
  priceOffsetPct : ℚ
  closePct : ℚ
  moveSlTo : Option String := none
  slLockPct : Option ℚ := none
  deriving DecidableEq

/-- `StrategyProfileWatcher`. -/
structure ProfileWatcher where
  indicator : String
  condition : String
  action : String
  isActive : Bool := true
  deriving DecidableEq

/-- The values of `sl_mode`. -/
inductive ProfileSlMode where
  | fixed | atr | percentage
  deriving DecidableEq, Repr

/-- The values of `tp_mode`. -/
inductive ProfileTpMode where
  | single | multi
  deriving DecidableEq, Repr

/-- `StrategyProfileConfig`. -/
structure StrategyProfile where
  slMode : ProfileSlMode := .fixed
  slValue : ℚ
  tpMode : ProfileTpMode := .single
  tpValue : Option ℚ := none
  tpLevels : Option (List ProfileTpLevel) := none
  trailingEnabled : Bool := false
  trailingCallbackRate : ℚ := 1
  breakevenEnabled : Bool := false
  breakevenTriggerRr : ℚ := 1
  volatilitySlEnabled : Bool := false
  volatilityAtrPeriod : ℤ := 14
  volatilityAtrMultiplier : ℚ := 2
  watchers : List ProfileWatcher := []
  adjustmentPriority : List String := ["watcher", "trailing", "breakeven", "volatility"]
  maxPositionPct : ℚ := 100
  allowSlWiden : Bool := false
  deriving DecidableEq

/-! ## The risk row -/

/-- The values of `conflicting_signal_policy`. -/
inductive ConflictPolicy where
  | off | blockOpposite
  deriving DecidableEq, Repr

/-- `AutoTradeRiskConfig`, without the id of its configuration. -/
structure RiskConfig where
  enabled : Bool := true
  dailyLossLimitUsdt : Option ℚ := none
  dailyLossLimitPct : Option ℚ := none
  maxOpenPositions : Option ℤ := none
  maxOpenPositionsPerSymbol : Option ℤ := none
  exposureCapUsdt : Option ℚ := none
  leverageCeiling : Option ℤ := none
  conflictingSignalPolicy : ConflictPolicy := .off
  kpiGuardEnabled : Bool := false
  kpiGuardMaxDdPct : Option ℚ := none
  kpiGuardMaxDailyLossUsdt : Option ℚ := none
  kpiGuardMaxDailyLossPct : Option ℚ := none
  kpiGuardMinWinRatePct : Option ℚ := none
  kpiGuardMinTrades : Option ℤ := none
  killSwitchEnabled : Bool := false
  killSwitchAtrSpikeMult : Option ℚ := none
  killSwitchAtrPeriod : Option ℤ := none
  killSwitchPriceMovePct : Option ℚ := none
  killSwitchCooldownSeconds : Option ℤ := none
  anomalyDetectionEnabled : Bool := false
  anomalyZThreshold : Option ℚ := none
  anomalyWindow : Option ℤ := none
  promoteMinWinRatePct : Option ℚ := none
  promoteMaxDdPct : Option ℚ := none
  promoteMinTrades : Option ℤ := none
  promoteMinSandboxDays : Option ℚ := none
  deriving DecidableEq

/-! ## The configuration -/

/-- `AutoTradeConfig`. -/
structure AutoTradeConfig where
  id : ℕ := 0
  userId : ℕ := 0
  profileId : ℕ := 0
  accountId : ℕ := 0
  enabled : Bool := false
  isRunning : Bool := false
  positionSizeUsdt : ℚ := 100
  leverage : ℤ := 1
  minConfidencePct : ℚ := 62
  fastCloseConfidencePct : ℚ := 80
  confirmReportsRequired : ℤ := 2
  riskMode : String := "1:2"
  slPct : ℚ := 1
  tpPct : ℚ := 2
  strategyProfile : Option StrategyProfile := none
  strategyName : Option String := none
  attachedForecastId : Option String := none
  lastStartedAt : Option ℕ := none
  lastStoppedAt : Option ℕ := none
  lifecycleStage : LifecycleStage := .sandbox
  sandboxEnteredAt : Option ℕ := none
  riskOffLatched : Bool := false
  riskOffReason : Option String := none
  riskOffAt : Option ℕ := none
  deriving DecidableEq

end AdviserConstructor
