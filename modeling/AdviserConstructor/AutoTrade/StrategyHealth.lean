import AdviserConstructor.AutoTrade.Config
import AdviserConstructor.Backtest.Metrics
import AdviserConstructor.Ledger.HealthTrades

/-!
# The health of a strategy, and the gate to promotion

`compute_strategy_health` of `app/services/auto_trade/health.py` judges a strategy by the closing
fills of its account in the last thirty days, or by its closed positions in that time if there are
none.  `evaluate_promotion_gate` of `app/services/auto_trade/promotion/kpi_gate.py` compares the
result, and the days that the strategy has been in the sandbox, with the thresholds of the strategy.

The Sharpe ratio, the stability and the composite score are left out: of the health class, which
follows from the score, the gate reads only whether there is one.

* `evaluatePromotionGate_congr`: what the decision depends on.
* `sampleSize_of_decision`, `maxDdPct_of_decision`: what the decision shows of the health.
* `maxDdPct_ge_of_first_loss`: the drawdown is at least the loss of the first trade.
-/

namespace AdviserConstructor

open Backtest

/-! ## The closed positions -/

/-- `gross_realized_pnl`. -/
def PositionRecord.grossRealizedPnl (position : PositionRecord) : Option ℚ :=
  position.closePrice.map fun close =>
    if position.side = .short then (position.entryPrice - close) * position.quantity
    else (close - position.entryPrice) * position.quantity

def positionFills (history : PnlHistory) (position : PositionRecord) : List LedgerFill :=
  orderedByTime (history.fills.filter (·.autoTradePositionId = some position.id))

/-- `_net_realized_by_position`, at a position; nothing where it has no fills. -/
def netRealizedByPosition (history : PnlHistory) (position : PositionRecord) : Option ℚ :=
  if positionFills history position = [] then none
  else
    some (netRealized position.symbol (positionFills history position)
      (sumFunding history.incomes position.accountId position.symbol (some position.openedAt)
        position.closedAt))

/-- `position.close_reason or "closed"`. -/
def PositionRecord.exitReason (position : PositionRecord) : String :=
  match position.closeReason with
  | some reason => if reason = "" then "closed" else reason
  | none => "closed"

/-- `_position_to_trade`. -/
def positionToTrade (position : PositionRecord) (realizedPnl : ℚ) : HealthTrade where
  pnlUsdt := realizedPnl
  rReal := none
  exitReason := position.exitReason
  exitTime := position.closedAt
  entry := position.entryPrice
  sl := some position.slPrice
  positionSize := some position.quantity

/-- The positions of a config that were closed since the cutoff. -/
def closedPositions (history : PnlHistory) (configId : ℕ) (cutoff : ℚ) : List PositionRecord :=
  (history.positions.filter fun position =>
    position.configId = configId && position.status = .closed &&
      position.closedSince cutoff).insertionSort fun position position' =>
        position.closedAt.getD 0 ≤ position'.closedAt.getD 0

/-- The trade of a closed position, if its profit is known. -/
def positionTrade (history : PnlHistory) (position : PositionRecord) : Option HealthTrade :=
  ((netRealizedByPosition history position).or position.grossRealizedPnl).map
    (positionToTrade position)

/-- `trades_for_health`. -/
def tradesForHealth (history : PnlHistory) (config : AutoTradeConfig) (cutoff : ℚ) :
    List HealthTrade :=
  match accountTradesForHealth history config.accountId cutoff with
  | [] => (closedPositions history config.id cutoff).filterMap (positionTrade history)
  | trades => trades

/-! ## The metrics -/

/-- The trade as the metrics of the backtests read it. -/
def HealthTrade.toTradeRow (trade : HealthTrade) : TradeRow where
  entryTime := 0
  exitTime := 0
  entry := trade.entry
  sl := trade.sl
  positionSize := trade.positionSize
  rReal := trade.rReal
  pnlUsdt := trade.pnlUsdt
  exitReason := if trade.exitReason = "OPEN" then some .openAtEnd else none

def equityFrom (equity : ℚ) : List ℚ → List ℚ
  | [] => [equity]
  | pnl :: pnls => equity :: equityFrom (equity + pnl) pnls

/-- `build_equity_curve`, by its equity. -/
def buildEquityCurve (trades : List HealthTrade) (initialBalance : ℚ) : List ℚ :=
  equityFrom initialBalance ((trades.filter (·.exitReason ≠ "OPEN")).map HealthTrade.pnlUsdt)

/-- The loop of `calculate_equity_max_drawdown_pct`; the peak is `none` before the first point. -/
def equityDrawdownFrom (peak : Option ℚ) (maxDrawdown : ℚ) : List ℚ → ℚ
  | [] => maxDrawdown
  | equity :: rest =>
      let peak := match peak with
        | none => equity
        | some peak => max peak equity
      equityDrawdownFrom (some peak)
        (if peak ≤ 0 then maxDrawdown else max maxDrawdown ((peak - equity) / peak)) rest

/-- `calculate_equity_max_drawdown_pct`. -/
def calculateEquityMaxDrawdownPct (curve : List ℚ) : ℚ := equityDrawdownFrom none 0 curve * 100

/-- `HEALTH_MIN_TRADES`. -/
def healthMinTrades : ℕ := 10

/-- `StrategyHealth`, as far as it is modelled. -/
structure StrategyHealth where
  sampleSize : ℕ
  winRatePct : ℚ
  maxDdPct : ℚ
  totalPnlUsdt : ℚ
  roiPct : ℚ
  /-- the health class is `insufficient_data` -/
  insufficient : Bool
  deriving DecidableEq

/-- `_roi_pct`. -/
def roiPct (totalPnlUsdt baseUsdt : ℚ) : ℚ :=
  if baseUsdt ≤ 0 then 0 else totalPnlUsdt / baseUsdt * 100

/-- `health_from_trades`. -/
def healthFromTrades (trades : List HealthTrade) (initialBalance : ℚ) : StrategyHealth :=
  let totalPnl := (trades.map HealthTrade.pnlUsdt).sum
  if trades.length < healthMinTrades then
    { sampleSize := trades.length
      winRatePct := 0
      maxDdPct := 0
      totalPnlUsdt := totalPnl
      roiPct := roiPct totalPnl initialBalance
      insufficient := true }
  else
    { sampleSize := trades.length
      winRatePct := (calculatePerformanceMetrics (trades.map HealthTrade.toTradeRow)).winRate
      maxDdPct := calculateEquityMaxDrawdownPct (buildEquityCurve trades initialBalance)
      totalPnlUsdt := totalPnl
      roiPct := roiPct totalPnl initialBalance
      insufficient := false }

/-- `DEFAULT_WINDOW_DAYS`, in seconds. -/
def healthWindow : ℚ := 30 * 86400

/-- `compute_strategy_health`. -/
def computeStrategyHealth (history : PnlHistory) (config : AutoTradeConfig) (now : ℚ) :
    StrategyHealth :=
  healthFromTrades (tradesForHealth history config (now - healthWindow)) config.positionSizeUsdt

/-! ## The gate -/

/-- `GateCriterion`. -/
structure GateCriterion where
  name : String
  actual : ℚ
  threshold : ℚ
  passed : Bool
  deriving DecidableEq

/-- `PromotionDecision`. -/
structure PromotionDecision where
  canPromote : Bool
  criteria : List GateCriterion
  deriving DecidableEq

/-- `evaluate_promotion_gate`. -/
def evaluatePromotionGate (health : StrategyHealth) (riskCfg : Option RiskConfig)
    (sandboxDays : ℚ) : PromotionDecision :=
  let minTrades := (riskCfg.bind (·.promoteMinTrades)).getD 20
  let minSandboxDays := (riskCfg.bind (·.promoteMinSandboxDays)).getD 7
  let minWinRate := (riskCfg.bind (·.promoteMinWinRatePct)).getD 50
  let maxDd := (riskCfg.bind (·.promoteMaxDdPct)).getD 25
  let reliable := !health.insufficient && healthMinTrades ≤ health.sampleSize &&
    minTrades ≤ (health.sampleSize : ℤ)
  let criteria : List GateCriterion :=
    [{ name := "min_trades"
       actual := health.sampleSize
       threshold := minTrades
       passed := reliable },
     { name := "min_sandbox_days"
       actual := sandboxDays
       threshold := minSandboxDays
       passed := minSandboxDays ≤ sandboxDays },
     { name := "min_win_rate"
       actual := health.winRatePct
       threshold := minWinRate
       passed := reliable && minWinRate ≤ health.winRatePct },
     { name := "max_dd"
       actual := health.maxDdPct
       threshold := maxDd
       passed := reliable && health.maxDdPct ≤ maxDd }]
  { canPromote := criteria.all GateCriterion.passed, criteria := criteria }

/-- When the present stint in the sandbox began: `sandbox_entered_at`, or `created_at` if that was
never set. -/
def stintStart (config : AutoTradeConfig) (createdAt : ℚ) : ℚ :=
  (config.sandboxEnteredAt.map (fun t => (t : ℚ))).getD createdAt

/-- `_sandbox_days`. -/
def sandboxDays (config : AutoTradeConfig) (createdAt now : ℚ) : ℚ :=
  max 0 ((now - stintStart config createdAt) / 86400)

/-- `evaluate_promotion`. -/
def evaluatePromotion (history : PnlHistory) (config : AutoTradeConfig) (createdAt : ℚ)
    (risk : Option RiskConfig) (now : ℚ) : PromotionDecision × ℚ :=
  let days := sandboxDays config createdAt now
  (evaluatePromotionGate (computeStrategyHealth history config now) risk days, days)

/-! ## What the decision depends on, and what it shows -/

section Decision

variable {health health' : StrategyHealth} {riskCfg : Option RiskConfig}
  {days : ℚ} {trades : List HealthTrade} {initialBalance : ℚ}

/-- **The decision** depends on the sample, the win rate and the drawdown only. -/
theorem evaluatePromotionGate_congr (hsample : health.sampleSize = health'.sampleSize)
    (hwin : health.winRatePct = health'.winRatePct) (hdd : health.maxDdPct = health'.maxDdPct)
    (hclass : health.insufficient = health'.insufficient) :
    evaluatePromotionGate health riskCfg days = evaluatePromotionGate health' riskCfg days := by
  rw [evaluatePromotionGate, evaluatePromotionGate, hsample, hwin, hdd, hclass]

/-- The decision shows the size of the sample. -/
theorem sampleSize_of_decision
    (h : evaluatePromotionGate health riskCfg days = evaluatePromotionGate health' riskCfg days) :
    health.sampleSize = health'.sampleSize := by
  have hcriteria := congrArg (fun d => (d.criteria.map GateCriterion.actual)[0]?) h
  simpa [evaluatePromotionGate] using hcriteria

/-- The decision shows the drawdown. -/
theorem maxDdPct_of_decision
    (h : evaluatePromotionGate health riskCfg days = evaluatePromotionGate health' riskCfg days) :
    health.maxDdPct = health'.maxDdPct := by
  have hcriteria := congrArg (fun d => (d.criteria.map GateCriterion.actual)[3]?) h
  simpa [evaluatePromotionGate] using hcriteria

theorem sampleSize_healthFromTrades (trades : List HealthTrade) (initialBalance : ℚ) :
    (healthFromTrades trades initialBalance).sampleSize = trades.length := by
  rw [healthFromTrades]
  split <;> rfl

theorem evaluatePromotionGate_of_few {trades' : List HealthTrade}
    (hfew : trades.length < healthMinTrades) (hlength : trades.length = trades'.length) :
    evaluatePromotionGate (healthFromTrades trades initialBalance) riskCfg days =
      evaluatePromotionGate (healthFromTrades trades' initialBalance) riskCfg days := by
  have hfew' : trades'.length < healthMinTrades := hlength ▸ hfew
  refine evaluatePromotionGate_congr ?_ ?_ ?_ ?_
  · rw [sampleSize_healthFromTrades, sampleSize_healthFromTrades, hlength]
  all_goals simp only [healthFromTrades, if_pos hfew, if_pos hfew']

theorem le_equityDrawdownFrom (peak : Option ℚ) (maxDrawdown : ℚ) (curve : List ℚ) :
    maxDrawdown ≤ equityDrawdownFrom peak maxDrawdown curve := by
  induction curve generalizing peak maxDrawdown with
  | nil => exact le_refl _
  | cons equity rest ih =>
    have hkept : ∀ peak : ℚ, maxDrawdown ≤
        if peak ≤ 0 then maxDrawdown else max maxDrawdown ((peak - equity) / peak) := by
      intro peak
      split
      · exact le_refl _
      · exact le_max_left _ _
    exact (hkept _).trans (ih _ _)

/-- **The drawdown** is at least the loss of the first trade that counts. -/
theorem maxDdPct_ge_of_first_loss {trade : HealthTrade} {rest : List HealthTrade}
    (hfirst : trades.filter (·.exitReason ≠ "OPEN") = trade :: rest) (hbalance : 0 < initialBalance)
    (hloss : trade.pnlUsdt ≤ 0) :
    -trade.pnlUsdt / initialBalance * 100 ≤
      calculateEquityMaxDrawdownPct (buildEquityCurve trades initialBalance) := by
  have hcurve : ∃ tail, buildEquityCurve trades initialBalance =
      initialBalance :: (initialBalance + trade.pnlUsdt) :: tail := by
    rw [buildEquityCurve, hfirst]
    cases rest with
    | nil => exact ⟨[], rfl⟩
    | cons next rest => exact ⟨_, rfl⟩
  obtain ⟨tail, hcurve⟩ := hcurve
  rw [hcurve]
  refine mul_le_mul_of_nonneg_right ?_ (by norm_num)
  have hpeak : max initialBalance (initialBalance + trade.pnlUsdt) = initialBalance :=
    max_eq_left (by linarith)
  have hdrop : (initialBalance - (initialBalance + trade.pnlUsdt)) / initialBalance =
      -trade.pnlUsdt / initialBalance := by
    congr 1
    ring
  simp only [equityDrawdownFrom, if_neg (not_le.mpr hbalance), hpeak, hdrop]
  exact le_trans (le_max_right _ _) (le_equityDrawdownFrom _ _ _)

end Decision

end AdviserConstructor
