import AdviserConstructor.Backtest.Service
import AdviserConstructor.Library.RunningPeak

/-!
# The totals and the curves of a result

`app/services/backtesting/common.py` and `service.py`: the summary of a backtest, its trades, and
the points of its charts are computed in separate passes over the trades, each of which skips what
it cannot use.  The AI side lock drops trades from a finished result, and computes the summary and
the equity curve once more; the R curves stay those of all trades.

A `TradeDict` is a trade as the metrics find it: any of its numbers may be missing, or be no finite
number, which is the same to them.  Every trade has a time of entry.

* `getLast?_buildEquityCurve`, `getLast?_buildRCumulativeCurve`: the curves end where the totals
  are.
* `selfConsistent_engineResult`: the result of an engine describes one list of closed trades.
* `selfConsistent_iff`: so does the result behind the side lock exactly if the R multiples of the
  closed trades that it drops come to nothing.
* `metrics_ofRow`, `applyAiSideLock_ofRow`: on the trades of the engines these are the totals of
  `Metrics`, and the lock is that of `Service`.
-/

namespace AdviserConstructor

namespace Backtest

namespace ResultCurves

open RunningPeak

/-! ## Trades -/

/-- A trade, by the keys that the metrics and the side lock read. -/
structure TradeDict where
  side : Option Side := none
  entryTime : ℤ
  exitTime : Option ℤ := none
  entry : Option ℚ := none
  sl : Option ℚ := none
  positionSize : Option ℚ := none
  qty : Option ℚ := none
  allocationUsdt : Option ℚ := none
  riskUsdt : Option ℚ := none
  rReal : Option ℚ := none
  pnlUsdt : Option ℚ := none
  exitReason : Option RowExit := none
  rMultiple : Option ℚ := none
  deriving DecidableEq, Repr

namespace TradeDict

/-- `trade.get("exit_reason") == "OPEN"`. -/
def isOpen (t : TradeDict) : Bool := decide (t.exitReason = some .openAtEnd)

/-- `_derive_trade_risk_usdt`. -/
def deriveTradeRiskUsdt (t : TradeDict) : Option ℚ :=
  t.entry.bind fun entry => t.sl.bind fun sl =>
    if |entry - sl| ≤ 0 then none
    else
      match (TradeRow.positive t.positionSize).or (TradeRow.positive t.qty) with
      | some quantity => some (|entry - sl| * |quantity|)
      | none =>
          if 0 < entry then
            (TradeRow.positive t.allocationUsdt).map fun allocation =>
              |entry - sl| / |entry| * allocation
          else none

/-- `compute_trade_r_multiple`. -/
def computeTradeRMultiple (t : TradeDict) : Option ℚ :=
  t.rReal.or (t.pnlUsdt.bind fun pnl =>
    ((TradeRow.positive t.riskUsdt).or (TradeRow.positive t.deriveTradeRiskUsdt)).map fun risk =>
      pnl / risk)

/-- A trade with the R multiple that `add_capital_metrics` writes into it. -/
def withRMultiple (t : TradeDict) : TradeDict :=
  { t with rMultiple := if t.isOpen then none else t.computeTradeRMultiple }

def ofRow (row : TradeRow) : TradeDict where
  side := row.side
  entryTime := row.entryTime
  exitTime := some row.exitTime
  entry := some row.entry
  sl := row.sl
  positionSize := row.positionSize
  qty := row.qty
  allocationUsdt := row.allocationUsdt
  riskUsdt := row.riskUsdt
  rReal := row.rReal
  pnlUsdt := some row.pnlUsdt
  exitReason := row.exitReason
  rMultiple := row.rMultiple

end TradeDict

def closed (trades : List TradeDict) : List TradeDict := trades.filter fun t => !t.isOpen

/-- `_collect_valid_r_values`. -/
def collectValidRValues (trades : List TradeDict) : List ℚ :=
  (closed trades).filterMap fun t => t.rMultiple.or t.computeTradeRMultiple

/-- The finite profits of the closed trades. -/
def closedPnls (trades : List TradeDict) : List ℚ := (closed trades).filterMap TradeDict.pnlUsdt

/-! ## Curves -/

/-- A point of the equity curve. -/
structure EquityPoint where
  step : ℕ
  time : Option ℤ
  equity : ℚ
  pnlUsdt : ℚ
  deriving DecidableEq, Repr

/-- The loop of `build_equity_curve`. -/
def equityFrom (step : ℕ) (equity : ℚ) : List TradeDict → List EquityPoint
  | [] => []
  | t :: trades =>
      if t.isOpen then equityFrom step equity trades
      else
        match t.pnlUsdt with
        | none => equityFrom step equity trades
        | some pnl =>
            { step := step, time := t.exitTime, equity := equity + pnl, pnlUsdt := pnl } ::
              equityFrom (step + 1) (equity + pnl) trades

/-- `build_equity_curve`. -/
def buildEquityCurve (trades : List TradeDict) (initialBalance : ℚ) : List EquityPoint :=
  { step := 0, time := none, equity := initialBalance, pnlUsdt := 0 } ::
    equityFrom 1 initialBalance trades

/-- `calculate_equity_max_drawdown_pct`. -/
def calculateEquityMaxDrawdownPct (curve : List EquityPoint) : ℚ :=
  drawdown (curve.map EquityPoint.equity) * 100

/-- `np.cumsum`, from a total on. -/
def cumsum (total : ℚ) : List ℚ → List ℚ
  | [] => []
  | v :: vs => (total + v) :: cumsum (total + v) vs

/-- `build_r_cumulative_curve`. -/
def buildRCumulativeCurve (rMultiples : List ℚ) : List ℚ :=
  if rMultiples = [] then [0] else 0 :: cumsum 0 rMultiples

/-! ## Results -/

/-- A summary, as far as it is modelled. -/
structure Summary where
  totalTrades : ℕ
  initialBalance : ℚ
  finalBalance : ℚ
  totalPnl : ℚ
  totalR : ℚ
  rCumulative : ℚ
  maxDrawdownPct : ℚ
  deriving DecidableEq, Repr

/-- The points of the charts of a result. -/
structure ChartPoints where
  equityCurve : List EquityPoint
  rCumulativeCurve : List ℚ
  rEquityCurve : List ℚ
  deriving DecidableEq, Repr

/-- A result. -/
structure BacktestResult where
  summary : Summary
  trades : List TradeDict
  chartPoints : ChartPoints
  deriving DecidableEq, Repr

/-- The summary that `add_capital_metrics` returns, where the one that it is given counts
`totalTrades`. -/
def capitalSummary (totalTrades : ℕ) (trades : List TradeDict) (initialBalance : ℚ) : Summary :=
  let rCumulativeCurve := buildRCumulativeCurve (collectValidRValues trades)
  let totalPnl := (closedPnls trades).sum
  { totalTrades := totalTrades
    initialBalance := initialBalance
    finalBalance := initialBalance + totalPnl
    totalPnl := totalPnl
    totalR := rCumulativeCurve.getLast?.getD 0
    rCumulative := rCumulativeCurve.getLast?.getD 0
    maxDrawdownPct := calculateEquityMaxDrawdownPct (buildEquityCurve trades initialBalance) }

/-- `add_capital_metrics`: the summary, the trades with their R multiples, and the equity curve. -/
def addCapitalMetrics (totalTrades : ℕ) (trades : List TradeDict) (initialBalance : ℚ) :
    Summary × List TradeDict × List EquityPoint :=
  let annotated := trades.map TradeDict.withRMultiple
  (capitalSummary totalTrades annotated initialBalance, annotated,
    buildEquityCurve annotated initialBalance)

/-- The end of `run_atr_order_block`, `run_knife_catcher` and the other engines, once the costs are
off the trades: the summary counts them, the metrics are added, and `build_r_chart_points` makes the
R curves. -/
def engineResult (trades : List TradeDict) (initialBalance : ℚ) : BacktestResult :=
  let (summary, trades, equityCurve) := addCapitalMetrics trades.length trades initialBalance
  let rCumulativeCurve := buildRCumulativeCurve (collectValidRValues trades)
  { summary := summary
    trades := trades
    chartPoints :=
      { equityCurve := equityCurve
        rCumulativeCurve := rCumulativeCurve
        rEquityCurve := rCumulativeCurve } }

/-- The lock lets the trade through.  A trade without a side is long. -/
def isKept (df : Frame) (locks : List AiSideLock) (t : TradeDict) : Bool :=
  sideAllowed (t.side.getD .long) (lockAt df locks t.entryTime)

/-- `_apply_ai_side_lock`; without an overlay the lock is off. -/
def applyAiSideLock (df : Frame) (overlay : Option (List OverlayBar)) (initialBalance : ℚ)
    (result : BacktestResult) : BacktestResult :=
  match overlay with
  | none => result
  | some bars =>
      let locks := bars.map OverlayBar.sideLock
      if locks.all fun lock => decide (lock = .none) then result
      else
        let kept := result.trades.filter (isKept df locks)
        if (result.trades.filter fun t => !isKept df locks t).length = 0 then result
        else
          let (summary, trades, equityCurve) :=
            addCapitalMetrics kept.length kept initialBalance
          { result with
            summary := summary
            trades := trades
            chartPoints := { result.chartPoints with equityCurve := equityCurve } }

/-- The trades that the side lock drops. -/
def dropped (df : Frame) (overlay : Option (List OverlayBar)) (trades : List TradeDict) :
    List TradeDict :=
  trades.filter fun t => !isKept df ((overlay.getD []).map OverlayBar.sideLock) t

/-- The summary, the trades and the curves describe the same closed trades. -/
structure SelfConsistent (r : BacktestResult) : Prop where
  finalBalance : r.summary.finalBalance = r.summary.initialBalance + (closedPnls r.trades).sum
  lastEquity : r.chartPoints.equityCurve.getLast?.map EquityPoint.equity =
    some r.summary.finalBalance
  totalR : r.summary.totalR = ((closed r.trades).filterMap TradeDict.rMultiple).sum
  lastR : r.chartPoints.rCumulativeCurve.getLast? = some r.summary.totalR
  totalTrades : r.summary.totalTrades = r.trades.length
  /-- the drawdown is measured from the positive running peak -/
  maxDrawdown : ∃ d, IsGreatest
    (insert 0 (falls (r.chartPoints.equityCurve.map EquityPoint.equity))) d ∧
      r.summary.maxDrawdownPct = 100 * d
  /-- which, on a curve that is never negative, is the same as from any positive point before -/
  maxDrawdown_nonneg : (∀ point ∈ r.chartPoints.equityCurve, 0 ≤ point.equity) → ∃ d, IsGreatest
    (insert 0 (drops (r.chartPoints.equityCurve.map EquityPoint.equity))) d ∧
      r.summary.maxDrawdownPct = 100 * d

/-! ## Where the curves end -/

section

variable {t : TradeDict} {trades : List TradeDict}

theorem closed_cons (t : TradeDict) (trades : List TradeDict) :
    closed (t :: trades) = if t.isOpen then closed trades else t :: closed trades := by
  rw [closed, List.filter_cons]
  cases t.isOpen with
  | false => rfl
  | true => rfl

theorem getLast?_equityFrom (trades : List TradeDict) (step : ℕ) (point : EquityPoint) :
    (point :: equityFrom step point.equity trades).getLast?.map EquityPoint.equity =
      some (point.equity + (closedPnls trades).sum) := by
  induction trades generalizing step point with
  | nil =>
    show some point.equity = some (point.equity + 0)
    rw [add_zero]
  | cons t trades ih =>
    rw [equityFrom, closedPnls, closed_cons]
    cases hopen : t.isOpen with
    | true => exact ih step point
    | false =>
      rw [if_neg Bool.false_ne_true, if_neg Bool.false_ne_true]
      cases hpnl : t.pnlUsdt with
      | none =>
        rw [List.filterMap_cons_none hpnl]
        exact ih step point
      | some pnl =>
        rw [List.filterMap_cons_some hpnl, List.sum_cons, ← add_assoc]
        exact ih (step + 1) _

/-- **The equity curve** ends at the initial balance and the profits of the closed trades. -/
theorem getLast?_buildEquityCurve (trades : List TradeDict) (initialBalance : ℚ) :
    (buildEquityCurve trades initialBalance).getLast?.map EquityPoint.equity =
      some (initialBalance + (closedPnls trades).sum) :=
  getLast?_equityFrom trades 1 { step := 0, time := none, equity := initialBalance, pnlUsdt := 0 }

theorem getLast?_cumsum (values : List ℚ) (total : ℚ) :
    (total :: cumsum total values).getLast? = some (total + values.sum) := by
  induction values generalizing total with
  | nil =>
    show some total = some (total + 0)
    rw [add_zero]
  | cons v values ih => rw [cumsum, List.getLast?_cons_cons, ih, List.sum_cons, add_assoc]

/-- **The R curve** ends at the sum of the R multiples. -/
theorem getLast?_buildRCumulativeCurve (rMultiples : List ℚ) :
    (buildRCumulativeCurve rMultiples).getLast? = some rMultiples.sum := by
  rw [buildRCumulativeCurve]
  split_ifs with hnil
  · rw [hnil]
    rfl
  · rw [getLast?_cumsum, zero_add]

/-! ## The trades with their R multiples -/

theorem computeTradeRMultiple_withRMultiple (t : TradeDict) :
    t.withRMultiple.computeTradeRMultiple = t.computeTradeRMultiple := rfl

theorem closed_map_withRMultiple (trades : List TradeDict) :
    closed (trades.map TradeDict.withRMultiple) = (closed trades).map TradeDict.withRMultiple := by
  rw [closed, List.filter_map]
  rfl

theorem rMultiple_withRMultiple_of_closed (h : t ∈ closed trades) :
    t.withRMultiple.rMultiple = t.computeTradeRMultiple := by
  have hopen : t.isOpen = false := by
    have hkept := (List.mem_filter.mp h).2
    rwa [Bool.not_eq_true'] at hkept
  show (if t.isOpen then none else t.computeTradeRMultiple) = _
  rw [hopen]
  rfl

theorem rMultiples_annotated (trades : List TradeDict) :
    (closed (trades.map TradeDict.withRMultiple)).filterMap TradeDict.rMultiple =
      (closed trades).filterMap TradeDict.computeTradeRMultiple := by
  rw [closed_map_withRMultiple, List.filterMap_map]
  exact List.filterMap_congr fun t ht => rMultiple_withRMultiple_of_closed ht

theorem collectValidRValues_annotated (trades : List TradeDict) :
    collectValidRValues (trades.map TradeDict.withRMultiple) =
      (closed trades).filterMap TradeDict.computeTradeRMultiple := by
  rw [collectValidRValues, closed_map_withRMultiple, List.filterMap_map]
  refine List.filterMap_congr fun t ht => ?_
  rw [Function.comp_apply, rMultiple_withRMultiple_of_closed ht,
    computeTradeRMultiple_withRMultiple, Option.or_self]

/-- The R multiples of the closed trades of a list. -/
def rSum (trades : List TradeDict) : ℚ :=
  ((closed trades).filterMap TradeDict.computeTradeRMultiple).sum

theorem rSum_eq_add (keep : TradeDict → Bool) (trades : List TradeDict) :
    rSum trades = rSum (trades.filter keep) + rSum (trades.filter fun t => !keep t) := by
  have hperm := (List.filter_append_perm keep trades).symm
  have hsum := ((hperm.filter fun t => !t.isOpen).filterMap TradeDict.computeTradeRMultiple).sum_eq
  rw [List.filter_append, List.filterMap_append, List.sum_append] at hsum
  exact hsum

/-! ## The metrics -/

theorem selfConsistent_metrics_iff (trades : List TradeDict) (initialBalance : ℚ)
    (rCurve rCurve' : List ℚ) :
    SelfConsistent
        { summary := (addCapitalMetrics trades.length trades initialBalance).1
          trades := (addCapitalMetrics trades.length trades initialBalance).2.1
          chartPoints :=
            { equityCurve := (addCapitalMetrics trades.length trades initialBalance).2.2
              rCumulativeCurve := rCurve
              rEquityCurve := rCurve' } } ↔
      rCurve.getLast? = some (rSum trades) := by
  have htotal : (addCapitalMetrics trades.length trades initialBalance).1.totalR = rSum trades := by
    show (buildRCumulativeCurve (collectValidRValues (trades.map _))).getLast?.getD 0 = _
    rw [getLast?_buildRCumulativeCurve, collectValidRValues_annotated]
    rfl
  constructor
  · intro h
    rw [← htotal]
    exact h.lastR
  · intro hlast
    exact
      { finalBalance := rfl
        lastEquity := getLast?_buildEquityCurve _ _
        totalR := by
          rw [htotal]
          exact congrArg List.sum (rMultiples_annotated trades).symm
        lastR := by
          rw [htotal]
          exact hlast
        totalTrades := (List.length_map _).symm
        maxDrawdown := ⟨_, isGreatest_drawdown _, mul_comm _ _⟩
        maxDrawdown_nonneg := fun hnonneg =>
          ⟨_, isGreatest_drops (List.forall_mem_map.mpr hnonneg), mul_comm _ _⟩ }

theorem rCumulativeCurve_engineResult (trades : List TradeDict) (initialBalance : ℚ) :
    (engineResult trades initialBalance).chartPoints.rCumulativeCurve =
      buildRCumulativeCurve ((closed trades).filterMap TradeDict.computeTradeRMultiple) :=
  congrArg buildRCumulativeCurve (collectValidRValues_annotated trades)

/-- **The result of an engine** describes one list of closed trades. -/
theorem selfConsistent_engineResult (trades : List TradeDict) (initialBalance : ℚ) :
    SelfConsistent (engineResult trades initialBalance) := by
  refine (selfConsistent_metrics_iff trades initialBalance _ _).mpr ?_
  exact (congrArg List.getLast? (rCumulativeCurve_engineResult trades initialBalance)).trans
    (getLast?_buildRCumulativeCurve _)

/-! ## The side lock -/

theorem filter_map_withRMultiple (df : Frame) (locks : List AiSideLock) (trades : List TradeDict) :
    (trades.map TradeDict.withRMultiple).filter (isKept df locks) =
      (trades.filter (isKept df locks)).map TradeDict.withRMultiple := by
  rw [List.filter_map]
  rfl

theorem rSum_map_withRMultiple (trades : List TradeDict) :
    rSum (trades.map TradeDict.withRMultiple) = rSum trades := by
  rw [rSum, closed_map_withRMultiple, List.filterMap_map]
  rfl

theorem isKept_of_all_none {df : Frame} {locks : List AiSideLock}
    (hnone : (locks.all fun lock => decide (lock = .none)) = true) (t : TradeDict) :
    isKept df locks t = true := by
  rw [isKept, lockAt_of_all_none hnone]
  rfl

theorem dropped_eq_nil_of_all_none {df : Frame} {overlay : Option (List OverlayBar)}
    (hnone : (((overlay.getD []).map OverlayBar.sideLock).all fun lock =>
      decide (lock = .none)) = true) : dropped df overlay trades = [] := by
  refine List.filter_eq_nil_iff.mpr fun t _ => ?_
  rw [isKept_of_all_none hnone t]
  exact Bool.false_ne_true

/-- What the lock makes of the result of an engine: where it drops nothing it leaves the result as
it is, and otherwise it computes everything but the R curves from the trades that it keeps. -/
theorem applyAiSideLock_engineResult (df : Frame) (overlay : Option (List OverlayBar))
    (trades : List TradeDict) (initialBalance : ℚ) :
    applyAiSideLock df overlay initialBalance (engineResult trades initialBalance) =
      if dropped df overlay trades = [] then engineResult trades initialBalance
      else
        let kept := ((trades.filter (isKept df ((overlay.getD []).map OverlayBar.sideLock))).map
          TradeDict.withRMultiple)
        let curves := (engineResult trades initialBalance).chartPoints
        { summary := (addCapitalMetrics kept.length kept initialBalance).1
          trades := (addCapitalMetrics kept.length kept initialBalance).2.1
          chartPoints :=
            { equityCurve := (addCapitalMetrics kept.length kept initialBalance).2.2
              rCumulativeCurve := curves.rCumulativeCurve
              rEquityCurve := curves.rEquityCurve } } := by
  cases overlay with
  | none =>
    rw [if_pos (dropped_eq_nil_of_all_none rfl)]
    rfl
  | some bars =>
    rw [applyAiSideLock]
    by_cases hnone : ((bars.map OverlayBar.sideLock).all fun lock => decide (lock = .none)) = true
    · rw [if_pos hnone, if_pos (@dropped_eq_nil_of_all_none trades df (some bars) hnone)]
    · rw [if_neg hnone, ← filter_map_withRMultiple]
      refine if_congr ?_ rfl rfl
      show ((trades.map TradeDict.withRMultiple).filter _).length = 0 ↔ _
      rw [List.filter_map, List.length_map, List.length_eq_zero_iff]
      rfl

/-- **Behind the side lock** a result describes one list of closed trades exactly if the R multiples
of the closed trades that the lock drops come to nothing: the R curve is the one of all trades. -/
theorem selfConsistent_iff (df : Frame) (overlay : Option (List OverlayBar))
    (trades : List TradeDict) (initialBalance : ℚ) :
    SelfConsistent
        (applyAiSideLock df overlay initialBalance (engineResult trades initialBalance)) ↔
      rSum (dropped df overlay trades) = 0 := by
  rw [applyAiSideLock_engineResult]
  split_ifs with hnil
  · rw [hnil]
    exact iff_of_true (selfConsistent_engineResult trades initialBalance) rfl
  · refine (selfConsistent_metrics_iff _ initialBalance _ _).trans ?_
    -- the curve ends where all trades do, the total is that of the trades which are kept
    rw [rCumulativeCurve_engineResult, getLast?_buildRCumulativeCurve, Option.some_inj,
      rSum_map_withRMultiple]
    show rSum trades = _ ↔ _
    rw [rSum_eq_add (isKept df ((overlay.getD []).map OverlayBar.sideLock)) trades, add_eq_left]
    rfl

end

/-- Two bars, of which the first one forbids to be long. -/
def lockedFrame : Frame := [⟨0, 1, 1, 1, 1, 0⟩, ⟨1, 1, 1, 1, 1, 0⟩]

def lockedOverlay : List OverlayBar :=
  [⟨.bear, true, true, some 0, some 1⟩, ⟨.flat, true, true, some 0, some 1⟩]

/-- Two long trades that gain one R each, entered on the first bar and on the second one. -/
def lockedTrades : List TradeDict :=
  [{ side := some .long, entryTime := 0, riskUsdt := some 1, pnlUsdt := some 1 },
    { side := some .long, entryTime := 1, riskUsdt := some 1, pnlUsdt := some 1 }]

/-- The first trade is dropped, the R curve still ends at two R. -/
theorem not_selfConsistent_lockedTrades :
    ¬∀ (df : Frame) (overlay : Option (List OverlayBar)) (trades : List TradeDict)
      (initialBalance : ℚ), SelfConsistent
        (applyAiSideLock df overlay initialBalance (engineResult trades initialBalance)) := by
  intro h
  have hlast := (h lockedFrame (some lockedOverlay) lockedTrades 1000).lastR
  revert hlast
  decide +kernel

/-! ## On the trades of the engines -/

section

variable (rows : List TradeRow)

theorem map_ofRow_withRMultiple :
    (rows.map TradeDict.ofRow).map TradeDict.withRMultiple =
      (rows.map TradeRow.withRMultiple).map TradeDict.ofRow := by
  rw [List.map_map, List.map_map]
  rfl

theorem closed_map_ofRow : closed (rows.map TradeDict.ofRow) =
    (closedRows rows).map TradeDict.ofRow := by
  rw [closed, List.filter_map]
  rfl

theorem collectValidRValues_map_ofRow : collectValidRValues (rows.map TradeDict.ofRow) =
    Backtest.collectValidRValues rows := by
  rw [collectValidRValues, closed_map_ofRow, List.filterMap_map]
  rfl

theorem closedPnls_map_ofRow : closedPnls (rows.map TradeDict.ofRow) =
    (closedRows rows).map TradeRow.pnlUsdt := by
  rw [closedPnls, closed_map_ofRow, List.filterMap_map]
  exact congrFun List.filterMap_eq_map (closedRows rows)

/-- **On the trades of an engine** the totals are those of `Metrics`. -/
theorem metrics_ofRow (summarised : Performance → Performance) (initialBalance : ℚ) :
    (engineResult (rows.map TradeDict.ofRow) initialBalance).trades =
        (Backtest.addCapitalMetrics summarised rows initialBalance).trades.map TradeDict.ofRow ∧
      (engineResult (rows.map TradeDict.ofRow) initialBalance).summary.finalBalance =
        (Backtest.addCapitalMetrics summarised rows initialBalance).finalBalance ∧
      (engineResult (rows.map TradeDict.ofRow) initialBalance).summary.totalR =
        (Backtest.addCapitalMetrics summarised rows initialBalance).performance.totalR := by
  refine ⟨map_ofRow_withRMultiple rows, ?_, ?_⟩
  · show initialBalance + (closedPnls ((rows.map _).map _)).sum = _
    rw [map_ofRow_withRMultiple, closedPnls_map_ofRow]
    rfl
  · show (buildRCumulativeCurve (collectValidRValues ((rows.map _).map _))).getLast?.getD 0 = _
    rw [map_ofRow_withRMultiple, collectValidRValues_map_ofRow, getLast?_buildRCumulativeCurve]
    rfl

/-- A result has the trades and the totals of a result of `Metrics`. -/
structure Shows (result : BacktestResult) (shown : EngineResult) : Prop where
  trades : result.trades = shown.trades.map TradeDict.ofRow
  finalBalance : result.summary.finalBalance = shown.finalBalance
  totalR : result.summary.totalR = shown.performance.totalR

/-- **The side lock** makes of the result of an engine what it makes of it in `Service`. -/
theorem applyAiSideLock_ofRow (df : Frame) (overlay : Option (List OverlayBar))
    (summarised : Performance → Performance) (initialBalance : ℚ) :
    Shows
      (applyAiSideLock df overlay initialBalance
        (engineResult (rows.map TradeDict.ofRow) initialBalance))
      (Backtest.applyAiSideLock df overlay
        (Backtest.addCapitalMetrics summarised rows initialBalance)) := by
  have hshows : ∀ (summarised : Performance → Performance) (rows : List TradeRow),
      Shows (engineResult (rows.map TradeDict.ofRow) initialBalance)
        (Backtest.addCapitalMetrics summarised rows initialBalance) := fun summarised rows =>
    ⟨(metrics_ofRow rows summarised initialBalance).1,
      (metrics_ofRow rows summarised initialBalance).2.1,
      (metrics_ofRow rows summarised initialBalance).2.2⟩
  cases overlay with
  | none => exact hshows summarised rows
  | some bars =>
    rw [applyAiSideLock, Backtest.applyAiSideLock]
    by_cases hnone : ((bars.map OverlayBar.sideLock).all fun lock => decide (lock = .none)) = true
    · rw [if_pos hnone, if_pos hnone]
      exact hshows summarised rows
    · rw [if_neg hnone, if_neg hnone]
      -- both filter the trades with their R multiples
      have hkept : (engineResult (rows.map TradeDict.ofRow) initialBalance).trades.filter
            (isKept df (bars.map OverlayBar.sideLock)) =
          ((rows.map TradeRow.withRMultiple).filter
            (Backtest.isKept df (bars.map OverlayBar.sideLock))).map TradeDict.ofRow := by
        rw [(hshows summarised rows).trades, List.filter_map]
        rfl
      have hdrops : ((engineResult (rows.map TradeDict.ofRow) initialBalance).trades.filter fun t =>
            !isKept df (bars.map OverlayBar.sideLock) t).length = 0 ↔
          ((rows.map TradeRow.withRMultiple).filter
            (Backtest.isKept df (bars.map OverlayBar.sideLock))).length =
              (rows.map TradeRow.withRMultiple).length := by
        rw [List.length_filter_eq_length_iff, List.length_eq_zero_iff, List.filter_eq_nil_iff,
          (hshows summarised rows).trades, List.forall_mem_map]
        refine forall₂_congr fun row _ => ?_
        rw [Bool.not_eq_true', Bool.not_eq_false]
        rfl
      by_cases hall : ((rows.map TradeRow.withRMultiple).filter
          (Backtest.isKept df (bars.map OverlayBar.sideLock))).length =
            (rows.map TradeRow.withRMultiple).length
      · rw [if_pos (hdrops.mpr hall)]
        exact (if_pos hall).symm ▸ hshows summarised rows
      · rw [if_neg (mt hdrops.mp hall), hkept]
        refine (if_neg hall).symm ▸ ?_
        obtain ⟨htrades, hbalance, htotal⟩ := hshows (fun _ => calculatePerformanceMetrics
          ((rows.map TradeRow.withRMultiple).filter
            (Backtest.isKept df (bars.map OverlayBar.sideLock)))) _
        exact ⟨htrades, hbalance, htotal⟩

end

end ResultCurves

end Backtest

end AdviserConstructor
