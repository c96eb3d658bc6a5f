import Mathlib.Data.List.Basic
import Mathlib.Algebra.BigOperators.Group.List.Basic
import Mathlib.Tactic.Ring
import AdviserConstructor.Backtest.Frame

/-!
# Trades and their metrics

`app/services/backtesting/common.py`: every engine hands over its trades as dictionaries, of which
the metrics read what they find.  A `TradeRow` is such a dictionary: a missing field is a key that
the engine does not write.  The R multiple of a trade is its profit in units of its risk, and a
trade that carries an `r_real` of its own keeps that one.

The summary is modelled as far as the counts of the trades, the win rate, the profit factor, the R
curve and the balances go; rates of a year and of the equity curve are left out.

* `rMultiple_addCapitalMetrics`: the R multiple that a closed trade is left with.
-/

namespace AdviserConstructor

namespace Backtest

/-! ## Trades -/

/-- The texts of `exit_reason` and of `exit_type`. -/
inductive RowExit where
  | openAtEnd | stop | take | sl | tp | time | gridTp | eodClose
  deriving DecidableEq, Repr

/-- A trade as the engines hand it over. -/
structure TradeRow where
  side : Option Side := none
  entryTime : ℤ
  exitTime : ℤ
  entry : ℚ
  exit : Option ℚ := none
  sl : Option ℚ := none
  qty : Option ℚ := none
  positionSize : Option ℚ := none
  positionValue : Option ℚ := none
  allocationUsdt : Option ℚ := none
  entryNotional : Option ℚ := none
  notionalUsdt : Option ℚ := none
  exitNotional : Option ℚ := none
  exitPrice : Option ℚ := none
  barsHeld : Option ℚ := none
  riskUsdt : Option ℚ := none
  rReal : Option ℚ := none
  pnlUsdt : ℚ
  finalPnl : Option ℚ := none
  exitReason : Option RowExit := none
  exitType : Option RowExit := none
  costUsdt : Option ℚ := none
  rMultiple : Option ℚ := none
  deriving DecidableEq, Repr

namespace TradeRow

/-- `trade.get("exit_reason") == "OPEN"`. -/
def isOpen (t : TradeRow) : Bool := decide (t.exitReason = some .openAtEnd)

/-- A number that is there and positive. -/
def positive (x : Option ℚ) : Option ℚ := x.filter fun v => decide (0 < v)

/-- `_derive_trade_risk_usdt`. -/
def deriveTradeRiskUsdt (t : TradeRow) : Option ℚ :=
  t.sl.bind fun sl =>
    if |t.entry - sl| ≤ 0 then none
    else
      match (positive t.positionSize).or (positive t.qty) with
      | some quantity => some (|t.entry - sl| * |quantity|)
      | none =>
          if 0 < t.entry then
            (positive t.allocationUsdt).map fun allocation =>
              |t.entry - sl| / |t.entry| * allocation
          else none

/-- The risk that the profit of a trade is divided by. -/
def risk (t : TradeRow) : Option ℚ := (positive t.riskUsdt).or (positive t.deriveTradeRiskUsdt)

def netR (t : TradeRow) : Option ℚ := t.risk.map fun risk => t.pnlUsdt / risk

/-- `compute_trade_r_multiple`. -/
def computeTradeRMultiple (t : TradeRow) : Option ℚ := t.rReal.or t.netR

end TradeRow

def closedRows (trades : List TradeRow) : List TradeRow := trades.filter fun t => !t.isOpen

/-- `_collect_valid_r_values`. -/
def collectValidRValues (trades : List TradeRow) : List ℚ :=
  (closedRows trades).filterMap fun t => t.rMultiple.or t.computeTradeRMultiple

/-- The R values that follow from the profits of the closed trades and their risks. -/
def netRValues (trades : List TradeRow) : List ℚ := (closedRows trades).filterMap TradeRow.netR

/-! ## Performance -/

/-- The share of the positive numbers of a list, in percent. -/
def percentPositive (values : List ℚ) : ℚ :=
  if values = [] then 0
  else ((values.filter fun v => decide (0 < v)).length : ℚ) / values.length * 100

/-- The greatest fall of the running sum below its greatest value so far: `total` is the sum, `peak`
its greatest value, and `worst` the greatest fall. -/
def drawdownFrom (total peak worst : ℚ) : List ℚ → ℚ
  | [] => worst
  | v :: vs => drawdownFrom (total + v) (max peak (total + v))
      (max worst (max peak (total + v) - (total + v))) vs

/-- The greatest drawdown of the running sum, whose first peak is its first value. -/
def maxDrawdown : List ℚ → ℚ
  | [] => 0
  | v :: vs => drawdownFrom v v 0 vs

/-- `calculate_performance_metrics`, as far as it is modelled. -/
structure Performance where
  totalTrades : ℕ
  closedTrades : ℕ
  winRate : ℚ
  wins : ℕ
  losses : ℕ
  profitFactor : ℚ
  totalR : ℚ
  maxDrawdown : ℚ
  deriving DecidableEq, Repr

/-- The profit factor of a list of R values. -/
def profitFactor (rValues : List ℚ) : ℚ :=
  let totalWins := (rValues.filter fun v => decide (0 < v)).sum
  let totalLosses := |(rValues.filter fun v => decide (v < 0)).sum|
  if 0 < totalLosses then totalWins / totalLosses else max 0 totalWins

/-- What is computed from the R values. -/
def performanceOf (totalTrades closedTrades : ℕ) (rValues : List ℚ) : Performance where
  totalTrades := totalTrades
  closedTrades := closedTrades
  winRate := percentPositive rValues
  wins := (rValues.filter fun v => decide (0 < v)).length
  losses := (rValues.filter fun v => decide (v < 0)).length
  profitFactor := profitFactor rValues
  totalR := rValues.sum
  maxDrawdown := maxDrawdown rValues

/-- `calculate_performance_metrics`. -/
def calculatePerformanceMetrics (trades : List TradeRow) : Performance :=
  performanceOf trades.length (closedRows trades).length (collectValidRValues trades)

/-! ## Capital -/

/-- The result of an engine. -/
structure EngineResult where
  trades : List TradeRow
  performance : Performance
  initialBalance : ℚ
  totalPnl : ℚ
  finalBalance : ℚ
  deriving DecidableEq, Repr

/-- A trade with the R multiple that `add_capital_metrics` gives it. -/
def TradeRow.withRMultiple (t : TradeRow) : TradeRow :=
  { t with rMultiple := if t.isOpen then none else t.computeTradeRMultiple }

/-- `add_capital_metrics`: what the engine has summarised takes the place of the metrics of the
trades, but for the sum of the R values. -/
def addCapitalMetrics (summarised : Performance → Performance) (trades : List TradeRow)
    (initialBalance : ℚ) : EngineResult :=
  let trades := trades.map TradeRow.withRMultiple
  let totalPnl := ((closedRows trades).map TradeRow.pnlUsdt).sum
  { trades := trades
    performance :=
      { summarised (calculatePerformanceMetrics trades) with
        totalR := (collectValidRValues trades).sum }
    initialBalance := initialBalance
    totalPnl := totalPnl
    finalBalance := initialBalance + totalPnl }

/-! ## Lemmas -/

section

variable {t : TradeRow} {trades : List TradeRow}

@[simp] theorem isOpen_withRMultiple : t.withRMultiple.isOpen = t.isOpen := rfl

@[simp] theorem pnlUsdt_withRMultiple : t.withRMultiple.pnlUsdt = t.pnlUsdt := rfl

theorem closedRows_map {f : TradeRow → TradeRow} (hf : ∀ t, (f t).isOpen = t.isOpen) :
    closedRows (trades.map f) = (closedRows trades).map f := by
  rw [closedRows, List.filter_map]
  congr 1
  refine List.filter_congr fun t _ => ?_
  rw [Function.comp_apply, hf]

theorem mem_closedRows : t ∈ closedRows trades ↔ t ∈ trades ∧ t.isOpen = false := by
  rw [closedRows, List.mem_filter, Bool.not_eq_true']

/-- The R multiple that a closed trade is left with. -/
theorem rMultiple_addCapitalMetrics {summarised : Performance → Performance} {initialBalance : ℚ}
    (ht : t ∈ (addCapitalMetrics summarised trades initialBalance).trades)
    (hclosed : t.isOpen = false) : t.rMultiple = t.computeTradeRMultiple := by
  obtain ⟨u, _, rfl⟩ := List.mem_map.mp ht
  have hu : u.isOpen = false := hclosed
  show (if u.isOpen then none else u.computeTradeRMultiple) = u.computeTradeRMultiple
  rw [hu]
  rfl

theorem netR_of_riskUsdt {risk : ℚ} (hrisk : t.riskUsdt = some risk) (hpos : 0 < risk) :
    t.netR = some (t.pnlUsdt / risk) := by
  have hfilter : TradeRow.positive t.riskUsdt = some risk := by
    rw [TradeRow.positive, hrisk, Option.filter_some, decide_eq_true hpos]
    rfl
  rw [TradeRow.netR, TradeRow.risk, hfilter]
  rfl

/-- Trades that carry no `r_real`. -/
def NoRReal (trades : List TradeRow) : Prop := ∀ t ∈ trades, t.rReal = none

theorem collectValidRValues_withRMultiple (trades : List TradeRow) :
    collectValidRValues (trades.map TradeRow.withRMultiple) =
      (closedRows trades).filterMap TradeRow.computeTradeRMultiple := by
  rw [collectValidRValues, closedRows_map fun t => @isOpen_withRMultiple t, List.filterMap_map]
  refine List.filterMap_congr fun t ht => ?_
  have hclosed := (mem_closedRows.mp ht).2
  have hmultiple : t.withRMultiple.rMultiple = t.computeTradeRMultiple := by
    show (if t.isOpen then none else t.computeTradeRMultiple) = t.computeTradeRMultiple
    rw [hclosed]
    rfl
  show t.withRMultiple.rMultiple.or t.computeTradeRMultiple = t.computeTradeRMultiple
  rw [hmultiple, Option.or_self]

theorem netRValues_withRMultiple (trades : List TradeRow) :
    netRValues (trades.map TradeRow.withRMultiple) = netRValues trades := by
  rw [netRValues, closedRows_map fun t => @isOpen_withRMultiple t, List.filterMap_map]
  rfl

end

end Backtest

end AdviserConstructor
