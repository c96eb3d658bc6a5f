import AdviserConstructor.Backtest.Metrics

/-!
# The cost model

`app/services/backtesting/cost_model.py`: fees, slippage and funding are taken off the profit of
each closed trade, and the engines then summarise the net trades again.

* `netOf_riskUsdt`: the risk of a trade is left as the engine has recorded it.
* `closedRows_applyCostModel`: the costs close no trade and open none.
-/

namespace AdviserConstructor

namespace Backtest

/-- `CostModel`. -/
structure CostModel where
  feePct : ℚ := 0
  slippagePct : ℚ := 0
  fundingPctPerBar : ℚ := 0
  deriving DecidableEq, Repr

/-- `is_zero`. -/
def CostModel.isZero (cost : CostModel) : Bool :=
  decide (cost.feePct = 0 ∧ cost.slippagePct = 0 ∧ cost.fundingPctPerBar = 0)

/-- What is charged for each side of a trade, in percent of its notional. -/
def CostModel.perSideRate (cost : CostModel) : ℚ := cost.feePct + cost.slippagePct

/-- The keys of the parameters of an engine that the costs are read from. -/
structure CostParams where
  feePct : Option ℚ := none
  orderFeePct : Option ℚ := none
  slippagePct : Option ℚ := none
  fundingPctPerBar : Option ℚ := none
  deriving DecidableEq, Repr

/-- `_DEFAULT_FEE_PCT`. -/
def defaultFeePct : ℚ := 6 / 100

/-- `cost_model_from_params`. -/
def costModelFromParams (params : CostParams) : CostModel where
  feePct := (params.feePct.or params.orderFeePct).getD defaultFeePct
  slippagePct := params.slippagePct.getD 0
  fundingPctPerBar := params.fundingPctPerBar.getD 0

namespace TradeRow

/-- `_entry_notional`. -/
def entryNotionalOf (t : TradeRow) : ℚ :=
  match t.entryNotional.or (t.notionalUsdt.or (t.positionValue.or t.allocationUsdt)) with
  | some notional => |notional|
  | none => |(t.qty.or t.positionSize).getD 0 * t.entry|

/-- `_exit_notional`. -/
def exitNotionalOf (t : TradeRow) (entryNotional : ℚ) : ℚ :=
  match t.exitNotional with
  | some notional => |notional|
  | none =>
      let qty := (t.qty.or t.positionSize).getD 0
      let exitPrice := (t.exitPrice.or t.exit).getD 0
      if qty ≠ 0 ∧ exitPrice ≠ 0 then |qty * exitPrice|
      else if t.entry ≠ 0 ∧ exitPrice ≠ 0 then entryNotional * (exitPrice / t.entry)
      else entryNotional

/-- `_holding_bars`. -/
def holdingBars (t : TradeRow) : ℚ := max (t.barsHeld.getD 0) 0

end TradeRow

/-- `trade_cost_usdt`. -/
def tradeCostUsdt (entryNotional exitNotional holdingBars : ℚ) (cost : CostModel) : ℚ :=
  (entryNotional + exitNotional) * cost.perSideRate / 100 +
    entryNotional * cost.fundingPctPerBar / 100 * max holdingBars 0

/-- What a cost model charges for a trade. -/
def TradeRow.costUnder (t : TradeRow) (cost : CostModel) : ℚ :=
  tradeCostUsdt t.entryNotionalOf (t.exitNotionalOf t.entryNotionalOf) t.holdingBars cost

/-- The trade is charged: it is closed, and it has a notional. -/
def TradeRow.isCharged (t : TradeRow) : Bool := !t.isOpen && decide (0 < t.entryNotionalOf)

def TradeRow.netOf (cost : CostModel) (t : TradeRow) : TradeRow :=
  if t.isCharged then
    { t with
      costUsdt := some (t.costUnder cost)
      pnlUsdt := t.pnlUsdt - t.costUnder cost }
  else t

/-- `apply_cost_model`. -/
def applyCostModel (trades : List TradeRow) (cost : CostModel) : List TradeRow :=
  if cost.isZero then trades else trades.map (TradeRow.netOf cost)

/-- `refresh_net_pnl_summary`: the win rate of a summary, from the net trades. -/
def refreshNetPnlSummary (winRate : ℚ) (trades : List TradeRow) : ℚ :=
  if closedRows trades = [] then winRate
  else percentPositive ((closedRows trades).map TradeRow.pnlUsdt)

/-- What an engine summarises before the metrics: the number of its trades, and the win rate of the
net ones. -/
def summariseNet (trades : List TradeRow) (m : Performance) : Performance :=
  { m with totalTrades := trades.length, winRate := refreshNetPnlSummary 0 trades }

/-- The end of every engine but the VWAP builder: the costs are taken off, the summary is refreshed,
and the metrics are added. -/
def finishEngine (trades : List TradeRow) (cost : CostModel) (initialBalance : ℚ) : EngineResult :=
  addCapitalMetrics (summariseNet (applyCostModel trades cost)) (applyCostModel trades cost)
    initialBalance

/-! ## Lemmas -/

section

variable {t : TradeRow} {trades : List TradeRow} {cost : CostModel}

theorem netOf_eq_self (h : t.isCharged = false) : t.netOf cost = t := by
  rw [TradeRow.netOf, h]
  rfl

theorem netOf_charged (h : t.isCharged = true) :
    t.netOf cost = { t with
      costUsdt := some (t.costUnder cost)
      pnlUsdt := t.pnlUsdt - t.costUnder cost } := by
  rw [TradeRow.netOf, h]
  rfl

theorem netOf_frame (cost : CostModel) (t : TradeRow) :
    ∃ paid pnl, t.netOf cost = { t with costUsdt := paid, pnlUsdt := pnl } := by
  cases h : t.isCharged with
  | false => exact ⟨t.costUsdt, t.pnlUsdt, netOf_eq_self h⟩
  | true => exact ⟨_, _, netOf_charged h⟩

@[simp] theorem isOpen_netOf : (t.netOf cost).isOpen = t.isOpen := by
  obtain ⟨paid, pnl, h⟩ := netOf_frame cost t
  rw [h]
  rfl

@[simp] theorem netOf_riskUsdt : (t.netOf cost).riskUsdt = t.riskUsdt := by
  obtain ⟨paid, pnl, h⟩ := netOf_frame cost t
  rw [h]

@[simp] theorem netOf_rReal : (t.netOf cost).rReal = t.rReal := by
  obtain ⟨paid, pnl, h⟩ := netOf_frame cost t
  rw [h]

theorem costUnder_isZero (h : cost.isZero = true) : t.costUnder cost = 0 := by
  obtain ⟨hfee, hslippage, hfunding⟩ := of_decide_eq_true h
  rw [TradeRow.costUnder, tradeCostUsdt, CostModel.perSideRate, hfee, hslippage, hfunding]
  ring

theorem pnlUsdt_netOf : (t.netOf cost).pnlUsdt =
    t.pnlUsdt - if t.isCharged then t.costUnder cost else 0 := by
  cases hcharged : t.isCharged with
  | false =>
    rw [netOf_eq_self hcharged]
    exact (sub_zero _).symm
  | true =>
    rw [netOf_charged hcharged]
    rfl

theorem mem_applyCostModel {u : TradeRow} (h : u ∈ applyCostModel trades cost) :
    ∃ t ∈ trades, u.isOpen = t.isOpen ∧ u.riskUsdt = t.riskUsdt ∧ u.rReal = t.rReal ∧
      u.pnlUsdt = t.pnlUsdt - if t.isCharged then t.costUnder cost else 0 := by
  rw [applyCostModel] at h
  by_cases hzero : cost.isZero = true
  · rw [if_pos hzero] at h
    refine ⟨u, h, rfl, rfl, rfl, ?_⟩
    rw [costUnder_isZero hzero, ite_self, sub_zero]
  · rw [if_neg hzero] at h
    obtain ⟨t, ht, rfl⟩ := List.mem_map.mp h
    exact ⟨t, ht, isOpen_netOf, netOf_riskUsdt, netOf_rReal, pnlUsdt_netOf⟩

/-- The costs close no trade and open none. -/
theorem closedRows_applyCostModel (trades : List TradeRow) (cost : CostModel) :
    closedRows (applyCostModel trades cost) = applyCostModel (closedRows trades) cost := by
  rw [applyCostModel, applyCostModel]
  by_cases hzero : cost.isZero = true
  · rw [if_pos hzero, if_pos hzero]
  · rw [if_neg hzero, if_neg hzero, closedRows_map fun t => isOpen_netOf]

theorem noRReal_applyCostModel (h : NoRReal trades) : NoRReal (applyCostModel trades cost) := by
  intro u hu
  obtain ⟨t, ht, _, _, hreal, _⟩ := mem_applyCostModel hu
  rw [hreal, h t ht]

theorem sum_pnlUsdt_applyCostModel (trades : List TradeRow) (cost : CostModel) :
    ((applyCostModel trades cost).map TradeRow.pnlUsdt).sum =
      (trades.map fun t => t.pnlUsdt - if t.isCharged then t.costUnder cost else 0).sum := by
  rw [applyCostModel]
  by_cases hzero : cost.isZero = true
  · rw [if_pos hzero]
    refine congrArg List.sum (List.map_congr_left fun t _ => ?_)
    rw [costUnder_isZero hzero, ite_self, sub_zero]
  · rw [if_neg hzero, List.map_map]
    refine congrArg List.sum (List.map_congr_left fun t _ => ?_)
    rw [Function.comp_apply, pnlUsdt_netOf]

end

end Backtest

end AdviserConstructor
