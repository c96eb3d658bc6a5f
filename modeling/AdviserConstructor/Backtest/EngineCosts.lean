import AdviserConstructor.Backtest.AtrOrderBlock
import AdviserConstructor.Backtest.GridBot
import AdviserConstructor.Backtest.IntradayMomentum
import AdviserConstructor.Backtest.KnifeCatcher
import AdviserConstructor.Backtest.VwapBuilder

/-!
# Costs in the metrics of the engines

Every engine hands its trades to the cost model and then to the metrics.  The VWAP builder alone
writes an `r_real` into its trades, from the gross prices, which the R multiple is taken from, and
with it the wins, the losses and the whole R curve; and it alone does not refresh its win rate.

* `costsReachMetrics_finishEngine`: the metrics of the other engines are those of the net trades.
* `costsReachMetrics_iff`: the metrics of a run of any engine are those of the net trades exactly if
  it is not a run of the VWAP builder, or nothing is charged, or no trade is closed that could be.
* `vwap_grossWinner`: a trade that the fees turn into a loss is counted as a win.
-/

namespace AdviserConstructor

namespace Backtest

/-! ## Runs of the engines -/

/-- `exit_reason` of a trade of the VWAP builder. -/
def ExitReason.row : ExitReason → RowExit
  | .stop => .stop
  | .take => .take
  | .openAtEnd => .openAtEnd

/-- A trade of the VWAP builder, as it is handed over. -/
def VwapTrade.row (t : VwapTrade) : TradeRow where
  side := some t.side
  entryTime := t.entryTime
  exitTime := t.exitTime
  entry := t.entry
  exit := some t.exit
  sl := some t.sl
  positionSize := some t.size.quantity
  positionValue := some t.size.positionValue
  riskUsdt := some t.size.riskUsdt
  rReal := t.rReal
  pnlUsdt := t.pnlUsdt
  exitReason := some t.exitReason.row

/-- A run of the VWAP builder. -/
structure VwapRun where
  df : Frame
  ind : Indicators
  enabled : List Indicator
  regime : Regime
  params : SimParams
  overlay : Option (List OverlayBar)
  costs : CostParams

namespace VwapRun

/-- The bounds of `VwapBacktestRequest` that the sizes of the positions rest on. -/
structure Accepted (r : VwapRun) : Prop where
  accountBalance_pos : 0 < r.params.accountBalance
  riskPerTrade_pos : 0 < r.params.riskPerTrade

def simulated (r : VwapRun) : List VwapTrade :=
  simulateTrades r.df r.ind r.enabled r.regime r.params r.overlay

def costModel (r : VwapRun) : CostModel := costModelFromParams r.costs

def netTrades (r : VwapRun) : List TradeRow :=
  applyCostModel (r.simulated.map VwapTrade.row) r.costModel

/-- `run_vwap_backtest`: the summary is computed before the metrics are added, and takes their
place. -/
def result (r : VwapRun) : EngineResult :=
  addCapitalMetrics (fun _ => calculatePerformanceMetrics r.netTrades) r.netTrades
    r.params.accountBalance

end VwapRun

/-- A run of one of the engines. -/
inductive EngineRun where
  | vwap (run : VwapRun)
  | atrOrderBlock (p : AtrObParams) (df : Frame)
  | knifeCatcher (p : KnifeParams) (df : Frame)
  | gridBot (p : GridParams) (df : Frame)
  | intradayMomentum (p : IntradayParams) (df : Frame) (atr : ℕ → Num)

def EngineRun.result : EngineRun → EngineResult
  | .vwap run => run.result
  | .atrOrderBlock p df => runAtrOrderBlock p df
  | .knifeCatcher p df => runKnifeCatcher p df
  | .gridBot p df => runGridBot p df
  | .intradayMomentum p df atr => runIntradayMomentum p df atr

/-- What the request of a run bounds, as far as a result rests on it. -/
def EngineRun.Accepted : EngineRun → Prop
  | .vwap run => run.Accepted
  | _ => True

/-- A run whose request is accepted. -/
structure EngineRequest where
  run : EngineRun
  accepted : run.Accepted

/-! ## What the costs should reach -/

/-- A summary counts and rates the net trades. -/
structure NetSummary (trades : List TradeRow) (m : Performance) : Prop where
  wins : m.wins = ((netRValues trades).filter fun v => decide (0 < v)).length
  losses : m.losses = ((netRValues trades).filter fun v => decide (v < 0)).length
  winRate : m.winRate = percentPositive ((closedRows trades).map TradeRow.pnlUsdt)
  profitFactor : m.profitFactor = profitFactor (netRValues trades)
  maxDrawdown : m.maxDrawdown = maxDrawdown (netRValues trades)

/-- The metrics of a result are those of its net trades. -/
structure CostsReachMetrics (res : EngineResult) : Prop where
  rMultiple : ∀ t ∈ res.trades, t.isOpen = false → ∀ risk, t.riskUsdt = some risk → 0 < risk →
    t.rMultiple = some (t.pnlUsdt / risk)
  summary : NetSummary res.trades res.performance
  totalR : res.performance.totalR = (netRValues res.trades).sum

/-- The R multiples of closed trades follow from their profits and risks. -/
def RFromPnl (trades : List TradeRow) : Prop :=
  ∀ t ∈ trades, t.isOpen = false → t.computeTradeRMultiple = t.netR

section

variable {trades : List TradeRow} {cost : CostModel} {initial : ℚ}
  {summarised : Performance → Performance}

theorem collectValidRValues_of_rFromPnl (h : RFromPnl trades) :
    collectValidRValues (trades.map TradeRow.withRMultiple) = netRValues trades := by
  rw [collectValidRValues_withRMultiple]
  refine List.filterMap_congr fun t ht => ?_
  obtain ⟨hmem, hclosed⟩ := mem_closedRows.mp ht
  exact h t hmem hclosed

theorem netSummary_withRMultiple {m : Performance} :
    NetSummary (trades.map TradeRow.withRMultiple) m ↔ NetSummary trades m := by
  have hnet := netRValues_withRMultiple trades
  have hclosed : (closedRows (trades.map TradeRow.withRMultiple)).map TradeRow.pnlUsdt =
      (closedRows trades).map TradeRow.pnlUsdt := by
    rw [closedRows_map fun t => @isOpen_withRMultiple t, List.map_map]
    rfl
  constructor
  · rintro ⟨hwins, hlosses, hrate, hfactor, hdrawdown⟩
    rw [hnet] at hwins hlosses hfactor hdrawdown
    rw [hclosed] at hrate
    exact ⟨hwins, hlosses, hrate, hfactor, hdrawdown⟩
  · rintro ⟨hwins, hlosses, hrate, hfactor, hdrawdown⟩
    rw [← hnet] at hwins hlosses hfactor hdrawdown
    rw [← hclosed] at hrate
    exact ⟨hwins, hlosses, hrate, hfactor, hdrawdown⟩

theorem costsReachMetrics_addCapitalMetrics (h : RFromPnl trades)
    (hsummary : ∀ total closed,
      NetSummary trades (summarised (performanceOf total closed (netRValues trades)))) :
    CostsReachMetrics (addCapitalMetrics summarised trades initial) := by
  have hvalues := collectValidRValues_of_rFromPnl h
  constructor
  · intro t ht hclosed risk hrisk hpos
    rw [rMultiple_addCapitalMetrics ht hclosed]
    obtain ⟨u, hu, rfl⟩ := List.mem_map.mp ht
    exact (h u hu hclosed).trans (netR_of_riskUsdt hrisk hpos)
  · have hmetrics := hsummary (trades.map TradeRow.withRMultiple).length
      (closedRows (trades.map TradeRow.withRMultiple)).length
    rw [← hvalues] at hmetrics
    obtain ⟨hwins, hlosses, hrate, hfactor, hdrawdown⟩ := netSummary_withRMultiple.mpr hmetrics
    exact ⟨hwins, hlosses, hrate, hfactor, hdrawdown⟩
  · show (collectValidRValues (trades.map TradeRow.withRMultiple)).sum =
      (netRValues (trades.map TradeRow.withRMultiple)).sum
    rw [hvalues, netRValues_withRMultiple]

/-- **Costs in the metrics.**  Where no trade carries an `r_real`, the metrics are those of the net
trades. -/
theorem costsReachMetrics_finishEngine (h : NoRReal trades) :
    CostsReachMetrics (finishEngine trades cost initial) := by
  refine costsReachMetrics_addCapitalMetrics (fun t ht _ => ?_) fun total closed => ?_
  · rw [TradeRow.computeTradeRMultiple, noRReal_applyCostModel h t ht, Option.none_or]
  · refine ⟨rfl, rfl, ?_, rfl, rfl⟩
    show refreshNetPnlSummary 0 (applyCostModel trades cost) = _
    rw [refreshNetPnlSummary]
    split
    · next hnil =>
      rw [hnil]
      rfl
    · rfl

end

theorem noRReal_engines :
    (∀ p df, NoRReal (atrObBacktest p df).trades) ∧
      (∀ p df, NoRReal (knifeCatcherBacktest p df).trades) ∧
      (∀ p df, NoRReal (gridBotBacktest p df).trades) ∧
      ∀ p df atr, NoRReal (intradayMomentumBacktest p df atr).trades := by
  refine ⟨fun p df t ht => ?_, fun p df t ht => ?_, fun p df t ht => ?_, fun p df atr t ht => ?_⟩
  · obtain ⟨_, _, _, rfl⟩ := isAtrTrade_atrObBacktest p df t ht
    rfl
  · obtain ⟨_, _, _, _, _, rfl⟩ := isKnifeTrade_knifeCatcherBacktest p df t ht
    rfl
  · obtain ⟨_, _, _, _, _, rfl⟩ := isGridTrade_gridBotBacktest p df t ht
    rfl
  · obtain ⟨_, _, _, _, _, rfl⟩ := isIntradayTrade_intradayMomentumBacktest p df atr t ht
    rfl

/-! ## The VWAP builder -/

/-- A trade of the VWAP builder: its size follows from its stop, and its R multiple from the prices
without costs. -/
structure VwapTrade.Sound (t : VwapTrade) : Prop where
  quantity_pos : 0 < t.size.quantity
  distance_pos : 0 < |t.entry - t.sl|
  positionValue : t.size.positionValue = t.size.quantity * t.entry
  riskUsdt : t.size.riskUsdt = t.size.quantity * |t.entry - t.sl|
  pnlUsdt : t.pnlUsdt = unitPnl t.side t.entry t.exit * t.size.quantity
  rReal : t.rReal = some (unitPnl t.side t.entry t.exit / |t.entry - t.sl|)

theorem quantityFor_pos {s : PositionSizer} {entry distance : ℚ} (hbalance : 0 < s.accountBalance)
    (hrisk : 0 < s.riskPerTrade) (hdistance : 0 < distance) : 0 < s.quantityFor entry distance := by
  have hplan : 0 < s.plannedRisk := mul_pos hbalance (div_pos hrisk (by norm_num))
  have hquantity : 0 < s.plannedRisk / distance := div_pos hplan hdistance
  rw [PositionSizer.quantityFor]
  by_cases hcap : 0 < s.maxPositionValue ∧ s.maxPositionValue < s.plannedRisk / distance * entry
  · rw [if_pos hcap]
    have hentry : 0 < entry := by
      by_contra hle
      have := mul_nonpos_of_nonneg_of_nonpos hquantity.le (not_lt.mp hle)
      linarith only [this, hcap.1, hcap.2]
    exact div_pos hcap.1 hentry
  · rw [if_neg hcap]
    exact hquantity

theorem entryAt_size {df : Frame} {ind : Indicators} {enabled : List Indicator} {p : SimParams}
    {regime : Regime} {i : ℕ} {e : Entry} (h : entryAt df ind enabled p regime i = some e) :
    e.entry ≠ e.sl ∧ e.size = p.sizer.sizeFor e.entry |e.entry - e.sl| := by
  simp only [entryAt] at h
  split at h
  · cases h
  · split at h
    · cases h
    · split at h
      · cases h
      · split at h
        · next size hsize =>
          obtain ⟨_, hne, hsize⟩ := PositionSizer.calculatePositionSize_eq_allowed.mp hsize
          cases h
          exact ⟨hne, Option.some.inj hsize⟩
        · cases h

theorem sound_of_mem_simulated {r : VwapRun} {t : VwapTrade} (hr : r.Accepted)
    (h : t ∈ r.simulated) : t.Sound := by
  obtain ⟨i, e, _, hentry, rfl⟩ := mem_simulateTrades h
  obtain ⟨hne, hsize⟩ := entryAt_size hentry
  have hdistance : 0 < |e.entry - e.sl| := abs_pos.mpr (sub_ne_zero.mpr hne)
  refine ⟨?_, hdistance, ?_, ?_, rfl, if_pos hdistance⟩
  · show 0 < e.size.quantity
    rw [hsize]
    exact quantityFor_pos hr.accountBalance_pos hr.riskPerTrade_pos hdistance
  · show e.size.positionValue = e.size.quantity * e.entry
    rw [hsize]
    rfl
  · show e.size.riskUsdt = e.size.quantity * |e.entry - e.sl|
    rw [hsize]
    rfl

namespace VwapTrade.Sound

variable {t : VwapTrade} {cost : CostModel}

theorem riskUsdt_pos (h : t.Sound) : 0 < t.size.riskUsdt := by
  rw [h.riskUsdt]
  exact mul_pos h.quantity_pos h.distance_pos

theorem rReal_eq (h : t.Sound) : t.rReal = some (t.pnlUsdt / t.size.riskUsdt) := by
  rw [h.rReal, h.pnlUsdt, h.riskUsdt, mul_comm t.size.quantity,
    mul_div_mul_right _ _ h.quantity_pos.ne']

theorem isCharged_row (h : t.Sound) (hclosed : t.row.isOpen = false) :
    t.row.isCharged = true ↔ t.entry ≠ 0 := by
  have hnotional : t.row.entryNotionalOf = |t.size.quantity * t.entry| := by
    show |t.size.positionValue| = _
    rw [h.positionValue]
  rw [TradeRow.isCharged, hclosed, hnotional, Bool.not_false, Bool.true_and, decide_eq_true_eq,
    abs_pos, mul_ne_zero_iff]
  exact and_iff_right h.quantity_pos.ne'

theorem costUnder_row (h : t.Sound) (hentry : t.entry ≠ 0) :
    ∃ notional, 0 < notional ∧ t.row.costUnder cost = notional * cost.perSideRate / 100 := by
  have hnotional : 0 < t.row.entryNotionalOf := by
    show 0 < |t.size.positionValue|
    rw [h.positionValue, abs_pos]
    exact mul_ne_zero h.quantity_pos.ne' hentry
  have hexit : 0 ≤ t.row.exitNotionalOf t.row.entryNotionalOf := by
    show 0 ≤ if t.size.quantity ≠ 0 ∧ t.exit ≠ 0 then |t.size.quantity * t.exit|
      else if t.entry ≠ 0 ∧ t.exit ≠ 0 then _ else t.row.entryNotionalOf
    by_cases hexit : t.exit = 0
    · rw [if_neg fun hboth => hboth.2 hexit, if_neg fun hboth => hboth.2 hexit]
      exact hnotional.le
    · rw [if_pos ⟨h.quantity_pos.ne', hexit⟩]
      exact abs_nonneg _
  refine ⟨_, add_pos_of_pos_of_nonneg hnotional hexit, ?_⟩
  have hbars : t.row.holdingBars = 0 := max_self 0
  rw [TradeRow.costUnder, tradeCostUsdt, hbars, max_self, mul_zero, add_zero]

end VwapTrade.Sound

/-- When the metrics of a run of the VWAP builder are those of the net trades: nothing is charged
for a side, or no trade is closed that was not entered at zero. -/
def VwapRun.CostsClear (r : VwapRun) : Prop :=
  r.costModel.perSideRate = 0 ∨
    ∀ t ∈ r.simulated, t.exitReason ≠ .openAtEnd → t.entry = 0

/-- When the metrics of a run are those of the net trades. -/
def EngineRun.CostsClear : EngineRun → Prop
  | .vwap run => run.CostsClear
  | _ => True

theorem isOpen_row (t : VwapTrade) : t.row.isOpen = false ↔ t.exitReason ≠ .openAtEnd := by
  show decide (some t.exitReason.row = some RowExit.openAtEnd) = false ↔ _
  rw [decide_eq_false_iff_not]
  cases t.exitReason with
  | stop => exact ⟨fun _ => nofun, fun _ => nofun⟩
  | take => exact ⟨fun _ => nofun, fun _ => nofun⟩
  | openAtEnd => exact ⟨fun h => absurd rfl h, fun h => absurd rfl h⟩

theorem VwapRun.CostsClear.free {r : VwapRun} (hr : r.Accepted) (h : r.CostsClear) {t : VwapTrade}
    (ht : t ∈ r.simulated) (hclosed : t.row.isOpen = false) (hcharged : t.row.isCharged = true) :
    t.row.costUnder r.costModel = 0 := by
  have hsound := sound_of_mem_simulated hr ht
  have hentry := (hsound.isCharged_row hclosed).mp hcharged
  rcases h with hrate | hnone
  · obtain ⟨notional, _, hcost⟩ := @VwapTrade.Sound.costUnder_row t r.costModel hsound hentry
    rw [hcost, hrate, mul_zero, zero_div]
  · exact absurd (hnone t ht ((isOpen_row t).mp hclosed)) hentry

theorem percentPositive_congr {α : Type*} {f g : α → ℚ} {l : List α}
    (h : ∀ a ∈ l, 0 < f a ↔ 0 < g a) : percentPositive (l.map f) = percentPositive (l.map g) := by
  have hcount : ((l.map f).filter fun v => decide (0 < v)).length =
      ((l.map g).filter fun v => decide (0 < v)).length := by
    rw [List.filter_map, List.filter_map, List.length_map, List.length_map]
    refine congrArg List.length (List.filter_congr fun a ha => ?_)
    exact decide_eq_decide.mpr (h a ha)
  rw [percentPositive, percentPositive, hcount, List.length_map, List.length_map]
  simp only [List.map_eq_nil_iff]

theorem costsReachMetrics_vwap_of_clear {r : VwapRun} (hr : r.Accepted) (h : r.CostsClear) :
    CostsReachMetrics r.result := by
  have hrow : ∀ u ∈ r.netTrades, u.isOpen = false → ∃ risk, 0 < risk ∧ u.riskUsdt = some risk ∧
      u.rReal = some (u.pnlUsdt / risk) := by
    intro u hu hclosed
    obtain ⟨row, hrow, hopen, hrisk, hreal, hpnl⟩ := mem_applyCostModel hu
    obtain ⟨t, ht, rfl⟩ := List.mem_map.mp hrow
    have hsound := sound_of_mem_simulated hr ht
    rw [hclosed] at hopen
    have hgross : u.pnlUsdt = t.pnlUsdt := by
      rw [hpnl]
      split
      · next hcharged =>
        rw [h.free hr ht hopen.symm hcharged]
        exact sub_zero _
      · exact sub_zero _
    refine ⟨t.size.riskUsdt, hsound.riskUsdt_pos, hrisk, ?_⟩
    rw [hreal, hgross]
    exact hsound.rReal_eq
  have hnetR : ∀ u ∈ r.netTrades, u.isOpen = false → ∃ risk, 0 < risk ∧
      u.netR = some (u.pnlUsdt / risk) ∧ u.computeTradeRMultiple = u.netR := by
    intro u hu hclosed
    obtain ⟨risk, hpos, hrisk, hreal⟩ := hrow u hu hclosed
    have hnet := netR_of_riskUsdt hrisk hpos
    refine ⟨risk, hpos, hnet, ?_⟩
    rw [TradeRow.computeTradeRMultiple, hreal, hnet]
    rfl
  have hfrom : RFromPnl r.netTrades := fun u hu hclosed => (hnetR u hu hclosed).choose_spec.2.2
  refine costsReachMetrics_addCapitalMetrics hfrom fun total closed => ?_
  have hplain : collectValidRValues r.netTrades = netRValues r.netTrades := by
    refine List.filterMap_congr fun u hu => ?_
    obtain ⟨hmem, hclosed⟩ := mem_closedRows.mp hu
    have hmultiple : u.rMultiple = none := by
      have hframe : ∀ v ∈ r.netTrades, v.rMultiple = none := by
        intro v hv
        rw [VwapRun.netTrades, applyCostModel] at hv
        split at hv
        · obtain ⟨t, _, rfl⟩ := List.mem_map.mp hv
          rfl
        · obtain ⟨row, hrow, rfl⟩ := List.mem_map.mp hv
          obtain ⟨t, _, rfl⟩ := List.mem_map.mp hrow
          obtain ⟨paid, pnl, hnet⟩ := netOf_frame r.costModel t.row
          rw [hnet]
          rfl
      exact hframe u hmem
    rw [hmultiple]
    exact hfrom u hmem hclosed
  rw [calculatePerformanceMetrics, hplain]
  refine ⟨rfl, rfl, ?_, rfl, rfl⟩
  show percentPositive (netRValues r.netTrades) = _
  have hvalues : netRValues r.netTrades =
      (closedRows r.netTrades).map fun u => u.netR.getD 0 := by
    rw [← List.filterMap_eq_map]
    refine List.filterMap_congr fun u hu => ?_
    obtain ⟨hmem, hclosed⟩ := mem_closedRows.mp hu
    obtain ⟨risk, _, hnet, _⟩ := hnetR u hmem hclosed
    rw [Function.comp_apply, hnet]
    rfl
  rw [hvalues]
  refine percentPositive_congr fun u hu => ?_
  obtain ⟨hmem, hclosed⟩ := mem_closedRows.mp hu
  obtain ⟨risk, hpos, hnet, _⟩ := hnetR u hmem hclosed
  rw [hnet]
  exact div_pos_iff_of_pos_right hpos

theorem clear_of_costsReachMetrics_vwap {r : VwapRun} (hr : r.Accepted)
    (h : CostsReachMetrics r.result) :
    r.CostsClear := by
  by_contra hclear
  obtain ⟨hrate, hsome⟩ := not_or.mp hclear
  push Not at hsome
  obtain ⟨t, ht, hclosed, hentry⟩ := hsome
  have hsound := sound_of_mem_simulated hr ht
  have hopen := (isOpen_row t).mpr hclosed
  have hcharged := (hsound.isCharged_row hopen).mpr hentry
  obtain ⟨notional, hnotional, hcost⟩ := @VwapTrade.Sound.costUnder_row t r.costModel hsound hentry
  have hzero : r.costModel.isZero = false := by
    refine Bool.eq_false_iff.mpr fun hzero => ?_
    obtain ⟨hfee, hslippage, _⟩ := of_decide_eq_true hzero
    exact hrate (by rw [CostModel.perSideRate, hfee, hslippage, add_zero])
  have hnetMem : t.row.netOf r.costModel ∈ r.netTrades := by
    rw [VwapRun.netTrades, applyCostModel, hzero]
    exact List.mem_map_of_mem (List.mem_map_of_mem ht)
  have hnetOpen : (t.row.netOf r.costModel).isOpen = false := by rw [isOpen_netOf]; exact hopen
  have hmem : (t.row.netOf r.costModel).withRMultiple ∈ r.result.trades :=
    List.mem_map_of_mem hnetMem
  have hmultiple := h.rMultiple _ hmem hnetOpen t.size.riskUsdt
    (@netOf_riskUsdt t.row r.costModel) hsound.riskUsdt_pos
  rw [rMultiple_addCapitalMetrics hmem hnetOpen] at hmultiple
  have hgross : (t.row.netOf r.costModel).withRMultiple.computeTradeRMultiple =
      some (t.pnlUsdt / t.size.riskUsdt) := by
    show (t.row.netOf r.costModel).rReal.or _ = _
    rw [netOf_rReal, show t.row.rReal = t.rReal from rfl, hsound.rReal_eq]
    rfl
  rw [hgross, Option.some_inj, pnlUsdt_withRMultiple, pnlUsdt_netOf, hcharged, if_pos rfl, hcost,
    div_left_inj' hsound.riskUsdt_pos.ne'] at hmultiple
  have hpaid : notional * r.costModel.perSideRate / 100 = 0 := by
    have hpnl : t.row.pnlUsdt = t.pnlUsdt := rfl
    rw [hpnl] at hmultiple
    linarith only [hmultiple]
  rcases mul_eq_zero.mp (div_eq_zero_iff.mp hpaid |>.resolve_right (by norm_num)) with h0 | h0
  · exact hnotional.ne' h0
  · exact hrate h0

/-- **Costs in the metrics of every engine.** -/
theorem costsReachMetrics_iff (req : EngineRequest) :
    CostsReachMetrics req.run.result ↔ req.run.CostsClear := by
  obtain ⟨hatr, hknife, hgrid, hintraday⟩ := noRReal_engines
  obtain ⟨run, haccepted⟩ := req
  cases run with
  | vwap run =>
    exact ⟨clear_of_costsReachMetrics_vwap haccepted, costsReachMetrics_vwap_of_clear haccepted⟩
  | atrOrderBlock p df =>
    exact ⟨fun _ => trivial, fun _ => costsReachMetrics_finishEngine (hatr p df)⟩
  | knifeCatcher p df =>
    exact ⟨fun _ => trivial, fun _ => costsReachMetrics_finishEngine (hknife p df)⟩
  | gridBot p df =>
    exact ⟨fun _ => trivial, fun _ => costsReachMetrics_finishEngine (hgrid p df)⟩
  | intradayMomentum p df atr =>
    exact ⟨fun _ => trivial, fun _ => costsReachMetrics_finishEngine (hintraday p df atr)⟩

/-- A run in which one trade takes half its risk, at the default fee. -/
def grossWinnerRun : VwapRun where
  df := [⟨0, 100, 101, 99, 100, 10⟩, ⟨10, 100, 104, 100, 103, 10⟩, ⟨20, 103, 104, 102, 103, 10⟩,
    ⟨30, 103, 104, 102, 103, 10⟩]
  ind := fun i =>
    if i = 0 then { atr := some (1 / 20), vwap := some 99, macdHist := some 1 } else {}
  enabled := [.vwap, .macd]
  regime := .flat
  params := { rr := 1 / 2 }
  overlay := none
  costs := { feePct := some (6 / 100) }

/-- The fees turn the only trade into a loss, and it is counted as a win. -/
theorem vwap_grossWinner : ¬∀ req : EngineRequest, CostsReachMetrics req.run.result := by
  intro h
  have haccepted : grossWinnerRun.Accepted := ⟨by decide +kernel, by decide +kernel⟩
  have hwins := (h ⟨.vwap grossWinnerRun, haccepted⟩).summary.wins
  have hone : (EngineRun.vwap grossWinnerRun).result.performance.wins = 1 ∧
      ((netRValues (EngineRun.vwap grossWinnerRun).result.trades).filter
        fun v => decide (0 < v)).length = 0 := by decide +kernel
  rw [hone.1, hone.2] at hwins
  cases hwins

end Backtest

end AdviserConstructor
