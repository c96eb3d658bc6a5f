import AdviserConstructor.Backtest.EngineCosts

/-!
# The backtesting service

`app/services/backtesting/service.py`: the service loads a frame, runs an engine, lets the forecast
lock one side of the market bar by bar, and attaches a manifest that records the cost model of the
run.  The manifest derives the cost model from the payload once more; the grid bot prefers the other
one of the two names of the fee.

* `exists_of_mem_result`: a trade of a run is a trade of its engine after the costs.
* `manifestRecordsCosts_iff`: what is recorded are the costs that were charged exactly if the engine
  is not the grid bot, or the two fees agree, or its trades turn nothing over.
* `gridBot_feeCharged`: a grid bot without a `fee_pct` is charged the default of `order_fee_pct`.
-/

namespace AdviserConstructor

namespace Backtest

/-! ## The trades of the engines -/

namespace EngineRun

/-- The trades of the engine, without costs. -/
def gross : EngineRun → List TradeRow
  | .vwap run => run.simulated.map VwapTrade.row
  | .atrOrderBlock p df => (atrObBacktest p df).trades
  | .knifeCatcher p df => (knifeCatcherBacktest p df).trades
  | .gridBot p df => (gridBotBacktest p df).trades
  | .intradayMomentum p df atr => (intradayMomentumBacktest p df atr).trades

/-- The keys of the payload that the costs are read from. -/
def costs : EngineRun → CostParams
  | .vwap run => run.costs
  | .atrOrderBlock p _ => p.costs
  | .knifeCatcher p _ => p.costs
  | .gridBot p _ => p.costs
  | .intradayMomentum p _ _ => p.costs

/-- The cost model that the engine charges. -/
def charged : EngineRun → CostModel
  | .gridBot p _ => p.costModel
  | run => costModelFromParams run.costs

def frame : EngineRun → Frame
  | .vwap run => run.df
  | .atrOrderBlock _ df => df
  | .knifeCatcher _ df => df
  | .gridBot _ df => df
  | .intradayMomentum _ df _ => df

variable {run : EngineRun} {t : TradeRow}

theorem trades_result (run : EngineRun) :
    run.result.trades = (applyCostModel run.gross run.charged).map TradeRow.withRMultiple := by
  cases run with
  | vwap run => rfl
  | atrOrderBlock p df => rfl
  | knifeCatcher p df => rfl
  | gridBot p df => rfl
  | intradayMomentum p df atr => rfl

theorem costUsdt_of_mem_gross (h : t ∈ run.gross) : t.costUsdt = none := by
  cases run with
  | vwap run =>
    obtain ⟨_, _, rfl⟩ := List.mem_map.mp h
    rfl
  | atrOrderBlock p df =>
    obtain ⟨_, _, _, rfl⟩ := isAtrTrade_atrObBacktest p df t h
    rfl
  | knifeCatcher p df =>
    obtain ⟨_, _, _, _, _, rfl⟩ := isKnifeTrade_knifeCatcherBacktest p df t h
    rfl
  | gridBot p df =>
    obtain ⟨_, _, _, _, _, rfl⟩ := isGridTrade_gridBotBacktest p df t h
    rfl
  | intradayMomentum p df atr =>
    obtain ⟨_, _, _, _, _, rfl⟩ := isIntradayTrade_intradayMomentumBacktest p df atr t h
    rfl

end EngineRun

/-! ## The side lock -/

/-- `AiSideLock`: the side that may not be entered. -/
inductive AiSideLock where
  | none | long | short
  deriving DecidableEq, Repr

/-- The lock of a bar, `resolve_ai_side_locks_per_bar`. -/
def OverlayBar.sideLock (bar : OverlayBar) : AiSideLock :=
  if bar.regime = .bull ∧ bar.applied then .short
  else if bar.regime = .bear ∧ bar.applied then .long
  else .none

/-- `side_allowed`. -/
def sideAllowed (side : Side) (lock : AiSideLock) : Bool :=
  match lock, side with
  | .long, .long => false
  | .short, .short => false
  | _, _ => true

/-- The lock at a time: that of the last bar which is not after it. -/
def lockAt (df : Frame) (locks : List AiSideLock) (time : ℤ) : AiSideLock :=
  match df.countP fun bar => decide (bar.time ≤ time) with
  | 0 => .none
  | n + 1 => locks.getD n .none

theorem lockAt_of_all_none {df : Frame} {locks : List AiSideLock}
    (hnone : (locks.all fun lock => decide (lock = .none)) = true) (time : ℤ) :
    lockAt df locks time = .none := by
  rw [lockAt]
  cases df.countP fun bar => decide (bar.time ≤ time) with
  | zero => rfl
  | succ n =>
    show locks.getD n .none = .none
    rw [List.getD_eq_getElem?_getD]
    cases hget : locks[n]? with
    | none => rfl
    | some lock =>
      exact of_decide_eq_true (List.all_eq_true.mp hnone lock (List.mem_of_getElem? hget))

/-- The locks let a trade through; a trade that names no side is long. -/
def isKept (df : Frame) (locks : List AiSideLock) (t : TradeRow) : Bool :=
  sideAllowed (t.side.getD .long) (lockAt df locks t.entryTime)

/-- `_apply_ai_side_lock`; without an overlay the lock is off. -/
def applyAiSideLock (df : Frame) (overlay : Option (List OverlayBar)) (result : EngineResult) :
    EngineResult :=
  match overlay with
  | none => result
  | some bars =>
      let locks := bars.map OverlayBar.sideLock
      if locks.all fun lock => decide (lock = .none) then result
      else
        let kept := result.trades.filter (isKept df locks)
        if kept.length = result.trades.length then result
        else
          addCapitalMetrics (fun _ => calculatePerformanceMetrics kept) kept result.initialBalance

/-- A run of the service: an engine, and the forecast that locks the sides.  The parameters of a
grid bot are those that the risk multiplier of the forecast has been applied to. -/
structure ServiceRun where
  run : EngineRun
  lock : Option (List OverlayBar) := none

/-- `run_vwap`, `run_atr_order_block`, `run_knife`, `run_grid` and `run_intraday`. -/
def ServiceRun.result (s : ServiceRun) : EngineResult :=
  match s.run with
  | .vwap run => run.result
  | .gridBot p df => runGridBot p df
  | run => applyAiSideLock run.frame s.lock run.result

/-- `run_manifest.cost_model`: the cost model is derived from the payload once more. -/
def ServiceRun.manifest (s : ServiceRun) : CostModel := costModelFromParams s.run.costs

section

variable {s : ServiceRun} {t : TradeRow} {df : Frame} {overlay : Option (List OverlayBar)}
  {result : EngineResult}

theorem exists_of_mem_applyAiSideLock (h : t ∈ (applyAiSideLock df overlay result).trades) :
    ∃ u ∈ result.trades, t = u ∨ t = u.withRMultiple := by
  cases overlay with
  | none => exact ⟨t, h, .inl rfl⟩
  | some bars =>
    rw [applyAiSideLock] at h
    split at h
    · exact ⟨t, h, .inl rfl⟩
    · simp only at h
      split at h
      · exact ⟨t, h, .inl rfl⟩
      · obtain ⟨u, hu, rfl⟩ := List.mem_map.mp h
        exact ⟨u, List.mem_of_mem_filter hu, .inr rfl⟩

theorem result_cases (s : ServiceRun) :
    s.result = s.run.result ∨
      s.result = applyAiSideLock s.run.frame s.lock s.run.result := by
  rw [ServiceRun.result]
  cases s.run with
  | vwap run => exact .inl rfl
  | atrOrderBlock p df => exact .inr rfl
  | knifeCatcher p df => exact .inr rfl
  | gridBot p df => exact .inl rfl
  | intradayMomentum p df atr => exact .inr rfl

/-- A trade that has been charged by a cost model. -/
def IsChargedAs (cost : CostModel) (g t : TradeRow) : Prop :=
  ∃ paid pnl r, t = { g with costUsdt := paid, pnlUsdt := pnl, rMultiple := r } ∧
    paid.getD 0 = if g.isCharged then g.costUnder cost else 0

theorem isChargedAs_netOf {cost : CostModel} {g : TradeRow} (hnone : g.costUsdt = none)
    (r : Option ℚ) : IsChargedAs cost g { g.netOf cost with rMultiple := r } := by
  cases hcharged : g.isCharged with
  | false =>
    rw [netOf_eq_self hcharged]
    refine ⟨g.costUsdt, g.pnlUsdt, r, rfl, ?_⟩
    rw [hnone, hcharged]
    rfl
  | true =>
    rw [netOf_charged hcharged]
    refine ⟨_, _, r, rfl, ?_⟩
    rw [hcharged]
    rfl

theorem isChargedAs_engine (run : EngineRun) :
    (∀ t ∈ run.result.trades, ∃ g ∈ run.gross, IsChargedAs run.charged g t) ∧
      ∀ g ∈ run.gross, ∃ t ∈ run.result.trades, IsChargedAs run.charged g t := by
  rw [run.trades_result, applyCostModel]
  by_cases hzero : run.charged.isZero = true
  · rw [if_pos hzero]
    have hself : ∀ g ∈ run.gross, IsChargedAs run.charged g g.withRMultiple := by
      intro g hg
      refine ⟨g.costUsdt, g.pnlUsdt, _, rfl, ?_⟩
      rw [EngineRun.costUsdt_of_mem_gross hg, costUnder_isZero hzero, ite_self]
      rfl
    constructor
    · intro t ht
      obtain ⟨g, hg, rfl⟩ := List.mem_map.mp ht
      exact ⟨g, hg, hself g hg⟩
    · exact fun g hg => ⟨_, List.mem_map_of_mem hg, hself g hg⟩
  · rw [if_neg hzero]
    have hnet : ∀ g ∈ run.gross, IsChargedAs run.charged g (g.netOf run.charged).withRMultiple :=
      fun g hg => isChargedAs_netOf (EngineRun.costUsdt_of_mem_gross hg) _
    constructor
    · intro t ht
      obtain ⟨u, hu, rfl⟩ := List.mem_map.mp ht
      obtain ⟨g, hg, rfl⟩ := List.mem_map.mp hu
      exact ⟨g, hg, hnet g hg⟩
    · exact fun g hg => ⟨_, List.mem_map_of_mem (List.mem_map_of_mem hg), hnet g hg⟩

/-- A trade of a run is a trade of its engine after the costs. -/
theorem exists_of_mem_result (h : t ∈ s.result.trades) :
    ∃ g ∈ s.run.gross, IsChargedAs s.run.charged g t := by
  rcases result_cases s with hresult | hresult
  · rw [hresult] at h
    exact (isChargedAs_engine s.run).1 t h
  · rw [hresult] at h
    obtain ⟨u, hu, rfl | rfl⟩ := exists_of_mem_applyAiSideLock h
    · exact (isChargedAs_engine s.run).1 t hu
    · obtain ⟨g, hg, paid, pnl, r, rfl, hpaid⟩ := (isChargedAs_engine s.run).1 u hu
      exact ⟨g, hg, paid, pnl, _, rfl, hpaid⟩

end

/-! ## The run manifest -/

/-- The manifest of a run records the costs of its trades: what they come to under the recorded cost
model is what they were charged, and a run whose payload asks for no costs has none. -/
structure ManifestRecordsCosts (s : ServiceRun) : Prop where
  recorded : ∀ t ∈ s.result.trades, t.isOpen = false →
    t.costUsdt.getD 0 = if 0 < t.entryNotionalOf then t.costUnder s.manifest else 0
  free : s.run.costs.feePct = some 0 → s.run.costs.slippagePct.getD 0 = 0 →
    s.run.costs.fundingPctPerBar.getD 0 = 0 → ∀ t ∈ s.result.trades, t.costUsdt.getD 0 = 0

/-- What a trade turns over, on which the fee is charged. -/
def TradeRow.turnover (t : TradeRow) : ℚ := t.entryNotionalOf + t.exitNotionalOf t.entryNotionalOf

/-- The fee of a grid bot under the older name of the parameter and under the newer one agree, or
its trades turn nothing over; the other engines know one name only. -/
def ServiceRun.FeesAgree (s : ServiceRun) : Prop :=
  match s.run with
  | .gridBot p df =>
      p.feePct = (costModelFromParams p.costs).feePct ∨
        ∀ g ∈ (gridBotBacktest p df).trades, g.isCharged = true → g.turnover = 0
  | _ => True

section

variable {s : ServiceRun} {t g : TradeRow} {cost : CostModel}

theorem IsChargedAs.costUnder (h : IsChargedAs cost g t) (other : CostModel) :
    t.isOpen = g.isOpen ∧ t.entryNotionalOf = g.entryNotionalOf ∧
      t.costUnder other = g.costUnder other := by
  obtain ⟨paid, pnl, r, rfl, _⟩ := h
  exact ⟨rfl, rfl, rfl⟩

theorem costUnder_sub (fee fee' : ℚ) (t : TradeRow) :
    t.costUnder { cost with feePct := fee } - t.costUnder { cost with feePct := fee' } =
      t.turnover * (fee - fee') / 100 := by
  simp only [TradeRow.costUnder, tradeCostUsdt, CostModel.perSideRate, TradeRow.turnover]
  ring

theorem costModel_eq (p : GridParams) :
    p.costModel = { costModelFromParams p.costs with feePct := p.feePct } := rfl

theorem costUnder_manifest (h : s.FeesAgree) (hg : g ∈ s.run.gross)
    (hcharged : g.isCharged = true) :
    g.costUnder s.run.charged = g.costUnder s.manifest := by
  obtain ⟨run, lock⟩ := s
  cases run with
  | gridBot p df =>
    have hsub := @costUnder_sub (costModelFromParams p.costs) p.feePct
      (costModelFromParams p.costs).feePct g
    have hzero : g.turnover * (p.feePct - (costModelFromParams p.costs).feePct) = 0 := by
      rcases h with hfee | hturnover
      · rw [hfee, sub_self, mul_zero]
      · rw [hturnover g hg hcharged, zero_mul]
    rw [hzero, zero_div] at hsub
    exact sub_eq_zero.mp hsub
  | vwap run => rfl
  | atrOrderBlock p df => rfl
  | knifeCatcher p df => rfl
  | intradayMomentum p df atr => rfl

theorem isCharged_of_closed (hclosed : t.isOpen = false) :
    t.isCharged = true ↔ 0 < t.entryNotionalOf := by
  rw [TradeRow.isCharged, hclosed, Bool.not_false, Bool.true_and, decide_eq_true_eq]

theorem manifestRecordsCosts_of_feesAgree (h : s.FeesAgree) : ManifestRecordsCosts s := by
  have hrecorded : ∀ t ∈ s.result.trades,
      t.costUsdt.getD 0 = if t.isCharged then t.costUnder s.manifest else 0 := by
    intro t ht
    obtain ⟨g, hg, hcharged⟩ := exists_of_mem_result ht
    obtain ⟨paid, pnl, r, rfl, hpaid⟩ := hcharged
    show paid.getD 0 = if g.isCharged then _ else 0
    rw [hpaid]
    split
    · next hg' => exact costUnder_manifest h hg hg'
    · rfl
  constructor
  · intro t ht hclosed
    rw [hrecorded t ht]
    exact if_congr (isCharged_of_closed hclosed) rfl rfl
  · intro hfee hslippage hfunding t ht
    have hzero : s.manifest.isZero = true := by
      refine decide_eq_true ⟨?_, hslippage, hfunding⟩
      show (s.run.costs.feePct.or _).getD defaultFeePct = 0
      rw [hfee]
      rfl
    rw [hrecorded t ht, costUnder_isZero hzero, ite_self]

/-- **The manifest of a run** records the costs that were charged exactly if the fees agree. -/
theorem manifestRecordsCosts_iff (s : ServiceRun) : ManifestRecordsCosts s ↔ s.FeesAgree := by
  refine ⟨fun h => ?_, manifestRecordsCosts_of_feesAgree⟩
  obtain ⟨run, lock⟩ := s
  cases run with
  | gridBot p df =>
    refine or_iff_not_imp_left.mpr fun hfee g hg hcharged => ?_
    obtain ⟨t, ht, hcost⟩ := (isChargedAs_engine (.gridBot p df)).2 g hg
    obtain ⟨hopen, hnotional, hunder⟩ := hcost.costUnder (costModelFromParams p.costs)
    have hclosed : g.isOpen = false := (isGridTrade_gridBotBacktest p df g hg).isOpen
    have hpaid := h.recorded t ht (hopen.trans hclosed)
    rw [hnotional, if_pos ((isCharged_of_closed hclosed).mp hcharged)] at hpaid
    obtain ⟨paid, pnl, r, rfl, hpaid'⟩ := hcost
    rw [hcharged] at hpaid'
    have hsub := @costUnder_sub (costModelFromParams p.costs) p.feePct
      (costModelFromParams p.costs).feePct g
    have hequal : g.costUnder p.costModel = g.costUnder (costModelFromParams p.costs) :=
      hpaid'.symm.trans (hpaid.trans hunder)
    rw [← costModel_eq, hequal, sub_self] at hsub
    have hproduct := (div_eq_zero_iff.mp hsub.symm).resolve_right (by norm_num)
    exact (mul_eq_zero.mp hproduct).resolve_right (sub_ne_zero.mpr hfee)
  | vwap run => trivial
  | atrOrderBlock p df => trivial
  | knifeCatcher p df => trivial
  | intradayMomentum p df atr => trivial

/-- A grid bot that is asked for no fee, and keeps the default of the other name, is charged it: the
payload is one that the request fills up. -/
theorem gridBot_feeCharged : ¬∀ s : ServiceRun, ManifestRecordsCosts s := by
  intro h
  have hfree := (h ⟨.gridBot { oneLevel with
    costs := { feePct := some 0, orderFeePct := some (6 / 100), slippagePct := some 0
               fundingPctPerBar := some 0 } } (fallFrame 97), none⟩).free rfl rfl rfl
  revert hfree
  decide +kernel

end

end Backtest

end AdviserConstructor
