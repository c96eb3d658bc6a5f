import AdviserConstructor.AutoTrade.StrategyHealth
import AdviserConstructor.Library.MergedCurves
import Mathlib.Algebra.Order.BigOperators.Group.List

/-!
# The drawdown of a portfolio

`merged_equity_max_dd_pct` of `app/services/auto_trade/portfolio.py` takes the trades of several
strategies in the order of their exits, and computes the drawdown of the one curve that they make on
the sum of the strategies' bases.  `compute_merged_portfolio_dd_pct` does so for the strategies that
a user has running, over the same trades that the health of each of them is computed from.

The code says of this figure that it catches what no single strategy breaches on its own.  It does
not: the curves of the strategies add up, and together they keep whatever share of their height each
of them keeps.  So a threshold that the portfolio reaches is reached by one of the strategies alone,
as long as it is not above a hundred per cent, which the settings exclude.

* `interleaved_exitProfits`: the merged order interleaves the orders of the strategies.
* `computeMergedPortfolioDdPct_le`: the portfolio falls no deeper than the worst of its strategies.
* `worstStrategy_of_portfolioDd`: **a breach of the portfolio** is one of a strategy alone.

The times of exits are numbers here; in the code they are the texts of UTC times, which are ordered
in the same way.
-/

namespace AdviserConstructor

open Backtest RunningPeak

/-! ## The figures -/

/-- `_normalization_base_usdt`, of a config that there is. -/
def normalizationBaseUsdt (config : AutoTradeConfig) : ℚ := config.positionSizeUsdt

/-- The order of `merged_equity_max_dd_pct`. -/
def exitsBefore (trade trade' : HealthTrade) : Prop :=
  trade.exitTime.getD 0 ≤ trade'.exitTime.getD 0

instance : DecidableRel exitsBefore := fun trade trade' =>
  inferInstanceAs (Decidable (trade.exitTime.getD 0 ≤ trade'.exitTime.getD 0))

/-- `merged_equity_max_dd_pct`. -/
def mergedEquityMaxDdPct (allTrades : List HealthTrade) (baseUsdt : ℚ) : ℚ :=
  let dated := allTrades.filter (·.exitTime.isSome)
  if dated = [] ∨ baseUsdt ≤ 0 then 0
  else calculateEquityMaxDrawdownPct (buildEquityCurve (dated.insertionSort exitsBefore) baseUsdt)

/-- `compute_merged_portfolio_dd_pct`. -/
def computeMergedPortfolioDdPct (history : PnlHistory) (configs : List AutoTradeConfig)
    (cutoff : ℚ) : ℚ :=
  mergedEquityMaxDdPct (configs.flatMap fun config => tradesForHealth history config cutoff)
    (configs.map normalizationBaseUsdt).sum

/-- The drawdown of a strategy alone, as `health_from_trades` computes it. -/
def strategyDrawdownPct (history : PnlHistory) (config : AutoTradeConfig) (cutoff : ℚ) : ℚ :=
  calculateEquityMaxDrawdownPct
    (buildEquityCurve (tradesForHealth history config cutoff) (normalizationBaseUsdt config))

/-- The profits that the merged curve is made of. -/
def exitProfits (trades : List HealthTrade) : List ℚ :=
  (((trades.filter (·.exitTime.isSome)).insertionSort exitsBefore).filter
    (·.exitReason ≠ "OPEN")).map HealthTrade.pnlUsdt

/-! ## The curves -/

section Curves

variable {trades trades' : List HealthTrade} {base base' d : ℚ}

instance : IsTrans HealthTrade exitsBefore := ⟨fun _ _ _ h h' => le_trans h h'⟩

instance : Std.Total exitsBefore := ⟨fun _ _ => le_total _ _⟩

theorem equityDrawdownFrom_eq (peak : Option ℚ) (worst : ℚ) (points : List ℚ) :
    equityDrawdownFrom peak worst points = (points.foldl peakStep (peak, worst)).2 := by
  induction points generalizing peak worst with
  | nil => rfl
  | cons point points ih =>
    have hstep : ∀ top : ℚ, (if top ≤ 0 then (some top, worst)
        else (some top, max worst ((top - point) / top))) =
          (some top, if top ≤ 0 then worst else max worst ((top - point) / top)) := fun top => by
      split <;> rfl
    rw [List.foldl_cons, peakStep, hstep, ← ih]
    cases peak <;> rfl

theorem equityFrom_eq_curve (equity : ℚ) (pnls : List ℚ) :
    equityFrom equity pnls = curve equity pnls := by
  induction pnls generalizing equity with
  | nil => rfl
  | cons pnl pnls ih => rw [equityFrom, curve, ih]

theorem calculateEquityMaxDrawdownPct_curve (equity : ℚ) (pnls : List ℚ) :
    calculateEquityMaxDrawdownPct (equityFrom equity pnls) =
      drawdown (curve equity pnls) * 100 := by
  rw [calculateEquityMaxDrawdownPct, equityDrawdownFrom_eq, equityFrom_eq_curve]
  rfl

theorem drawdown_curve_nil (hbase : 0 < base) : drawdown (curve base []) = 0 := by
  refine le_antisymm ?_ ((isGreatest_drawdown _).2 (.inl rfl))
  exact (drawdown_le_iff hbase le_rfl zero_le_one).mpr (List.pairwise_singleton ..)

theorem mergedEquityMaxDdPct_of_pos (hbase : 0 < base) :
    mergedEquityMaxDdPct trades base = drawdown (curve base (exitProfits trades)) * 100 := by
  rw [mergedEquityMaxDdPct]
  split
  · next hnone =>
    have hdated := hnone.resolve_right (not_le.mpr hbase)
    rw [exitProfits, hdated]
    change 0 = drawdown (curve base []) * 100
    rw [drawdown_curve_nil hbase, zero_mul]
  · exact calculateEquityMaxDrawdownPct_curve base _

/-- **The merged order** interleaves the orders of the two. -/
theorem interleaved_exitProfits (trades trades' : List HealthTrade) :
    List.Interleaved (exitProfits trades) (exitProfits trades')
      (exitProfits (trades ++ trades')) := by
  have hsorted := List.interleaved_insertionSort (r := exitsBefore)
    (trades.filter (·.exitTime.isSome)) (trades'.filter (·.exitTime.isSome))
  rw [← List.filter_append] at hsorted
  exact (hsorted.filter _).map _

theorem mergedEquityMaxDdPct_append_le (hbase : 0 < base) (hbase' : 0 < base') (h0 : 0 ≤ d)
    (h1 : d ≤ 100) (h : mergedEquityMaxDdPct trades base ≤ d)
    (h' : mergedEquityMaxDdPct trades' base' ≤ d) :
    mergedEquityMaxDdPct (trades ++ trades') (base + base') ≤ d := by
  rw [mergedEquityMaxDdPct_of_pos hbase] at h
  rw [mergedEquityMaxDdPct_of_pos hbase'] at h'
  rw [mergedEquityMaxDdPct_of_pos (add_pos hbase hbase')]
  have htogether := drawdown_interleaved_le hbase hbase' (d := d / 100) (by linarith) (by linarith)
    (interleaved_exitProfits trades trades') (by linarith) (by linarith)
  linarith

end Curves

/-! ## The strategies of a user -/

theorem exists_bound_lt {α : Type*} {f : α → ℚ} {l : List α} {threshold : ℚ}
    (hpos : 0 < threshold) (h : ∀ a ∈ l, f a < threshold) :
    ∃ d, 0 ≤ d ∧ d < threshold ∧ ∀ a ∈ l, f a ≤ d := by
  induction l with
  | nil => exact ⟨0, le_rfl, hpos, nofun⟩
  | cons a l ih =>
    obtain ⟨d, h0, hlt, hle⟩ := ih fun b hb => h b (List.mem_cons_of_mem a hb)
    refine ⟨max (f a) d, le_max_of_le_right h0, max_lt (h a List.mem_cons_self) hlt, fun b hb => ?_⟩
    rcases List.mem_cons.mp hb with rfl | hb
    · exact le_max_left _ _
    · exact le_max_of_le_right (hle b hb)

section Strategies

variable {history : PnlHistory} {config : AutoTradeConfig} {configs : List AutoTradeConfig}
  {cutoff now d threshold : ℚ}

theorem computeMergedPortfolioDdPct_cons (config : AutoTradeConfig)
    (configs : List AutoTradeConfig) :
    computeMergedPortfolioDdPct history (config :: configs) cutoff =
      mergedEquityMaxDdPct
        (tradesForHealth history config cutoff ++
          configs.flatMap fun config => tradesForHealth history config cutoff)
        (normalizationBaseUsdt config + (configs.map normalizationBaseUsdt).sum) := rfl

theorem tradesForHealth_ordered (history : PnlHistory) (config : AutoTradeConfig) (cutoff : ℚ) :
    (∀ trade ∈ tradesForHealth history config cutoff, trade.exitTime.isSome = true) ∧
      (tradesForHealth history config cutoff).Pairwise exitsBefore := by
  rw [tradesForHealth]
  split
  · -- the closed positions, ordered by their closes
    have hclosed : ∀ position ∈ closedPositions history config.id cutoff,
        position.closedAt.isSome = true := by
      intro position hposition
      have hmem := List.of_mem_filter ((List.mem_insertionSort _).mp hposition)
      rw [Bool.and_eq_true, PositionRecord.closedSince, Option.any_eq_true] at hmem
      obtain ⟨closedAt, hat, -⟩ := hmem.2
      rw [hat]
      rfl
    have htime : ∀ {position : PositionRecord} {trade : HealthTrade},
        positionTrade history position = some trade → trade.exitTime = position.closedAt := by
      intro position trade htrade
      rw [positionTrade, Option.map_eq_some_iff] at htrade
      obtain ⟨realizedPnl, -, rfl⟩ := htrade
      rfl
    refine ⟨fun trade htrade => ?_, ?_⟩
    · obtain ⟨position, hposition, hmade⟩ := List.mem_filterMap.mp htrade
      rw [htime hmade]
      exact hclosed position hposition
    · refine List.Pairwise.filterMap _ (fun position position' hle trade htrade trade' htrade' =>
        ?_) (List.pairwise_insertionSort _ _)
      rw [exitsBefore, htime htrade, htime htrade']
      exact hle
  · -- the closing fills, ordered by their times
    refine ⟨fun trade htrade => ?_, ?_⟩
    · obtain ⟨fill, hfill, rfl⟩ := List.mem_map.mp htrade
      have hmem := List.of_mem_filter
        ((List.mem_insertionSort _).mp (List.mem_of_mem_filter hfill))
      rw [Bool.and_eq_true, LedgerFill.tradedSince, Option.any_eq_true] at hmem
      obtain ⟨tradedAt, hat, -⟩ := hmem.2
      rw [hat]
      rfl
    · exact List.pairwise_map.mpr ((List.pairwise_insertionSort _ _).filter _)

theorem computeMergedPortfolioDdPct_singleton (hbase : 0 < normalizationBaseUsdt config) :
    computeMergedPortfolioDdPct history [config] cutoff =
      strategyDrawdownPct history config cutoff := by
  obtain ⟨hdated, hordered⟩ := tradesForHealth_ordered history config cutoff
  rw [computeMergedPortfolioDdPct_cons, List.flatMap_nil, List.append_nil, List.map_nil,
    List.sum_nil, add_zero, mergedEquityMaxDdPct_of_pos hbase, exitProfits,
    List.filter_eq_self.mpr hdated, hordered.insertionSort_eq, strategyDrawdownPct,
    buildEquityCurve, calculateEquityMaxDrawdownPct_curve]

/-- **No deeper than the worst.**  A portfolio of strategies with positive bases falls by no more
than `d` per cent if none of its strategies does. -/
theorem computeMergedPortfolioDdPct_le (hbases : ∀ c ∈ configs, 0 < normalizationBaseUsdt c)
    (h0 : 0 ≤ d) (h1 : d ≤ 100) (halone : ∀ c ∈ configs, strategyDrawdownPct history c cutoff ≤ d) :
    computeMergedPortfolioDdPct history configs cutoff ≤ d := by
  induction configs with
  | nil => exact h0
  | cons config configs ih =>
    have hbase := hbases config List.mem_cons_self
    have hbases' : ∀ c ∈ configs, 0 < normalizationBaseUsdt c :=
      fun c hc => hbases c (List.mem_cons_of_mem _ hc)
    have hfirst := halone config List.mem_cons_self
    have hrest := ih hbases' fun c hc => halone c (List.mem_cons_of_mem _ hc)
    rw [← computeMergedPortfolioDdPct_singleton hbase] at hfirst
    cases configs with
    | nil => exact hfirst
    | cons next configs =>
      have hsum : 0 < ((next :: configs).map normalizationBaseUsdt).sum := by
        refine List.sum_pos _ (fun base hmem => ?_) (List.cons_ne_nil _ _)
        obtain ⟨c, hc, rfl⟩ := List.mem_map.mp hmem
        exact hbases' c hc
      rw [computeMergedPortfolioDdPct_cons, List.flatMap_nil, List.append_nil, List.map_nil,
        List.sum_nil, add_zero] at hfirst
      exact mergedEquityMaxDdPct_append_le hbase hsum h0 h1 hfirst hrest

theorem maxDdPct_computeStrategyHealth
    (henough : healthMinTrades ≤ (computeStrategyHealth history config now).sampleSize) :
    (computeStrategyHealth history config now).maxDdPct =
      strategyDrawdownPct history config (now - healthWindow) := by
  rw [computeStrategyHealth, sampleSize_healthFromTrades] at henough
  rw [computeStrategyHealth, healthFromTrades, if_neg (not_lt.mpr henough)]
  rfl

/-- **A breach of the portfolio** is a breach of one of its strategies: where the merged drawdown
reaches a threshold of at most a hundred per cent, so does the drawdown of a strategy alone, which
its health shows if it has trades enough to be judged. -/
theorem worstStrategy_of_portfolioDd (hbases : ∀ c ∈ configs, 0 < c.positionSizeUsdt)
    (hpos : 0 < threshold) (hle : threshold ≤ 100)
    (hbreach : threshold ≤ computeMergedPortfolioDdPct history configs (now - healthWindow)) :
    ∃ c ∈ configs, threshold ≤ strategyDrawdownPct history c (now - healthWindow) ∧
      (healthMinTrades ≤ (computeStrategyHealth history c now).sampleSize →
        threshold ≤ (computeStrategyHealth history c now).maxDdPct) := by
  by_contra hnone
  have hbelow : ∀ c ∈ configs, strategyDrawdownPct history c (now - healthWindow) < threshold := by
    intro c hc
    by_contra hreached
    refine hnone ⟨c, hc, not_lt.mp hreached, fun henough => ?_⟩
    rw [maxDdPct_computeStrategyHealth henough]
    exact not_lt.mp hreached
  obtain ⟨d, h0, hlt, halone⟩ := exists_bound_lt hpos hbelow
  have htogether := computeMergedPortfolioDdPct_le hbases h0 (hlt.le.trans hle) halone
  exact absurd (hbreach.trans htogether) (not_le.mpr hlt)

end Strategies

/-- A fill on an account with a loss of 50. -/
def losingFill (accountId : ℕ) (tradedAt : ℚ) : LedgerFill where
  id := ""
  tradedAt := some tradedAt
  side := "sell"
  amount := 1
  price := 1
  feeCost := 0
  feeCurrency := none
  realizedPnl := some (-50)
  accountId := accountId
  symbol := "BTC/USDT:USDT"

/-- Two strategies, of which one has lost 50 of its 100: the portfolio is down by a quarter. -/
theorem worstStrategy_oneOfTwo :
    25 ≤ computeMergedPortfolioDdPct { fills := [losingFill 1 (30 * 86400)] }
        [{ id := 1, accountId := 1 }, { id := 2, accountId := 2 }] (40 * 86400 - healthWindow) ∧
      ∃ c ∈ [({ id := 1, accountId := 1 } : AutoTradeConfig), { id := 2, accountId := 2 }],
        20 ≤ strategyDrawdownPct { fills := [losingFill 1 (30 * 86400)] } c
            (40 * 86400 - healthWindow) ∧
          (healthMinTrades ≤
              (computeStrategyHealth { fills := [losingFill 1 (30 * 86400)] } c
                (40 * 86400)).sampleSize →
            20 ≤ (computeStrategyHealth { fills := [losingFill 1 (30 * 86400)] } c
              (40 * 86400)).maxDdPct) := by
  have hquarter : 25 ≤ computeMergedPortfolioDdPct { fills := [losingFill 1 (30 * 86400)] }
      [{ id := 1, accountId := 1 }, { id := 2, accountId := 2 }] (40 * 86400 - healthWindow) := by
    decide +kernel
  refine ⟨hquarter, worstStrategy_of_portfolioDd (by decide +kernel) (by norm_num) (by norm_num) ?_⟩
  exact le_trans (by norm_num) hquarter

end AdviserConstructor
