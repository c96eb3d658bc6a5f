import Mathlib.Algebra.BigOperators.Ring.List
import AdviserConstructor.Backtest.Service

/-!
# The portfolio

`app/services/backtesting/portfolio.py`: the total capital is split among strategies by their
weights, each strategy is run on its own, and the profits of its trades are scaled to its share of
the capital.  What they are scaled from is read off the columns of the trades: an allocation, else a
profit per unit, else nothing, and then the profits are left as they are.  The reason of an exit is
no column of the portfolio, so that a trade that is open counts like any other.

Strategies that bring their trades along instead of an engine are left out.

* `explanations_runPortfolio`: the portfolio reports those strategies that have trades and a weight.
* `portfolioScaling_iff`: when a strategy alone agrees with its own run, and when the profits of all
  strategies are in proportion to the capital.
* `portfolioScaling_ne`: a grid bot whose orders are for a part of its capital does not agree, and
  the profits of the intraday engine stay what they are.
-/

namespace AdviserConstructor

namespace Backtest

/-! ## Weights -/

/-- The code points that `str.strip` takes off. -/
def isSpace (c : Char) : Bool :=
  let n := c.toNat
  decide (9 ≤ n ∧ n ≤ 13) || decide (28 ≤ n ∧ n ≤ 32) || decide (n = 133) || decide (n = 160) ||
    decide (n = 5760) || decide (8192 ≤ n ∧ n ≤ 8202) || decide (n = 8232) || decide (n = 8233) ||
    decide (n = 8239) || decide (n = 8287) || decide (n = 12288)

/-- `str.strip`. -/
def strip (s : String) : String :=
  String.ofList (((s.toList.dropWhile isSpace).reverse.dropWhile isSpace).reverse)

/-- A strategy of a portfolio, whose engine has been resolved. -/
structure PortfolioStrategy where
  name : String
  weight : ℚ := 0
  run : ServiceRun

namespace PortfolioStrategy

def trades (s : PortfolioStrategy) : List TradeRow := s.run.result.trades

/-- The strategy goes by its name as it is written. -/
def isNamed (s : PortfolioStrategy) : Bool := decide (strip s.name = s.name ∧ s.name ≠ "")

end PortfolioStrategy

/-- The weights that are positive, under their stripped names. -/
def positiveWeights (items : List PortfolioStrategy) : List (String × ℚ) :=
  items.filterMap fun s =>
    if strip s.name = "" ∨ s.weight ≤ 0 then none else some (strip s.name, s.weight)

/-- What `_normalized_weights` says of a name: the weight that was written last, or an equal share
where no weight is positive. -/
def normalizedWeight (items : List PortfolioStrategy) (name : String) : ℚ :=
  let weights := positiveWeights items
  let total := (weights.map Prod.snd).sum
  if total ≤ 0 then
    let names := (items.map fun s => strip s.name).filter fun n => decide (n ≠ "")
    if name ∈ names then 1 / names.length else 0
  else (weights.reverse.lookup name).getD 0 / total

/-! ## Scaling -/

/-- The profit of a trade among `trades`, scaled to `capital`. -/
def scalePnl (trades : List TradeRow) (capital : ℚ) (t : TradeRow) : ℚ :=
  if trades.any fun u => u.allocationUsdt.isSome then
    match t.allocationUsdt.filter fun allocated => decide (allocated ≠ 0) with
    | some allocated => t.pnlUsdt / allocated * capital
    | none => t.pnlUsdt * capital
  else if trades.any fun u => u.finalPnl.isSome then t.finalPnl.getD 0 * capital
  else t.pnlUsdt

/-- The columns of a trade that the portfolio keeps; there is no entry price among them. -/
def portfolioRow (t : TradeRow) (pnl : ℚ) : TradeRow where
  side := t.side
  entryTime := t.entryTime
  exitTime := t.exitTime
  entry := 0
  pnlUsdt := pnl

/-- What the portfolio explains of a strategy. -/
structure StrategyStats where
  strategy : String
  weight : ℚ
  allocationPct : ℚ
  capital : ℚ
  trades : ℕ
  winRate : ℚ
  totalPnlUsdt : ℚ
  deriving DecidableEq, Repr

/-- The result of a portfolio. -/
structure PortfolioResult where
  totalStrategies : ℕ
  totalEvents : ℕ
  metrics : EngineResult
  explanations : List StrategyStats

def emptyPortfolio (initial : ℚ) : PortfolioResult where
  totalStrategies := 0
  totalEvents := 0
  metrics :=
    { trades := [], performance := performanceOf 0 0 [], initialBalance := initial, totalPnl := 0
      finalBalance := initial }
  explanations := []

section

variable (items : List PortfolioStrategy) (totalCapital : ℚ)

/-- A strategy counts if it has trades and a weight. -/
def isCounted (s : PortfolioStrategy) : Bool :=
  !s.trades.isEmpty && decide (0 < normalizedWeight items s.name)

def capitalOf (s : PortfolioStrategy) : ℚ := totalCapital * normalizedWeight items s.name

/-- The profits of a strategy, scaled to its capital. -/
def scaledPnls (s : PortfolioStrategy) : List ℚ :=
  s.trades.map (scalePnl s.trades (capitalOf items totalCapital s))

def strategyFrame (s : PortfolioStrategy) : List TradeRow :=
  s.trades.map fun t => portfolioRow t (scalePnl s.trades (capitalOf items totalCapital s) t)

def strategyStats (s : PortfolioStrategy) : StrategyStats where
  strategy := s.name
  weight := normalizedWeight items s.name
  allocationPct := normalizedWeight items s.name * 100
  capital := capitalOf items totalCapital s
  trades := s.trades.length
  winRate := percentPositive (scaledPnls items totalCapital s)
  totalPnlUsdt := (scaledPnls items totalCapital s).sum

/-- `run_portfolio`. -/
def runPortfolio : PortfolioResult :=
  if items = [] ∨ totalCapital ≤ 0 then emptyPortfolio (max totalCapital 0)
  else
    let counted := items.filter (isCounted items)
    if counted = [] then emptyPortfolio totalCapital
    else
      let events := (counted.map (strategyFrame items totalCapital)).flatten.mergeSort
        fun a b => decide (a.exitTime ≤ b.exitTime)
      { totalStrategies := counted.length
        totalEvents := events.length
        metrics := addCapitalMetrics (fun m => m) events totalCapital
        explanations := counted.map (strategyStats items totalCapital) }

end

/-! ## What a portfolio adds up -/

section

variable {items : List PortfolioStrategy} {s : PortfolioStrategy} {totalCapital : ℚ}

/-- The portfolio reports those strategies that have trades and a weight. -/
theorem explanations_runPortfolio (h : 0 < totalCapital) :
    (runPortfolio items totalCapital).explanations =
      (items.filter (isCounted items)).map (strategyStats items totalCapital) := by
  rw [runPortfolio]
  by_cases hitems : items = []
  · rw [hitems]
    rfl
  · rw [if_neg (not_or.mpr ⟨hitems, not_le.mpr h⟩)]
    simp only
    split
    · next hnone =>
      rw [hnone]
      rfl
    · rfl

theorem closedRows_events {events : List TradeRow}
    (h : ∀ t ∈ events, ∃ u pnl, t = portfolioRow u pnl) :
    closedRows (events.map TradeRow.withRMultiple) = events.map TradeRow.withRMultiple := by
  refine closedRows_eq_self fun t ht => ?_
  obtain ⟨row, hrow, rfl⟩ := List.mem_map.mp ht
  obtain ⟨u, pnl, rfl⟩ := h row hrow
  rfl

theorem metrics_runPortfolio (h : 0 < totalCapital) :
    (runPortfolio items totalCapital).metrics.totalPnl =
        (((items.filter (isCounted items)).map (strategyFrame items totalCapital)).flatten.map
          TradeRow.pnlUsdt).sum ∧
      (closedRows (runPortfolio items totalCapital).metrics.trades).length =
        ((items.filter (isCounted items)).map
          (strategyFrame items totalCapital)).flatten.length := by
  rw [runPortfolio]
  by_cases hitems : items = []
  · rw [hitems]
    exact ⟨rfl, rfl⟩
  · rw [if_neg (not_or.mpr ⟨hitems, not_le.mpr h⟩)]
    simp only
    split
    · next hnone =>
      rw [hnone]
      exact ⟨rfl, rfl⟩
    · generalize hrows : ((items.filter (isCounted items)).map
        (strategyFrame items totalCapital)).flatten = rows
      have hperm := List.mergeSort_perm rows fun a b => decide (a.exitTime ≤ b.exitTime)
      have hevents : ∀ t ∈ rows.mergeSort fun a b => decide (a.exitTime ≤ b.exitTime),
          ∃ u pnl, t = portfolioRow u pnl := by
        intro t ht
        rw [hperm.mem_iff, ← hrows] at ht
        obtain ⟨frame, hframe, ht⟩ := List.mem_flatten.mp ht
        obtain ⟨s, _, rfl⟩ := List.mem_map.mp hframe
        obtain ⟨u, _, rfl⟩ := List.mem_map.mp ht
        exact ⟨u, _, rfl⟩
      constructor
      · show ((closedRows (List.map TradeRow.withRMultiple _)).map TradeRow.pnlUsdt).sum = _
        rw [closedRows_events hevents, List.map_map]
        exact (hperm.map TradeRow.pnlUsdt).sum_eq
      · show (closedRows (List.map TradeRow.withRMultiple _)).length = _
        rw [closedRows_events hevents, List.length_map, hperm.length_eq]

theorem positiveWeights_singleton (s : PortfolioStrategy) :
    positiveWeights [s] =
      if strip s.name = "" ∨ s.weight ≤ 0 then [] else [(strip s.name, s.weight)] := by
  rw [positiveWeights, List.filterMap_cons]
  split_ifs <;> rfl

theorem normalizedWeight_singleton (s : PortfolioStrategy) :
    normalizedWeight [s] s.name = if s.isNamed then 1 else 0 := by
  by_cases hempty : strip s.name = ""
  · -- a blank name has no weight
    have hnamed : s.isNamed = false := decide_eq_false fun h => h.2 (h.1.symm.trans hempty)
    have hweights : positiveWeights [s] = [] :=
      (positiveWeights_singleton s).trans (if_pos (.inl hempty))
    rw [normalizedWeight, hweights, hnamed]
    simp only [List.map_nil, List.sum_nil, le_refl, List.map_cons, hempty]
    rfl
  · have hkey : ∀ w : ℚ, (List.lookup s.name [(strip s.name, w)]).getD 0 =
        if s.isNamed then w else 0 := by
      intro w
      rw [PortfolioStrategy.isNamed, List.lookup_cons]
      by_cases hstrip : strip s.name = s.name
      · rw [hstrip, beq_self_eq_true, decide_eq_true ⟨rfl, hstrip ▸ hempty⟩]
        rfl
      · rw [beq_eq_false_iff_ne.mpr (Ne.symm hstrip), decide_eq_false fun h => hstrip h.1]
        rfl
    by_cases hweight : s.weight ≤ 0
    · -- without a positive weight the strategy takes all
      have hnames : ([s].map fun s => strip s.name).filter (fun n => decide (n ≠ "")) =
          [strip s.name] := List.filter_cons_of_pos (decide_eq_true hempty)
      have hweights : positiveWeights [s] = [] :=
        (positiveWeights_singleton s).trans (if_pos (.inr hweight))
      rw [normalizedWeight, hweights]
      rw [hnames, PortfolioStrategy.isNamed]
      by_cases hstrip : strip s.name = s.name
      · rw [if_pos (List.mem_singleton.mpr hstrip.symm), decide_eq_true ⟨hstrip, hstrip ▸ hempty⟩]
        norm_num
      · rw [if_neg fun h => hstrip (List.mem_singleton.mp h).symm,
          decide_eq_false fun h => hstrip h.1]
        rfl
    · have hweights : positiveWeights [s] = [(strip s.name, s.weight)] :=
        (positiveWeights_singleton s).trans (if_neg (not_or.mpr ⟨hempty, hweight⟩))
      rw [normalizedWeight, hweights]
      simp only [List.map_cons, List.map_nil, List.sum_cons, List.sum_nil, add_zero, if_neg hweight,
        List.reverse_singleton]
      rw [hkey]
      split
      · exact div_self (not_le.mp hweight).ne'
      · exact zero_div _

theorem metrics_runPortfolio_singleton (h : 0 < totalCapital) :
    (runPortfolio [s] totalCapital).metrics.totalPnl =
        (if s.isNamed then (s.trades.map (scalePnl s.trades totalCapital)).sum else 0) ∧
      (closedRows (runPortfolio [s] totalCapital).metrics.trades).length =
        if s.isNamed then s.trades.length else 0 := by
  obtain ⟨htotal, hclosed⟩ := @metrics_runPortfolio [s] totalCapital h
  rw [htotal, hclosed]
  have hweight := normalizedWeight_singleton s
  cases hnamed : s.isNamed with
  | false =>
    have hcounted : [s].filter (isCounted [s]) = [] := by
      refine List.filter_eq_nil_iff.mpr fun t ht => ?_
      rw [List.mem_singleton.mp ht, isCounted, hweight, hnamed]
      simp
    rw [hcounted]
    exact ⟨rfl, rfl⟩
  | true =>
    rw [hnamed] at hweight
    by_cases htrades : s.trades = []
    · have hcounted : [s].filter (isCounted [s]) = [] := by
        refine List.filter_eq_nil_iff.mpr fun t ht => ?_
        rw [List.mem_singleton.mp ht, isCounted, htrades]
        simp
      rw [hcounted, htrades]
      exact ⟨rfl, rfl⟩
    · have hcounted : [s].filter (isCounted [s]) = [s] := by
        refine List.filter_eq_self.mpr fun t ht => ?_
        rw [List.mem_singleton.mp ht, isCounted, hweight]
        simp [htrades]
      have hcapital : capitalOf [s] totalCapital s = totalCapital := by
        rw [capitalOf, hweight, if_pos rfl, mul_one]
      rw [hcounted, List.map_singleton, List.flatten_singleton, strategyFrame, hcapital,
        List.map_map, List.length_map]
      exact ⟨rfl, rfl⟩

end

/-! ## What the engines record of their sizes -/

/-- The allocation that every trade of an engine carries, if it carries one. -/
def EngineRun.allocation : EngineRun → Option ℚ
  | .vwap _ => none
  | .atrOrderBlock p _ => some p.allocationUsdt
  | .knifeCatcher p _ => some p.accountBalance
  | .gridBot p _ => some p.perOrderUsdt
  | .intradayMomentum _ _ _ => none

/-- The capital of an engine: `account_balance`, `allocation_usdt` or `initial_capital_usdt`. -/
def EngineRun.baseCapital : EngineRun → ℚ
  | .vwap run => run.params.accountBalance
  | .atrOrderBlock p _ => p.allocationUsdt
  | .knifeCatcher p _ => p.accountBalance
  | .gridBot p _ => p.initialCapitalUsdt
  | .intradayMomentum p _ _ => p.allocationUsdt

/-- What a profit is divided by that was made with an allocation. -/
def unitOf (allocated : ℚ) : ℚ := if allocated = 0 then 1 else allocated

theorem unitOf_ne_zero (allocated : ℚ) : unitOf allocated ≠ 0 := by
  rw [unitOf]
  split
  · exact one_ne_zero
  · next h => exact h

section

variable {s : PortfolioStrategy} {t : TradeRow} {capital : ℚ}

theorem allocation_of_mem_gross {run : EngineRun} (h : t ∈ run.gross) :
    t.allocationUsdt = run.allocation ∧ (run.allocation = none → t.finalPnl = none) := by
  cases run with
  | vwap run =>
    obtain ⟨_, _, rfl⟩ := List.mem_map.mp h
    exact ⟨rfl, fun _ => rfl⟩
  | atrOrderBlock p df =>
    obtain ⟨_, _, _, rfl⟩ := isAtrTrade_atrObBacktest p df t h
    exact ⟨rfl, nofun⟩
  | knifeCatcher p df =>
    obtain ⟨_, _, _, _, _, rfl⟩ := isKnifeTrade_knifeCatcherBacktest p df t h
    exact ⟨rfl, nofun⟩
  | gridBot p df =>
    obtain ⟨_, _, _, _, _, rfl⟩ := isGridTrade_gridBotBacktest p df t h
    exact ⟨rfl, nofun⟩
  | intradayMomentum p df atr =>
    obtain ⟨_, _, _, _, _, rfl⟩ := isIntradayTrade_intradayMomentumBacktest p df atr t h
    exact ⟨rfl, fun _ => rfl⟩

theorem IsChargedAs.frame {cost : CostModel} {g : TradeRow} (h : IsChargedAs cost g t) :
    t.allocationUsdt = g.allocationUsdt ∧ t.finalPnl = g.finalPnl ∧ t.isOpen = g.isOpen := by
  obtain ⟨paid, pnl, r, rfl, _⟩ := h
  exact ⟨rfl, rfl, rfl⟩

theorem allocation_of_mem_trades (h : t ∈ s.trades) :
    t.allocationUsdt = s.run.run.allocation ∧
      (s.run.run.allocation = none → t.finalPnl = none) := by
  obtain ⟨g, hg, hcharged⟩ := exists_of_mem_result h
  obtain ⟨hallocation, hfinal, _⟩ := hcharged.frame
  rw [hallocation, hfinal]
  exact allocation_of_mem_gross hg

theorem isOpen_of_mem_gross {run : EngineRun} (hvwap : ∀ r, run ≠ .vwap r) (h : t ∈ run.gross) :
    t.isOpen = false := by
  cases run with
  | vwap run => exact absurd rfl (hvwap run)
  | atrOrderBlock p df =>
    obtain ⟨_, _, _, rfl⟩ := isAtrTrade_atrObBacktest p df t h
    rfl
  | knifeCatcher p df =>
    obtain ⟨_, _, _, _, hreason, rfl⟩ := isKnifeTrade_knifeCatcherBacktest p df t h
    exact decide_eq_false fun hopen => hreason (Option.some.inj hopen)
  | gridBot p df => exact (isGridTrade_gridBotBacktest p df t h).isOpen
  | intradayMomentum p df atr =>
    obtain ⟨_, _, _, _, hreason, rfl⟩ := isIntradayTrade_intradayMomentumBacktest p df atr t h
    exact decide_eq_false fun hopen => hreason (Option.some.inj hopen)

/-- No trade of the run is open at its end. -/
def PortfolioStrategy.AllClosed (s : PortfolioStrategy) : Prop :=
  match s.run.run with
  | .vwap r => ∀ t ∈ r.simulated, t.exitReason ≠ .openAtEnd
  | _ => True

theorem allClosed_iff (s : PortfolioStrategy) :
    s.AllClosed ↔ ∀ t ∈ s.trades, t.isOpen = false := by
  have hother : (∀ r, s.run.run ≠ .vwap r) → ∀ t ∈ s.trades, t.isOpen = false := by
    intro hvwap t ht
    obtain ⟨g, hg, hcharged⟩ := exists_of_mem_result ht
    rw [hcharged.frame.2.2]
    exact isOpen_of_mem_gross hvwap hg
  obtain ⟨name, weight, run, lock⟩ := s
  cases run with
  | vwap run =>
    constructor
    · intro hclosed t ht
      obtain ⟨g, hg, hcharged⟩ := exists_of_mem_result ht
      obtain ⟨v, hv, rfl⟩ := List.mem_map.mp hg
      rw [hcharged.frame.2.2]
      exact (isOpen_row v).mpr (hclosed v hv)
    · intro hclosed v hv
      obtain ⟨t, ht, hcharged⟩ :=
        (isChargedAs_engine (.vwap run)).2 v.row (List.mem_map_of_mem hv)
      exact (isOpen_row v).mp (hcharged.frame.2.2.symm.trans (hclosed t ht))
  | atrOrderBlock p df => exact ⟨fun _ => hother (fun _ => nofun), fun _ => trivial⟩
  | knifeCatcher p df => exact ⟨fun _ => hother (fun _ => nofun), fun _ => trivial⟩
  | gridBot p df => exact ⟨fun _ => hother (fun _ => nofun), fun _ => trivial⟩
  | intradayMomentum p df atr => exact ⟨fun _ => hother (fun _ => nofun), fun _ => trivial⟩

theorem totalPnl_result (run : ServiceRun) :
    run.result.totalPnl = ((closedRows run.result.trades).map TradeRow.pnlUsdt).sum := by
  have hengine : run.run.result.totalPnl =
      ((closedRows run.run.result.trades).map TradeRow.pnlUsdt).sum := by
    cases run.run with
    | vwap run => rfl
    | atrOrderBlock p df => rfl
    | knifeCatcher p df => rfl
    | gridBot p df => rfl
    | intradayMomentum p df atr => rfl
  rcases result_cases run with h | h
  · rw [h]
    exact hengine
  · rw [h]
    cases run.lock with
    | none => exact hengine
    | some bars =>
      rw [applyAiSideLock]
      split
      · exact hengine
      · simp only
        split
        · exact hengine
        · rfl

theorem sum_scalePnl (s : PortfolioStrategy) (capital : ℚ) :
    (s.trades.map (scalePnl s.trades capital)).sum =
      match s.run.run.allocation with
      | some allocated => (s.trades.map TradeRow.pnlUsdt).sum * (capital / unitOf allocated)
      | none => (s.trades.map TradeRow.pnlUsdt).sum := by
  have halloc : ∀ t ∈ s.trades, _ := fun t ht => @allocation_of_mem_trades s t ht
  cases hall : s.run.run.allocation with
  | some allocated =>
    have hscale : ∀ t ∈ s.trades,
        scalePnl s.trades capital t = t.pnlUsdt * (capital / unitOf allocated) := by
      intro t ht
      have htrade := (halloc t ht).1.trans hall
      have hany : (s.trades.any fun u => u.allocationUsdt.isSome) = true :=
        List.any_eq_true.mpr ⟨t, ht, by rw [htrade]; rfl⟩
      rw [scalePnl, if_pos hany, htrade, Option.filter_some, unitOf]
      by_cases hzero : allocated = 0
      · rw [if_neg (by simp [hzero]), if_pos hzero, div_one]
      · rw [if_pos (decide_eq_true hzero), if_neg hzero]
        ring
    rw [List.map_congr_left hscale, List.sum_map_mul_right]
  | none =>
    have hscale : ∀ t ∈ s.trades, scalePnl s.trades capital t = t.pnlUsdt := by
      intro t ht
      have hany : (s.trades.any fun u => u.allocationUsdt.isSome) = false :=
        List.any_eq_false.mpr fun u hu => by rw [(halloc u hu).1, hall]; nofun
      have hfinal : (s.trades.any fun u => u.finalPnl.isSome) = false :=
        List.any_eq_false.mpr fun u hu => by rw [(halloc u hu).2 hall]; nofun
      rw [scalePnl, hany, hfinal]
      rfl
    rw [List.map_congr_left hscale]

theorem length_closedRows_eq {trades : List TradeRow} :
    (closedRows trades).length = trades.length ↔ ∀ t ∈ trades, t.isOpen = false := by
  rw [closedRows, List.length_filter_eq_length_iff]
  exact forall₂_congr fun t _ => by rw [Bool.not_eq_true']

theorem totalPnl_of_allClosed (h : s.AllClosed) :
    s.run.result.totalPnl = (s.trades.map TradeRow.pnlUsdt).sum := by
  rw [totalPnl_result]
  have hclosed : closedRows s.run.result.trades = s.run.result.trades :=
    closedRows_eq_self ((allClosed_iff s).mp h)
  rw [hclosed]
  rfl

end

/-! ## When the portfolio agrees with the engines -/

/-- A portfolio of one strategy, over the capital of its engine, agrees with the run of the engine
on the total profit and on the number of closed trades. -/
structure AgreesAlone (s : PortfolioStrategy) : Prop where
  totalPnl : (runPortfolio [s] s.run.run.baseCapital).metrics.totalPnl = s.run.result.totalPnl
  closedTrades : (closedRows (runPortfolio [s] s.run.run.baseCapital).metrics.trades).length =
    (closedRows s.run.result.trades).length

/-- The profits of the strategies of a portfolio are in proportion to the capital, and trades that
are open are left out of them. -/
structure InProportion (items : List PortfolioStrategy) (totalCapital : ℚ) : Prop where
  scaled : ∀ k > 0, (runPortfolio items (k * totalCapital)).explanations.map
      StrategyStats.totalPnlUsdt =
    (runPortfolio items totalCapital).explanations.map fun e => k * e.totalPnlUsdt
  openLeftOut : (runPortfolio items totalCapital).explanations.map StrategyStats.trades =
    (items.filter (isCounted items)).map fun s => (closedRows s.trades).length

/-- A strategy that agrees with its own run: its name is written without blanks around it, no trade
is open, and the allocation of its trades, if there is one, is the capital of the engine, unless the
run comes out even.  A strategy that goes by no name is left out, and closes no trade. -/
def PortfolioStrategy.SizedAlike (s : PortfolioStrategy) : Prop :=
  if s.isNamed then
    s.AllClosed ∧ ∀ allocated, s.run.run.allocation = some allocated →
      s.run.run.baseCapital = unitOf allocated ∨ s.run.result.totalPnl = 0
  else closedRows s.trades = []

/-- A strategy whose profits are in proportion to its capital: no trade is open, and its trades
carry an allocation, unless the run comes out even. -/
def PortfolioStrategy.Scales (s : PortfolioStrategy) : Prop :=
  s.AllClosed ∧ (s.run.run.allocation = none → s.run.result.totalPnl = 0)

theorem agreesAlone_iff {s : PortfolioStrategy} (h : 0 < s.run.run.baseCapital) :
    AgreesAlone s ↔ s.SizedAlike := by
  obtain ⟨htotal, hclosed⟩ := @metrics_runPortfolio_singleton s _ h
  rw [PortfolioStrategy.SizedAlike]
  cases hnamed : s.isNamed with
  | false =>
    rw [hnamed] at htotal hclosed
    constructor
    · intro hagrees
      have hlength := hagrees.closedTrades
      rw [hclosed] at hlength
      exact List.length_eq_zero_iff.mp hlength.symm
    · intro hnone
      have hnone : closedRows s.run.result.trades = [] := hnone
      refine ⟨?_, ?_⟩
      · rw [htotal, totalPnl_result, hnone]
        rfl
      · rw [hclosed, hnone]
        rfl
  | true =>
    rw [hnamed, sum_scalePnl] at htotal
    rw [hnamed] at hclosed
    have hcount : (closedRows (runPortfolio [s] s.run.run.baseCapital).metrics.trades).length =
        (closedRows s.run.result.trades).length ↔ s.AllClosed := by
      rw [hclosed, allClosed_iff]
      exact eq_comm.trans length_closedRows_eq
    have hprofit : s.AllClosed →
        ((runPortfolio [s] s.run.run.baseCapital).metrics.totalPnl = s.run.result.totalPnl ↔
          ∀ allocated, s.run.run.allocation = some allocated →
            s.run.run.baseCapital = unitOf allocated ∨ s.run.result.totalPnl = 0) := by
      intro hall
      rw [htotal, ← totalPnl_of_allClosed hall]
      cases s.run.run.allocation with
      | none => exact ⟨fun _ _ => nofun, fun _ => rfl⟩
      | some allocated =>
        have hunit := unitOf_ne_zero allocated
        constructor
        · rintro heq _ ⟨⟩
          by_cases hzero : s.run.result.totalPnl = 0
          · exact .inr hzero
          · refine .inl ?_
            have hratio : s.run.run.baseCapital / unitOf allocated = 1 :=
              mul_left_cancel₀ hzero (heq.trans (mul_one _).symm)
            exact (div_eq_one_iff_eq hunit).mp hratio
        · intro heq
          rcases heq allocated rfl with hbase | hzero
          · rw [hbase]
            show _ * (unitOf allocated / unitOf allocated) = _
            rw [div_self hunit, mul_one]
          · rw [hzero]
            exact zero_mul _
    constructor
    · rintro ⟨hpnl, hlength⟩
      have hall := hcount.mp hlength
      exact ⟨hall, (hprofit hall).mp hpnl⟩
    · rintro ⟨hall, hbase⟩
      exact ⟨(hprofit hall).mpr hbase, hcount.mpr hall⟩

theorem inProportion_iff {items : List PortfolioStrategy} {totalCapital : ℚ}
    (h : 0 < totalCapital) :
    InProportion items totalCapital ↔ ∀ s ∈ items, isCounted items s = true → s.Scales := by
  have hopen : (runPortfolio items totalCapital).explanations.map StrategyStats.trades =
      ((items.filter (isCounted items)).map fun s => (closedRows s.trades).length) ↔
        ∀ s ∈ items.filter (isCounted items), s.AllClosed := by
    rw [explanations_runPortfolio h, List.map_map, List.map_inj_left]
    refine forall₂_congr fun s _ => ?_
    rw [allClosed_iff, ← length_closedRows_eq]
    exact eq_comm
  have hscaled : (∀ k > 0, (runPortfolio items (k * totalCapital)).explanations.map
        StrategyStats.totalPnlUsdt =
      (runPortfolio items totalCapital).explanations.map fun e => k * e.totalPnlUsdt) ↔
        ∀ s ∈ items.filter (isCounted items), s.run.run.allocation = none →
          (s.trades.map TradeRow.pnlUsdt).sum = 0 := by
    have hone : ∀ k > 0, ((runPortfolio items (k * totalCapital)).explanations.map
          StrategyStats.totalPnlUsdt =
        (runPortfolio items totalCapital).explanations.map fun e => k * e.totalPnlUsdt) ↔
          ∀ s ∈ items.filter (isCounted items), s.run.run.allocation = none →
            (s.trades.map TradeRow.pnlUsdt).sum = k * (s.trades.map TradeRow.pnlUsdt).sum := by
      intro k hk
      rw [explanations_runPortfolio h, explanations_runPortfolio (mul_pos hk h), List.map_map,
        List.map_map, List.map_inj_left]
      refine forall₂_congr fun s _ => ?_
      show (s.trades.map (scalePnl s.trades (capitalOf items (k * totalCapital) s))).sum =
        k * (s.trades.map (scalePnl s.trades (capitalOf items totalCapital s))).sum ↔ _
      rw [sum_scalePnl, sum_scalePnl]
      cases s.run.run.allocation with
      | none => exact ⟨fun heq _ => heq, fun hall => hall rfl⟩
      | some allocated =>
        refine ⟨fun _ => nofun, fun _ => ?_⟩
        show _ * (k * totalCapital * _ / _) = k * (_ * (totalCapital * _ / _))
        ring
    constructor
    · intro hall s hs hnone
      have htwice := (hone 2 two_pos).mp (hall 2 two_pos) s hs hnone
      linarith only [htwice]
    · intro hzero k hk
      refine (hone k hk).mpr fun s hs hnone => ?_
      rw [hzero s hs hnone, mul_zero]
  constructor
  · rintro ⟨hk, hleft⟩ s hs hcounted
    have hs := List.mem_filter.mpr ⟨hs, hcounted⟩
    have hall := hopen.mp hleft s hs
    refine ⟨hall, fun hnone => ?_⟩
    rw [totalPnl_of_allClosed hall]
    exact hscaled.mp hk s hs hnone
  · intro hscales
    have hcounted : ∀ s ∈ items.filter (isCounted items), s.Scales := fun s hs =>
      hscales s (List.mem_filter.mp hs).1 (List.mem_filter.mp hs).2
    refine ⟨hscaled.mpr fun s hs hnone => ?_, hopen.mpr fun s hs => (hcounted s hs).1⟩
    rw [← totalPnl_of_allClosed (hcounted s hs).1]
    exact (hcounted s hs).2 hnone

/-- **Scaling.**  A strategy alone agrees with its own run exactly if it is sized alike, and the
profits of a portfolio are in proportion to its capital exactly if those of its strategies are. -/
theorem portfolioScaling_iff (s : PortfolioStrategy) (items : List PortfolioStrategy)
    (totalCapital : ℚ) :
    (0 < s.run.run.baseCapital → (AgreesAlone s ↔ s.SizedAlike)) ∧
      (0 < totalCapital →
        (InProportion items totalCapital ↔
          ∀ s ∈ items, isCounted items s = true → s.Scales)) :=
  ⟨fun h => agreesAlone_iff h, fun h => inProportion_iff h⟩

/-- A grid bot that halves its capital among its orders. -/
def halvedGrid : PortfolioStrategy where
  name := "Grid BOT"
  weight := 1
  run := ⟨.gridBot { oneLevel with orderSizeUsdt := some 500 } (fallFrame 97), none⟩

/-- A grid bot that puts its capital into one order. -/
def wholeGrid : PortfolioStrategy where
  name := "Grid BOT"
  weight := 1
  run := ⟨.gridBot { oneLevel with orderSizeUsdt := some 1000 } (fallFrame 97), none⟩

/-- A grid bot of one order agrees with its own run, and a portfolio of one that halves its capital
is in proportion. -/
theorem portfolioScaling_grid :
    AgreesAlone wholeGrid ∧ InProportion [halvedGrid] 5000 := by
  have hscaling := portfolioScaling_iff wholeGrid [halvedGrid] 5000
  refine ⟨(hscaling.1 (by decide +kernel)).mpr ?_, (hscaling.2 (by decide +kernel)).mpr ?_⟩
  · refine ⟨trivial, ?_⟩
    rintro allocated ⟨⟩
    exact .inl (by decide +kernel)
  · rintro s hs -
    rw [List.mem_singleton.mp hs]
    exact ⟨trivial, fun hnone => absurd hnone (Option.some_ne_none _)⟩

/-- The profit of a grid bot is scaled from its orders. -/
theorem portfolioScaling_ne :
    ¬((∀ s : PortfolioStrategy, 0 < s.run.run.baseCapital → AgreesAlone s) ∧
      ∀ (items : List PortfolioStrategy) (totalCapital : ℚ), 0 < totalCapital →
        InProportion items totalCapital) := by
  rintro ⟨h, -⟩
  have hpnl := (h halvedGrid (by decide +kernel)).totalPnl
  revert hpnl
  decide +kernel

end Backtest

end AdviserConstructor
