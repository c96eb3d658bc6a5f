import Mathlib.Tactic.Linarith
import Mathlib.Tactic.LinearCombination
import AdviserConstructor.Backtest.CostModel

/-!
# The grid bot

`app/services/backtesting/grid_bot.py`: a grid of buy levels lies below the moving average.  A level
that a bar reaches is bought for a fixed amount while the cash covers it, and sold one grid step
above its entry; at the end of the data the open positions are closed at the last close.  The loop
keeps its own account of the cash, net of fees, while the trades carry their gross profits, from
which the cost model takes the fees a second time.

* `balanced_runBars`: a fill and a take-profit leave the cash, the net profits of the trades and
  what is tied up in positions in balance.
* `gridBotBacktest_cash`: the cash at the end is the final balance, while all prices are positive.
* `gridBotBacktest_cash_ne`: it is not if the last close, or a take-profit, is zero, or an order is
  for a negative amount.
-/

namespace AdviserConstructor

namespace Backtest

/-- The parameters of `run_grid_bot`. -/
structure GridParams where
  maPeriod : ℕ := 50
  gridSpacingPct : ℚ := 1 / 2
  gridsDown : ℤ := 8
  initialCapitalUsdt : ℚ := 1000
  orderSizeUsdt : Option ℚ := none
  closeOpenPositionsOnEod : Bool := true
  costs : CostParams := {}

namespace GridParams

/-- The commission of an order, in percent: the older name of the parameter is preferred. -/
def feePct (p : GridParams) : ℚ := (p.costs.orderFeePct.or p.costs.feePct).getD defaultFeePct

def fee (p : GridParams) : ℚ := p.feePct / 100

def spacing (p : GridParams) : ℚ := p.gridSpacingPct / 100

def perOrderUsdt (p : GridParams) : ℚ :=
  p.orderSizeUsdt.getD (p.initialCapitalUsdt / max 1 p.gridsDown)

/-- The cost model that the trades are charged by. -/
def costModel (p : GridParams) : CostModel :=
  costModelFromParams { p.costs with feePct := some p.feePct }

end GridParams

/-- An open position of the grid. -/
structure GridPosition where
  level : ℕ
  entry : ℚ
  qty : ℚ
  entryTime : ℤ
  deriving DecidableEq, Repr

/-- The variables of the loop: the positions in the order in which they were opened. -/
structure GridState where
  cash : ℚ
  positions : List GridPosition := []
  trades : List TradeRow := []
  deriving DecidableEq, Repr

section

variable (p : GridParams)

/-- The trade of a position that is closed at `price`. -/
def gridTrade (pos : GridPosition) (price : ℚ) (time : ℤ) (reason : RowExit) : TradeRow where
  side := some .long
  entryTime := pos.entryTime
  exitTime := time
  entry := pos.entry
  exit := some price
  qty := some pos.qty
  allocationUsdt := some p.perOrderUsdt
  riskUsdt := some p.perOrderUsdt
  pnlUsdt := (price - pos.entry) * pos.qty
  exitReason := some reason

/-- A position is closed: its trade is recorded and its proceeds are booked. -/
def GridState.close (st : GridState) (pos : GridPosition) (price : ℚ) (time : ℤ)
    (reason : RowExit) : GridState :=
  { st with
    cash := st.cash + price * pos.qty * (1 - p.fee)
    trades := st.trades ++ [gridTrade p pos price time reason] }

/-- A level of the grid is bought if the bar reaches it and the cash covers the order. -/
def fillLevel (bar : Bar) (center : ℚ) (st : GridState) (level : ℕ) : GridState :=
  let levelPrice := center * (1 - p.spacing * level)
  -- the quantity at a price of zero, an exception of the source, is zero here
  if (∀ pos ∈ st.positions, pos.level ≠ level) ∧ bar.low ≤ levelPrice then
    if st.cash < p.perOrderUsdt then st
    else
      { st with
        cash := st.cash - p.perOrderUsdt * (1 + p.fee)
        positions := st.positions ++
          [{ level := level, entry := levelPrice, qty := p.perOrderUsdt / levelPrice,
             entryTime := bar.time }] }
  else st

/-- The price at which a position is taken off. -/
def takePrice (pos : GridPosition) : ℚ := pos.entry * (1 + p.spacing)

/-- The positions whose price the bar reaches are taken off. -/
def takeProfits (bar : Bar) (st : GridState) : GridState :=
  let hit : GridPosition → Bool := fun pos => decide (takePrice p pos ≤ bar.high)
  { (st.positions.filter hit).foldl
      (fun s pos => s.close p pos (takePrice p pos) bar.time .gridTp) st with
    positions := st.positions.filter fun pos => !hit pos }

def gridBar (df : Frame) (st : GridState) (i : ℕ) : GridState :=
  match rolling mean df.closes p.maPeriod i with
  | none => st
  | some center =>
      if center ≤ 0 then st
      else
        takeProfits p (df.bar i)
          ((List.range' 1 p.gridsDown.toNat).foldl (fillLevel p (df.bar i) center) st)

def runBars (df : Frame) : GridState :=
  (List.range' (p.maPeriod + 2) (df.length - (p.maPeriod + 2))).foldl (gridBar p df)
    { cash := p.initialCapitalUsdt }

/-- The positions that are left are closed at the last close. -/
def closeEod (df : Frame) (st : GridState) : GridState :=
  if p.closeOpenPositionsOnEod then
    st.positions.foldl (fun s pos => s.close p pos (df.bar (df.length - 1)).close
      (df.bar (df.length - 1)).time .eodClose) st
  else st

/-- `grid_bot_backtest`: the variables behind the last statement. -/
def gridBotBacktest (df : Frame) : GridState := closeEod p df (runBars p df)

/-- `run_grid_bot`. -/
def runGridBot (df : Frame) : EngineResult :=
  finishEngine (gridBotBacktest p df).trades p.costModel p.initialCapitalUsdt

end

/-! ## The balance of the loop -/

section

variable {p : GridParams}

/-- The profit of a trade after its costs. -/
def netPnl (cost : CostModel) (t : TradeRow) : ℚ :=
  t.pnlUsdt - if t.isCharged then t.costUnder cost else 0

/-- The net profits of the trades of a state. -/
def GridState.netSum (st : GridState) (cost : CostModel) : ℚ := (st.trades.map (netPnl cost)).sum

/-- The cash, less the profits that have been booked, and what the open positions have cost. -/
def GridState.potential (p : GridParams) (st : GridState) (cost : CostModel) : ℚ :=
  st.cash - st.netSum cost + st.positions.length * (p.perOrderUsdt * (1 + p.fee))

/-- A position that was bought for the amount of an order, at a positive price. -/
structure GridPosition.Sound (p : GridParams) (pos : GridPosition) : Prop where
  entry_pos : 0 < pos.entry
  amount : pos.entry * pos.qty = p.perOrderUsdt

/-- What the equality of the two accounts rests on. -/
structure GridParams.Plain (p : GridParams) : Prop where
  order_nonneg : 0 ≤ p.perOrderUsdt
  spacing_gt : -1 < p.spacing
  slippage : p.costs.slippagePct.getD 0 = 0
  funding : p.costs.fundingPctPerBar.getD 0 = 0

theorem GridPosition.Sound.qty_nonneg {pos : GridPosition} (h : pos.Sound p) (hp : p.Plain) :
    0 ≤ pos.qty := by
  by_contra hneg
  have hprod := mul_neg_of_pos_of_neg h.entry_pos (not_le.mp hneg)
  rw [h.amount] at hprod
  exact absurd hp.order_nonneg (not_le.mpr hprod)

theorem perSideRate_costModel (hp : p.Plain) : p.costModel.perSideRate = p.feePct := by
  show p.feePct + p.costs.slippagePct.getD 0 = p.feePct
  rw [hp.slippage, add_zero]

theorem netPnl_gridTrade {pos : GridPosition} {price : ℚ} {time : ℤ} {reason : RowExit}
    (hp : p.Plain) (hpos : pos.Sound p) (hprice : 0 < price) (hreason : reason ≠ .openAtEnd) :
    netPnl p.costModel (gridTrade p pos price time reason) =
      price * pos.qty * (1 - p.fee) - p.perOrderUsdt * (1 + p.fee) := by
  have hopen : (gridTrade p pos price time reason).isOpen = false :=
    decide_eq_false fun h => hreason (Option.some.inj h)
  have hentry : (gridTrade p pos price time reason).entryNotionalOf = p.perOrderUsdt :=
    abs_of_nonneg hp.order_nonneg
  have hpnl : (gridTrade p pos price time reason).pnlUsdt = price * pos.qty - p.perOrderUsdt := by
    show (price - pos.entry) * pos.qty = _
    rw [sub_mul, hpos.amount]
  have hfee : p.fee = p.feePct / 100 := rfl
  rw [netPnl, hpnl, TradeRow.isCharged, hopen, hentry]
  rcases hp.order_nonneg.lt_or_eq with horder | horder
  · -- the order is for a positive amount, and so is what it is sold for
    have hqty : 0 < pos.qty := by
      refine lt_of_le_of_ne (hpos.qty_nonneg hp) fun h => ?_
      rw [← hpos.amount, ← h, mul_zero] at horder
      exact lt_irrefl 0 horder
    have hexit : (gridTrade p pos price time reason).exitNotionalOf p.perOrderUsdt =
        pos.qty * price := by
      show (if pos.qty ≠ 0 ∧ price ≠ 0 then |pos.qty * price| else _) = _
      rw [if_pos ⟨hqty.ne', hprice.ne'⟩, abs_of_pos (mul_pos hqty hprice)]
    have hcost : (gridTrade p pos price time reason).costUnder p.costModel =
        (p.perOrderUsdt + pos.qty * price) * p.feePct / 100 := by
      rw [TradeRow.costUnder, hentry, hexit, tradeCostUsdt, perSideRate_costModel hp]
      show _ + p.perOrderUsdt * p.costs.fundingPctPerBar.getD 0 / 100 * _ = _
      rw [hp.funding]
      ring
    rw [decide_eq_true horder, hcost, hfee]
    simp only [Bool.not_false, Bool.and_self, if_true]
    ring
  · -- an order for nothing buys nothing
    have hqty : pos.qty = 0 := by
      rcases mul_eq_zero.mp (hpos.amount.trans horder.symm) with h | h
      · exact absurd h hpos.entry_pos.ne'
      · exact h
    rw [← horder, hqty]
    simp only [lt_irrefl, decide_false, Bool.and_false, Bool.false_eq_true, if_false]
    ring

theorem netSum_close (st : GridState) (cost : CostModel) (pos : GridPosition) (price : ℚ)
    (time : ℤ) (reason : RowExit) :
    (st.close p pos price time reason).netSum cost =
      st.netSum cost + netPnl cost (gridTrade p pos price time reason) := by
  show ((st.trades ++ [gridTrade p pos price time reason]).map (netPnl cost)).sum = _
  rw [List.map_append, List.sum_append, List.map_singleton, List.sum_singleton, GridState.netSum]

theorem free_closeAll {reason : RowExit} (hp : p.Plain) (hreason : reason ≠ .openAtEnd)
    (time : ℤ) (price : GridPosition → ℚ) (closing : List GridPosition) (st : GridState)
    (hsound : ∀ pos ∈ closing, pos.Sound p ∧ 0 < price pos) :
    let after := closing.foldl (fun s pos => s.close p pos (price pos) time reason) st
    after.cash - after.netSum p.costModel =
        st.cash - st.netSum p.costModel + closing.length * (p.perOrderUsdt * (1 + p.fee)) ∧
      after.positions = st.positions := by
  induction closing generalizing st with
  | nil =>
    refine ⟨?_, rfl⟩
    show st.cash - st.netSum p.costModel = _
    simp only [List.length_nil, Nat.cast_zero, zero_mul, add_zero]
  | cons pos closing ih =>
    obtain ⟨hpos, hprice⟩ := hsound pos List.mem_cons_self
    have hrest := ih (st.close p pos (price pos) time reason) fun other hother =>
      hsound other (List.mem_cons_of_mem pos hother)
    have hcash : (st.close p pos (price pos) time reason).cash =
        st.cash + price pos * pos.qty * (1 - p.fee) := rfl
    rw [netSum_close, netPnl_gridTrade hp hpos hprice hreason, hcash] at hrest
    refine ⟨?_, hrest.2⟩
    rw [List.foldl_cons, hrest.1, List.length_cons, Nat.cast_succ]
    ring

/-- The state of the loop between two bars. -/
structure GridState.Balanced (p : GridParams) (st : GridState) : Prop where
  potential : st.potential p p.costModel = p.initialCapitalUsdt
  sound : ∀ pos ∈ st.positions, pos.Sound p

variable {st : GridState}

/-- A level is bought, or the grid is left as it is. -/
theorem fillLevel_cases (bar : Bar) (center : ℚ) (st : GridState) (level : ℕ) :
    (((∀ pos ∈ st.positions, pos.level ≠ level) ∧ bar.low ≤ center * (1 - p.spacing * level)) ∧
        p.perOrderUsdt ≤ st.cash) ∧
      fillLevel p bar center st level = { st with
        cash := st.cash - p.perOrderUsdt * (1 + p.fee)
        positions := st.positions ++
          [{ level, entryTime := bar.time, entry := center * (1 - p.spacing * level)
             qty := p.perOrderUsdt / (center * (1 - p.spacing * level)) }] } ∨
    ¬(((∀ pos ∈ st.positions, pos.level ≠ level) ∧ bar.low ≤ center * (1 - p.spacing * level)) ∧
        p.perOrderUsdt ≤ st.cash) ∧ fillLevel p bar center st level = st := by
  rw [fillLevel]
  split_ifs with hreach hcash
  · exact Or.inr ⟨fun h => not_le.mpr hcash h.2, rfl⟩
  · exact Or.inl ⟨⟨hreach, not_lt.mp hcash⟩, rfl⟩
  · exact Or.inr ⟨fun h => hreach h.1, rfl⟩

theorem balanced_fillLevel {bar : Bar} {center : ℚ} {level : ℕ} (hbar : 0 < bar.low)
    (h : st.Balanced p) : (fillLevel p bar center st level).Balanced p := by
  rcases fillLevel_cases bar center st level with ⟨⟨hreach, -⟩, heq⟩ | ⟨-, heq⟩
  · rw [heq]
    have hprice : 0 < center * (1 - p.spacing * level) := lt_of_lt_of_le hbar hreach.2
    constructor
    · have hbalance := h.potential
      rw [GridState.potential, GridState.netSum] at hbalance ⊢
      rw [List.length_append, List.length_singleton, Nat.cast_succ]
      linear_combination hbalance
    · intro pos hpos
      rcases List.mem_append.mp hpos with hold | hnew
      · exact h.sound pos hold
      · rw [List.mem_singleton.mp hnew]
        exact ⟨hprice, mul_div_cancel₀ _ hprice.ne'⟩
  · rw [heq]
    exact h

theorem balanced_fillLevels {bar : Bar} {center : ℚ} (hbar : 0 < bar.low) (levels : List ℕ)
    (h : st.Balanced p) : (levels.foldl (fillLevel p bar center) st).Balanced p := by
  induction levels generalizing st with
  | nil => exact h
  | cons level levels ih => exact ih (balanced_fillLevel hbar h)

theorem balanced_takeProfits {bar : Bar} (hp : p.Plain) (h : st.Balanced p) :
    (takeProfits p bar st).Balanced p := by
  have hsound : ∀ pos ∈ st.positions.filter (fun pos => decide (takePrice p pos ≤ bar.high)),
      pos.Sound p ∧ 0 < takePrice p pos := by
    intro pos hpos
    have hpos := h.sound pos (List.mem_of_mem_filter hpos)
    have hstep : 0 < 1 + p.spacing := by linarith only [hp.spacing_gt]
    exact ⟨hpos, mul_pos hpos.entry_pos hstep⟩
  have hfree := (free_closeAll hp (show RowExit.gridTp ≠ .openAtEnd by decide) bar.time
    (takePrice p) _ st hsound).1
  constructor
  · have hlength := (List.filter_append_perm
      (fun pos => decide (takePrice p pos ≤ bar.high)) st.positions).length_eq
    rw [List.length_append] at hlength
    have hcount : (st.positions.length : ℚ) =
        (st.positions.filter fun pos => decide (takePrice p pos ≤ bar.high)).length +
        (st.positions.filter fun pos => !decide (takePrice p pos ≤ bar.high)).length := by
      rw [← Nat.cast_add]
      exact congrArg Nat.cast hlength.symm
    have hbalance := h.potential
    rw [GridState.potential, hcount] at hbalance
    rw [GridState.potential, GridState.netSum, takeProfits]
    rw [GridState.netSum] at hfree
    linear_combination hbalance + hfree
  · intro pos hpos
    exact h.sound pos (List.mem_of_mem_filter hpos)

/-- **The balance of the loop.**  Whatever is filled and taken, the cash, less the net profits, and
what the open positions have cost make up the initial capital. -/
theorem balanced_runBars {df : Frame} (hp : p.Plain)
    (hlow : ∀ i < df.length, 0 < (df.bar i).low) : (runBars p df).Balanced p := by
  refine List.foldlRecOn (motive := fun st => GridState.Balanced p st) _ _ ⟨?_, nofun⟩
    fun st h i hi => ?_
  · show p.initialCapitalUsdt - (List.map _ []).sum + ((0 : ℕ) : ℚ) * _ = _
    rw [List.map_nil, List.sum_nil]
    ring
  · rw [List.mem_range'_1] at hi
    rw [gridBar]
    cases rolling mean df.closes p.maPeriod i with
    | none => exact h
    | some center =>
      by_cases hcenter : center ≤ 0
      · simp only [if_pos hcenter]
        exact h
      · simp only [if_neg hcenter]
        exact balanced_takeProfits hp (balanced_fillLevels (hlow i (by omega)) _ h)

/-! ## The trades of the loop -/

/-- A trade that the loop has recorded. -/
def IsGridTrade (p : GridParams) (t : TradeRow) : Prop :=
  ∃ pos price time reason, reason ≠ .openAtEnd ∧ t = gridTrade p pos price time reason

theorem isGridTrade_closeAll {price : GridPosition → ℚ} {time : ℤ} {reason : RowExit}
    (hreason : reason ≠ .openAtEnd) (closing : List GridPosition) {st : GridState}
    (h : ∀ t ∈ st.trades, IsGridTrade p t) :
    ∀ t ∈ (closing.foldl (fun s pos => s.close p pos (price pos) time reason) st).trades,
      IsGridTrade p t := by
  induction closing generalizing st with
  | nil => exact h
  | cons pos closing ih =>
    refine ih fun t ht => ?_
    rcases List.mem_append.mp ht with hold | hnew
    · exact h t hold
    · exact ⟨pos, price pos, time, reason, hreason, List.mem_singleton.mp hnew⟩

theorem isGridTrade_takeProfits (bar : Bar) (h : ∀ t ∈ st.trades, IsGridTrade p t) :
    ∀ t ∈ (takeProfits p bar st).trades, IsGridTrade p t := by
  exact @isGridTrade_closeAll p (takePrice p) bar.time .gridTp nofun _ st h

theorem isGridTrade_closeEod (df : Frame) (h : ∀ t ∈ st.trades, IsGridTrade p t) :
    ∀ t ∈ (closeEod p df st).trades, IsGridTrade p t := by
  rw [closeEod]
  split
  · exact @isGridTrade_closeAll p (fun _ => (df.bar (df.length - 1)).close)
      (df.bar (df.length - 1)).time .eodClose nofun _ st h
  · exact h

theorem trades_fillLevels (bar : Bar) (center : ℚ) (levels : List ℕ) (st : GridState) :
    (levels.foldl (fillLevel p bar center) st).trades = st.trades := by
  induction levels generalizing st with
  | nil => rfl
  | cons level levels ih =>
    rw [List.foldl_cons, ih]
    rcases fillLevel_cases bar center st level with ⟨-, heq⟩ | ⟨-, heq⟩ <;> rw [heq]

theorem isGridTrade_gridBotBacktest (p : GridParams) (df : Frame) :
    ∀ t ∈ (gridBotBacktest p df).trades, IsGridTrade p t := by
  have hruns : ∀ t ∈ (runBars p df).trades, IsGridTrade p t := by
    refine List.foldlRecOn (motive := fun st => ∀ t ∈ GridState.trades st, IsGridTrade p t) _ _
      ?_ fun st h i _ => ?_
    · exact fun t ht => absurd ht List.not_mem_nil
    · rw [gridBar]
      cases rolling mean df.closes p.maPeriod i with
      | none => exact h
      | some center =>
        by_cases hcenter : center ≤ 0
        · simp only [if_pos hcenter]
          exact h
        · simp only [if_neg hcenter]
          refine isGridTrade_takeProfits _ ?_
          rw [trades_fillLevels]
          exact h
  exact isGridTrade_closeEod df hruns

theorem IsGridTrade.isOpen {t : TradeRow} (h : IsGridTrade p t) : t.isOpen = false := by
  obtain ⟨pos, price, time, reason, hreason, rfl⟩ := h
  exact decide_eq_false fun hopen => hreason (Option.some.inj hopen)

theorem closedRows_eq_self {trades : List TradeRow} (h : ∀ t ∈ trades, t.isOpen = false) :
    closedRows trades = trades :=
  List.filter_eq_self.mpr fun t ht => by rw [h t ht]; rfl

end

/-! ## Cash and final balance -/

theorem finalBalance_finishEngine {trades : List TradeRow} {cost : CostModel} {initial : ℚ}
    (h : ∀ t ∈ trades, t.isOpen = false) :
    (finishEngine trades cost initial).finalBalance = initial + (trades.map (netPnl cost)).sum ∧
      ((finishEngine trades cost initial).trades.map TradeRow.pnlUsdt).sum =
        (trades.map (netPnl cost)).sum := by
  have hpnl : (((applyCostModel trades cost).map TradeRow.withRMultiple).map
      TradeRow.pnlUsdt).sum = (trades.map (netPnl cost)).sum := by
    rw [List.map_map]
    exact sum_pnlUsdt_applyCostModel trades cost
  refine ⟨?_, hpnl⟩
  show initial + ((closedRows ((applyCostModel trades cost).map TradeRow.withRMultiple)).map
    TradeRow.pnlUsdt).sum = _
  rw [closedRows_map fun t => @isOpen_withRMultiple t, closedRows_applyCostModel,
    closedRows_eq_self h, hpnl]

/-- **Cash and final balance.**  If the prices are positive, the grid step is above -100 percent and
the amount of an order is not negative, then the cash of a run that closes its positions at the end
is the initial capital and the net profits of its trades, which is the final balance. -/
theorem gridBotBacktest_cash {df : Frame} {p : GridParams}
    (hdf : ∀ bar ∈ df, 0 < bar.low ∧ 0 < bar.close) (hp : p.Plain)
    (heod : p.closeOpenPositionsOnEod = true) :
    (gridBotBacktest p df).cash =
        p.initialCapitalUsdt + ((runGridBot p df).trades.map TradeRow.pnlUsdt).sum ∧
      (gridBotBacktest p df).cash = (runGridBot p df).finalBalance := by
  have hmem : ∀ i < df.length, df.bar i ∈ df := by
    intro i hi
    rw [Frame.bar, List.getD_eq_getElem?_getD, List.getElem?_eq_getElem hi]
    exact List.getElem_mem hi
  have hbalanced := balanced_runBars hp fun i hi => (hdf _ (hmem i hi)).1
  have hcash : (gridBotBacktest p df).cash =
      p.initialCapitalUsdt + (gridBotBacktest p df).netSum p.costModel := by
    rw [gridBotBacktest, closeEod, if_pos heod]
    have hbalance := hbalanced.potential
    rw [GridState.potential] at hbalance
    by_cases hnil : df = []
    · -- without bars there is nothing to close
      subst hnil
      have hruns : runBars p [] = { cash := p.initialCapitalUsdt } := by
        rw [runBars, List.length_nil, Nat.zero_sub, List.range'_zero, List.foldl_nil]
      rw [hruns]
      show p.initialCapitalUsdt = p.initialCapitalUsdt + (List.map _ []).sum
      rw [List.map_nil, List.sum_nil, add_zero]
    · have hlast := (hdf _ (hmem (df.length - 1)
        (Nat.sub_lt (List.length_pos_iff.mpr hnil) Nat.one_pos))).2
      have hfree := (free_closeAll hp (show RowExit.eodClose ≠ .openAtEnd by decide)
        (df.bar (df.length - 1)).time (fun _ => (df.bar (df.length - 1)).close)
        (runBars p df).positions (runBars p df)
        fun pos hpos => ⟨hbalanced.sound pos hpos, hlast⟩).1
      linear_combination hfree + hbalance
  have hfinal := @finalBalance_finishEngine (gridBotBacktest p df).trades p.costModel
    p.initialCapitalUsdt fun t ht => (isGridTrade_gridBotBacktest p df t ht).isOpen
  constructor
  · rw [hcash]
    exact congrArg _ hfinal.2.symm
  · rw [hcash]
    exact hfinal.1.symm

/-- A frame whose price falls on bar 4, and has the low and the close `last` on the last bar. -/
def fallFrame (last : ℚ) : Frame :=
  [⟨0, 100, 101, 100, 100, 1⟩, ⟨1, 100, 101, 100, 100, 1⟩, ⟨2, 100, 101, 100, 100, 1⟩,
    ⟨3, 100, 101, 100, 100, 1⟩, ⟨4, 98, 98, 90, 98, 1⟩, ⟨5, 98, 98, last, last, 1⟩]

/-- One level of the grid, one percent below the mean of two closes. -/
def oneLevel : GridParams where
  maPeriod := 2
  gridSpacingPct := 1
  gridsDown := 1

/-- A run whose positions are closed at the end. -/
theorem gridBotBacktest_cash_fall :
    (gridBotBacktest oneLevel (fallFrame 97)).cash =
        1000 + ((runGridBot oneLevel (fallFrame 97)).trades.map TradeRow.pnlUsdt).sum ∧
      (gridBotBacktest oneLevel (fallFrame 97)).cash =
        (runGridBot oneLevel (fallFrame 97)).finalBalance :=
  gridBotBacktest_cash (by decide +kernel)
    ⟨by decide +kernel, by decide +kernel, by decide +kernel, by decide +kernel⟩ rfl

/-- The two accounts differ if the last close is zero, if a take-profit lies at zero, and if an
order is for a negative amount. -/
theorem gridBotBacktest_cash_ne :
    (¬∀ (df : Frame) (p : GridParams), p.closeOpenPositionsOnEod = true →
      p.costs.slippagePct.getD 0 = 0 → p.costs.fundingPctPerBar.getD 0 = 0 →
      (gridBotBacktest p df).cash = (runGridBot p df).finalBalance) ∧
    (gridBotBacktest oneLevel (fallFrame 0)).cash ≠
      (runGridBot oneLevel (fallFrame 0)).finalBalance ∧
    (gridBotBacktest { oneLevel with gridSpacingPct := -100 } (fallFrame 97)).cash ≠
      (runGridBot { oneLevel with gridSpacingPct := -100 } (fallFrame 97)).finalBalance ∧
    (gridBotBacktest { oneLevel with orderSizeUsdt := some (-100) } (fallFrame 97)).cash ≠
      (runGridBot { oneLevel with orderSizeUsdt := some (-100) } (fallFrame 97)).finalBalance := by
  have hzero : (gridBotBacktest oneLevel (fallFrame 0)).cash ≠
      (runGridBot oneLevel (fallFrame 0)).finalBalance := by decide +kernel
  exact ⟨fun h => hzero (h _ _ rfl rfl rfl), hzero, by decide +kernel, by decide +kernel⟩

end Backtest

end AdviserConstructor
