import AdviserConstructor.AutoTrade.PositionRow
import AdviserConstructor.Ledger.FuturesPnl
import AdviserConstructor.Library.Grouping

/-!
# The ledgers of an account, and its net

The columns of `exchange_trade_ledger`, `exchange_income_ledger` and `auto_trade_positions` that the
aggregations read, the funding of a symbol (`sum_funding` of
`app/services/auto_trade/income_sync.py`), and the net that several of them compute in the same way:
the fills are grouped by symbol, every group goes to `compute_realized_breakdown` with the funding
of its symbol, and the nets are added up.

* `netRealized_eq`: the net of a symbol, in four parts.  What the exchange has booked for a tagged
  fill is taken as it is and its fee is taken off; an untagged fill goes through the lots with its
  fee.
* `netBySymbol_eq`: the same for the grouped net.
-/

namespace AdviserConstructor

open DecimalText Grouping

/-! ## The tables -/

/-- A row of `exchange_trade_ledger`, with the columns that say whose fill it is. -/
structure LedgerFill extends FillRow where
  accountId : ℕ
  symbol : String
  autoTradeConfigId : Option ℕ := none
  autoTradePositionId : Option ℕ := none
  deriving DecidableEq

/-- A row of `exchange_income_ledger`. -/
structure IncomeRow where
  accountId : ℕ
  symbol : String
  incomeType : String
  income : ℚ
  incomeAt : ℚ
  deriving DecidableEq

/-- A row of `auto_trade_positions`, with the columns that say what it has earned. -/
structure PositionRecord where
  id : ℕ
  configId : ℕ
  accountId : ℕ
  symbol : String
  side : PositionSide
  status : RowStatus
  entryPrice : ℚ
  slPrice : ℚ
  quantity : ℚ
  closePrice : Option ℚ
  openedAt : ℚ
  closedAt : Option ℚ
  closeReason : Option String := none
  deriving DecidableEq

/-- What has been executed: both ledgers and the positions. -/
structure PnlHistory where
  fills : List LedgerFill := []
  incomes : List IncomeRow := []
  positions : List PositionRecord := []

/-- The comparison `traded_at >= start` of a query. -/
def LedgerFill.tradedSince (start : ℚ) (fill : LedgerFill) : Bool :=
  fill.tradedAt.any fun tradedAt => start ≤ tradedAt

/-- The comparison `closed_at >= start` of a query. -/
def PositionRecord.closedSince (start : ℚ) (position : PositionRecord) : Bool :=
  position.closedAt.any fun closedAt => start ≤ closedAt

/-- `order_by(ExchangeTradeLedger.traded_at)`. -/
def orderedByTime (fills : List LedgerFill) : List LedgerFill :=
  fills.insertionSort fun fill fill' => fill.tradedAt.getD 0 ≤ fill'.tradedAt.getD 0

/-- The row counts for `sum_funding`. -/
def IncomeRow.isFunding (accountId : ℕ) (symbol : String) (start stop : Option ℚ)
    (row : IncomeRow) : Bool :=
  row.accountId = accountId && row.symbol = symbol && row.incomeType = "FUNDING_FEE" &&
    start.all (· ≤ row.incomeAt) && stop.all (row.incomeAt < ·)

/-- `sum_funding`. -/
def sumFunding (incomes : List IncomeRow) (accountId : ℕ) (symbol : String)
    (start stop : Option ℚ) : ℚ :=
  ((incomes.filter (IncomeRow.isFunding accountId symbol start stop)).map IncomeRow.income).sum

/-! ## The net of a symbol -/

/-- `compute_realized_breakdown(symbol, trades, funding).net_realized`. -/
def netRealized (symbol : String) (fills : List LedgerFill) (funding : ℚ) : ℚ :=
  (computeRealizedBreakdown symbol (fills.map LedgerFill.toFillRow) funding none
    fun _ => none).netRealized

def taggedPnl (fills : List LedgerFill) : ℚ := (fills.filterMap (·.realizedPnl)).sum

/-- The fees of the fills that the exchange has booked a figure for, as the pair of the symbol
values them. -/
def taggedFees (symbol : String) (fills : List LedgerFill) : ℚ :=
  ((fills.filter (·.realizedPnl.isSome)).map fun fill =>
    rowCommission (splitSymbol symbol).1 (splitSymbol symbol).2 (fun _ => none)
      fill.toFillRow).sum

/-- What the lots of the other fills have realized, their fees taken off. -/
def lotsRealized (symbol : String) (fills : List LedgerFill) : ℚ :=
  (fifoPass (splitSymbol symbol).1 (splitSymbol symbol).2
    (((fills.map LedgerFill.toFillRow).insertionSort FillRow.sortsBefore).filter
      (·.realizedPnl.isNone))).realized

theorem sum_commission_split (commission : FillRow → ℚ) (rows : List FillRow) :
    (rows.map commission).sum =
      ((rows.filter (·.realizedPnl.isSome)).map commission).sum +
        ((rows.filter (·.realizedPnl.isNone)).map commission).sum := by
  induction rows with
  | nil => simp
  | cons row rows ih =>
    rw [List.map_cons, List.sum_cons, ih]
    cases htagged : row.realizedPnl with
    | none =>
      rw [List.filter_cons_of_neg (by simp [htagged]), List.filter_cons_of_pos (by simp [htagged]),
        List.map_cons, List.sum_cons]
      ring
    | some value =>
      rw [List.filter_cons_of_pos (by simp [htagged]), List.filter_cons_of_neg (by simp [htagged]),
        List.map_cons, List.sum_cons]
      ring

/-- **The net of a symbol**, in four parts. -/
theorem netRealized_eq (symbol : String) (fills : List LedgerFill) (funding : ℚ) :
    netRealized symbol fills funding =
      taggedPnl fills + lotsRealized symbol fills - taggedFees symbol fills + funding := by
  have hperm := List.perm_insertionSort FillRow.sortsBefore (fills.map LedgerFill.toFillRow)
  have htagged : taggedPnl fills = (((fills.map LedgerFill.toFillRow).insertionSort
      FillRow.sortsBefore).filterMap FillRow.realizedPnl).sum := by
    rw [(hperm.filterMap _).sum_eq, List.filterMap_map]
    rfl
  have hfees : taggedFees symbol fills = (((((fills.map LedgerFill.toFillRow).insertionSort
      FillRow.sortsBefore).filter (·.realizedPnl.isSome)).map
        (rowCommission (splitSymbol symbol).1 (splitSymbol symbol).2 fun _ => none)).sum) := by
    rw [((hperm.filter _).map _).sum_eq, List.filter_map, List.map_map]
    rfl
  rw [netRealized, RealizedBreakdown.netRealized, computeRealizedBreakdown, breakdownInOrder,
    htagged, hfees, lotsRealized]
  generalize (fills.map LedgerFill.toFillRow).insertionSort FillRow.sortsBefore = rows
  have hsplit := sum_commission_split
    (rowCommission (splitSymbol symbol).1 (splitSymbol symbol).2 fun _ => none) rows
  dsimp only
  by_cases hnone : rows.filterMap FillRow.realizedPnl = []
  · -- nothing is tagged, so the pass over all fills is that of the untagged ones
    have hall : ∀ row ∈ rows, row.realizedPnl = none := List.filterMap_eq_nil_iff.mp hnone
    have huntagged : rows.filter (·.realizedPnl.isNone) = rows :=
      List.filter_eq_self.mpr fun row hrow => by rw [hall row hrow]; rfl
    have hsome : rows.filter (·.realizedPnl.isSome) = [] :=
      List.filter_eq_nil_iff.mpr fun row hrow => by rw [hall row hrow]; simp
    rw [huntagged, hsome, hnone]
    simp
  · rw [if_neg hnone]
    by_cases huntagged : rows.filter (·.realizedPnl.isNone) = []
    · rw [huntagged, hsplit, huntagged]
      have hempty : (fifoPass (splitSymbol symbol).1 (splitSymbol symbol).2 []).realized = 0 := rfl
      rw [hempty]
      simp
    · rw [if_neg huntagged, hsplit]
      ring

/-! ## The net of an account -/

def bySymbol (fills : List LedgerFill) : List (String × List LedgerFill) :=
  (groups LedgerFill.symbol fills).entries

/-- The grouped net: every symbol with its own fills and its own funding. -/
def netBySymbol (funding : String → List LedgerFill → ℚ) (fills : List LedgerFill) : ℚ :=
  ((bySymbol fills).map fun group =>
    netRealized group.1 group.2 (funding group.1 group.2)).sum

/-- The funding of a symbol, on the account of its first fill. -/
def fundingOf (incomes : List IncomeRow) (start : Option ℚ) (symbol : String)
    (fills : List LedgerFill) : ℚ :=
  match fills with
  | [] => 0
  | first :: _ => sumFunding incomes first.accountId symbol start none

theorem sum_taggedPnl (fills : List LedgerFill) :
    ((bySymbol fills).map fun group => taggedPnl group.2).sum = taggedPnl fills := by
  have hsum : ∀ fills : List LedgerFill,
      taggedPnl fills = (fills.map fun fill => fill.realizedPnl.getD 0).sum := by
    intro fills
    induction fills with
    | nil => rfl
    | cons fill fills ih =>
      rw [taggedPnl] at ih ⊢
      rw [List.map_cons, List.sum_cons, ← ih]
      cases hfill : fill.realizedPnl with
      | none => simp [hfill]
      | some value => simp [hfill]
  rw [hsum fills, ← sum_groups LedgerFill.symbol]
  exact congrArg List.sum (List.map_congr_left fun group _ => hsum group.2)

/-- **The grouped net**, in four parts. -/
theorem netBySymbol_eq (funding : String → List LedgerFill → ℚ) (fills : List LedgerFill) :
    netBySymbol funding fills =
      taggedPnl fills + ((bySymbol fills).map fun group => lotsRealized group.1 group.2).sum -
          ((bySymbol fills).map fun group => taggedFees group.1 group.2).sum +
        ((bySymbol fills).map fun group => funding group.1 group.2).sum := by
  have hgroups : netBySymbol funding fills =
      ((bySymbol fills).map fun group => taggedPnl group.2 + lotsRealized group.1 group.2 -
        taggedFees group.1 group.2 + funding group.1 group.2).sum :=
    congrArg List.sum (List.map_congr_left fun group _ => netRealized_eq _ _ _)
  rw [hgroups, ← sum_taggedPnl]
  induction bySymbol fills with
  | nil => simp
  | cons group rest ih =>
    simp only [List.map_cons, List.sum_cons, ih]
    ring

end AdviserConstructor
