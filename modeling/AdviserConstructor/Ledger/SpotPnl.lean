import AdviserConstructor.Exchange.Adapter
import AdviserConstructor.Ledger.FuturesPnl
import AdviserConstructor.Library.InsertionDict
import Mathlib.Data.List.Dedup
import Mathlib.Data.List.Infix
import Mathlib.Data.List.Pairwise

/-!
# Profit and loss of spot trades

`calculate_spot_pnl` of `app/services/execution/pnl.py` goes through the trades of one quote asset
in the order of their timestamps and matches the sells of an asset against its lots, oldest first.
The fee of a buy goes into the cost of its lot, that of a sell is taken off what it realizes.

* `Book.Balanced.addTrade`: a trade keeps, for every asset, the account in cash;
* `spotBook_balanced`: so do all trades in order, if nothing is sold that was not bought and all
  amounts are multiples of a step above the dust;
* `calculateSpotPnl_rows`: what the rows and the totals take from the book;
* `calculateSpotPnl_conserves`: the result is the account in cash, and the order in which trades of
  distinct timestamps come in does not matter.

Floats are rationals here, so that the sums are exact.
-/

namespace AdviserConstructor
namespace SpotPnl

open DecimalText LotQueue

/-! ## The trades -/

/-- `NormalizedTrade`, as far as the calculation reads it. -/
structure NormalizedTrade where
  symbol : String
  side : OrderSide
  amount : ℚ
  price : ℚ
  feeCost : ℚ := 0
  feeCurrency : Option String := none
  timestamp : Option ℚ := none
  deriving DecidableEq

/-- `NormalizedBalance`, as far as the calculation reads it. -/
structure NormalizedBalance where
  asset : String
  total : ℚ

/-- `_split_symbol`. -/
def splitSymbol (symbol : String) : Option (String × String) :=
  let text := symbol.toList
  if '/' ∈ text then
    let right := (text.dropWhile (· ≠ '/')).drop 1
    let base := uppered (String.ofList (strip (text.takeWhile (· ≠ '/'))))
    let quote := uppered (String.ofList (strip (right.takeWhile (· ≠ ':'))))
    if base = "" ∨ quote = "" then none else some (base, quote)
  else none

/-- `_trade_sort_key`. -/
def NormalizedTrade.sortKey (trade : NormalizedTrade) : ℚ := trade.timestamp.getD 0

/-- The trades in the order of their timestamps. -/
def sortedTrades (trades : List NormalizedTrade) : List NormalizedTrade :=
  trades.insertionSort fun a b => a.sortKey ≤ b.sortKey

/-- The asset whose book a trade is entered in; `none` if the loop goes on without it. -/
def NormalizedTrade.entered (quote : String) (trade : NormalizedTrade) : Option String :=
  match splitSymbol trade.symbol with
  | none => none
  | some (baseAsset, tradeQuote) =>
      if tradeQuote = quote ∧ 0 < trade.amount ∧ 0 < trade.price then some baseAsset else none

/-- What the fee of a trade costs in the quote asset. -/
def NormalizedTrade.feeQuote (quote baseAsset : String) (markPrices : String → Option ℚ)
    (trade : NormalizedTrade) : ℚ :=
  feeToQuote trade.feeCost trade.feeCurrency trade.price baseAsset quote markPrices

/-! ## The book -/

/-- `_Lot`: its cost with the fee is the entry price, the price of the fill is the clean one. -/
structure SpotLot extends Lot ℚ where
  entryPriceClean : ℚ
  deriving DecidableEq

/-- What a sell has realized before its fee, and the lots that are left. -/
structure Sold where
  gross : ℚ
  lots : List SpotLot

def sellLots (price : ℚ) : ℚ → List SpotLot → Sold
  | _, [] => ⟨0, []⟩
  | remainingToClose, lot :: lots =>
      if 0 < remainingToClose then
        let closedQty := min remainingToClose lot.qty
        if lot.qty - closedQty ≤ lotDust then
          let sold := sellLots price (remainingToClose - closedQty) lots
          { sold with gross := (price - lot.entryPrice) * closedQty + sold.gross }
        else
          -- a lot that is left over has used up the amount
          ⟨(price - lot.entryPrice) * closedQty, { lot with qty := lot.qty - closedQty } :: lots⟩
      else ⟨0, lot :: lots⟩

/-- The three dictionaries of the loop. -/
structure Book where
  lotsByAsset : InsertionDict String (List SpotLot) := .empty
  realizedByAsset : InsertionDict String ℚ := .empty
  feesByAsset : InsertionDict String ℚ := .empty

namespace Book

def lots (book : Book) (asset : String) : List SpotLot := book.lotsByAsset.getD asset []

def realized (book : Book) (asset : String) : ℚ := book.realizedByAsset.getD asset 0

def fees (book : Book) (asset : String) : ℚ := book.feesByAsset.getD asset 0

/-- One turn of the loop over the trades. -/
def addTrade (quote : String) (markPrices : String → Option ℚ) (book : Book)
    (trade : NormalizedTrade) : Book :=
  match trade.entered quote with
  | none => book
  | some baseAsset =>
      let lots := book.lots baseAsset
      let feeQuote := trade.feeQuote quote baseAsset markPrices
      let feesByAsset := book.feesByAsset.assign baseAsset (book.fees baseAsset + feeQuote)
      match trade.side with
      | .buy =>
          let effectiveCost := trade.price * trade.amount + feeQuote
          let lot : SpotLot := ⟨⟨trade.amount, effectiveCost / trade.amount⟩, trade.price⟩
          { lotsByAsset := book.lotsByAsset.assign baseAsset (lots ++ [lot])
            realizedByAsset := book.realizedByAsset
            feesByAsset }
      | .sell =>
          let sold := sellLots trade.price trade.amount lots
          { lotsByAsset := book.lotsByAsset.assign baseAsset sold.lots
            realizedByAsset := book.realizedByAsset.assign baseAsset
              (book.realized baseAsset + sold.gross - feeQuote)
            feesByAsset }

end Book

def spotBook (trades : List NormalizedTrade) (quote : String) (markPrices : String → Option ℚ) :
    Book :=
  (sortedTrades trades).foldl (Book.addTrade quote markPrices) {}

/-! ## The result -/

/-- `SpotPnlAsset`. -/
structure SpotPnlAsset where
  asset : String
  quantity : ℚ
  averageEntryPrice : Option ℚ
  markPrice : Option ℚ
  realizedPnlQuote : ℚ
  unrealizedPnlQuote : ℚ
  totalFeesQuote : ℚ
  deriving DecidableEq

/-- `balance_map`: the last balance of an asset counts. -/
def balanceMap (balances : List NormalizedBalance) : InsertionDict String ℚ :=
  balances.foldl (fun map item => map.assign (uppered item.asset) item.total) .empty

/-- The average of a price of the lots, weighted with their quantities. -/
def averageOf (price : SpotLot → ℚ) (lots : List SpotLot) : Option ℚ :=
  let lotQty := (lots.map fun lot => lot.qty).sum
  if lots ≠ [] ∧ 0 < lotQty then some ((lots.map fun lot => lot.qty * price lot).sum / lotQty)
  else none

def assetRow (balances : InsertionDict String ℚ) (markPrices : String → Option ℚ) (book : Book)
    (asset : String) : SpotPnlAsset :=
  let qty := max 0 (balances.getD asset 0)
  let costBasisEntry := averageOf (fun lot => lot.entryPrice) (book.lots asset)
  { asset
    quantity := qty
    averageEntryPrice := averageOf SpotLot.entryPriceClean (book.lots asset)
    markPrice := markPrices asset
    realizedPnlQuote := book.realized asset
    unrealizedPnlQuote :=
      match costBasisEntry, markPrices asset with
      | some entry, some markPrice =>
          if 0 < qty ∧ 0 < markPrice then (markPrice - entry) * qty else 0
      | _, _ => 0
    totalFeesQuote := book.fees asset }

def SpotPnlAsset.shown (row : SpotPnlAsset) : Bool :=
  0 < row.quantity ∨ row.realizedPnlQuote ≠ 0 ∨ row.totalFeesQuote ≠ 0

/-- The result: the rows, and the totals of realized and unrealized profit and of fees. -/
structure PnlResult where
  rows : List SpotPnlAsset
  realizedTotal : ℚ
  unrealizedTotal : ℚ
  feesTotal : ℚ
  deriving DecidableEq

/-- The assets of the result, in the order of their names. -/
def assetsOf (balances : InsertionDict String ℚ) (book : Book) : List String :=
  (balances.entries.map Prod.fst ++ book.lotsByAsset.entries.map Prod.fst ++
    book.realizedByAsset.entries.map Prod.fst).dedup.insertionSort fun a b => ¬ textBefore b a

/-- `calculate_spot_pnl`. -/
def calculateSpotPnl (trades : List NormalizedTrade) (balances : List NormalizedBalance)
    (quoteAsset : String) (markPrices : String → Option ℚ) : PnlResult :=
  let quote := uppered quoteAsset
  let book := spotBook trades quote markPrices
  let map := balanceMap balances
  let rows := (((assetsOf map book).filter (· ≠ quote)).map (assetRow map markPrices book)).filter
    SpotPnlAsset.shown
  { rows
    realizedTotal := (rows.map SpotPnlAsset.realizedPnlQuote).sum
    unrealizedTotal := (rows.map SpotPnlAsset.unrealizedPnlQuote).sum
    feesTotal := (rows.map SpotPnlAsset.totalFeesQuote).sum }

/-! ## The account in cash -/

/-- The trades that are entered for an asset. -/
def tradesOf (quote asset : String) (trades : List NormalizedTrade) : List NormalizedTrade :=
  trades.filter fun trade => trade.entered quote = some asset

/-- The amount of an asset traded on a side. -/
def amountOf (side : OrderSide) (quote asset : String) (trades : List NormalizedTrade) : ℚ :=
  ((tradesOf quote asset trades).map fun trade =>
    if trade.side = side then trade.amount else 0).sum

/-- The cash moved by the trades of an asset on a side. -/
def cashOf (side : OrderSide) (quote asset : String) (trades : List NormalizedTrade) : ℚ :=
  ((tradesOf quote asset trades).map fun trade =>
    if trade.side = side then trade.price * trade.amount else 0).sum

/-- The fees of the trades of an asset, each once. -/
def feesOf (quote asset : String) (markPrices : String → Option ℚ)
    (trades : List NormalizedTrade) : ℚ :=
  ((tradesOf quote asset trades).map (NormalizedTrade.feeQuote quote asset markPrices)).sum

section Account

variable {quote asset : String} {markPrices : String → Option ℚ} {trades : List NormalizedTrade}
  {trade : NormalizedTrade} {side : OrderSide} {book : Book}

theorem tradesOf_append_of_entered (h : trade.entered quote = some asset) :
    tradesOf quote asset (trades ++ [trade]) = tradesOf quote asset trades ++ [trade] := by
  rw [tradesOf, List.filter_append, List.filter_cons_of_pos (by simp [h])]
  rfl

theorem tradesOf_append_of_ne (h : trade.entered quote ≠ some asset) :
    tradesOf quote asset (trades ++ [trade]) = tradesOf quote asset trades := by
  rw [tradesOf, List.filter_append, List.filter_cons_of_neg (by simp [h]), List.filter_nil,
    List.append_nil]
  rfl

theorem sums_append_of_entered (h : trade.entered quote = some asset) :
    amountOf side quote asset (trades ++ [trade]) =
        amountOf side quote asset trades + (if trade.side = side then trade.amount else 0) ∧
      cashOf side quote asset (trades ++ [trade]) =
        cashOf side quote asset trades +
          (if trade.side = side then trade.price * trade.amount else 0) ∧
      feesOf quote asset markPrices (trades ++ [trade]) =
        feesOf quote asset markPrices trades + trade.feeQuote quote asset markPrices := by
  unfold amountOf cashOf feesOf
  rw [tradesOf_append_of_entered h]
  simp

theorem sums_append_of_ne (h : trade.entered quote ≠ some asset) :
    amountOf side quote asset (trades ++ [trade]) = amountOf side quote asset trades ∧
      cashOf side quote asset (trades ++ [trade]) = cashOf side quote asset trades ∧
      feesOf quote asset markPrices (trades ++ [trade]) = feesOf quote asset markPrices trades := by
  unfold amountOf cashOf feesOf
  rw [tradesOf_append_of_ne h]
  exact ⟨rfl, rfl, rfl⟩

theorem pos_of_entered (h : trade.entered quote = some asset) :
    0 < trade.amount ∧ 0 < trade.price := by
  unfold NormalizedTrade.entered at h
  split at h
  · cases h
  · split at h
    · exact ‹_ ∧ _›.2
    · cases h

/-! ## One trade -/

theorem sellLots_eq (price remaining : ℚ) (lots : List SpotLot) :
    (sellLots price remaining lots).gross =
        (closeLots lotDust (fun entry => price - entry) remaining (lots.map SpotLot.toLot)).gain ∧
      (sellLots price remaining lots).lots.map SpotLot.toLot =
        (closeLots lotDust (fun entry => price - entry) remaining
          (lots.map SpotLot.toLot)).lots := by
  induction lots generalizing remaining with
  | nil => exact ⟨rfl, rfl⟩
  | cons lot lots ih =>
    rw [List.map_cons]
    by_cases hmore : 0 < remaining
    · by_cases hleft : lot.qty - min remaining lot.qty ≤ lotDust
      · obtain ⟨hgross, hlots⟩ := ih (remaining - min remaining lot.qty)
        simp only [sellLots, closeLots, if_pos hmore, if_pos hleft, hgross, hlots, and_self]
      · simp only [sellLots, closeLots, if_pos hmore, if_neg hleft, List.map_cons, and_self]
    · simp only [sellLots, closeLots, if_neg hmore, List.map_cons, and_self]

theorem addTrade_of_ne (h : trade.entered quote ≠ some asset) :
    (book.addTrade quote markPrices trade).lots asset = book.lots asset ∧
      (book.addTrade quote markPrices trade).realized asset = book.realized asset ∧
      (book.addTrade quote markPrices trade).fees asset = book.fees asset := by
  unfold Book.addTrade
  cases hentered : trade.entered quote with
  | none => exact ⟨rfl, rfl, rfl⟩
  | some baseAsset =>
    have hne : asset ≠ baseAsset := by
      rintro rfl
      exact h hentered
    unfold Book.lots Book.realized Book.fees
    cases trade.side <;>
      simp only [InsertionDict.getD, InsertionDict.get?_assign_of_ne hne, and_self]

theorem addTrade_buy (h : trade.entered quote = some asset) (hside : trade.side = .buy) :
    (book.addTrade quote markPrices trade).lots asset = book.lots asset ++
        [⟨⟨trade.amount, (trade.price * trade.amount + trade.feeQuote quote asset markPrices) /
          trade.amount⟩, trade.price⟩] ∧
      (book.addTrade quote markPrices trade).realized asset = book.realized asset ∧
      (book.addTrade quote markPrices trade).fees asset =
        book.fees asset + trade.feeQuote quote asset markPrices := by
  simp only [Book.addTrade, h, hside]
  refine ⟨?_, rfl, ?_⟩
  · rw [Book.lots, InsertionDict.getD, InsertionDict.get?_assign_self]
    rfl
  · rw [Book.fees, InsertionDict.getD, InsertionDict.get?_assign_self]
    rfl

theorem addTrade_sell (h : trade.entered quote = some asset) (hside : trade.side = .sell) :
    (book.addTrade quote markPrices trade).lots asset =
        (sellLots trade.price trade.amount (book.lots asset)).lots ∧
      (book.addTrade quote markPrices trade).realized asset = book.realized asset +
        (sellLots trade.price trade.amount (book.lots asset)).gross -
        trade.feeQuote quote asset markPrices ∧
      (book.addTrade quote markPrices trade).fees asset =
        book.fees asset + trade.feeQuote quote asset markPrices := by
  simp only [Book.addTrade, h, hside]
  refine ⟨?_, ?_, ?_⟩
  · rw [Book.lots, InsertionDict.getD, InsertionDict.get?_assign_self]
    rfl
  · rw [Book.realized, InsertionDict.getD, InsertionDict.get?_assign_self]
    rfl
  · rw [Book.fees, InsertionDict.getD, InsertionDict.get?_assign_self]
    rfl

/-! ## The book keeps the account -/

/-- The book of an asset agrees with the account in cash of its trades, at every mark price. -/
structure Book.Balanced (quote : String) (markPrices : String → Option ℚ) (asset : String)
    (step : ℚ) (trades : List NormalizedTrade) (book : Book) : Prop where
  isLot : ∀ lot ∈ (book.lots asset).map SpotLot.toLot, IsLot step lot
  net : quantity ((book.lots asset).map SpotLot.toLot) =
    amountOf .buy quote asset trades - amountOf .sell quote asset trades
  fees : book.fees asset = feesOf quote asset markPrices trades
  cash : ∀ mark, book.realized asset +
      valued (fun entry => mark - entry) ((book.lots asset).map SpotLot.toLot) =
    cashOf .sell quote asset trades - cashOf .buy quote asset trades -
      feesOf quote asset markPrices trades +
      quantity ((book.lots asset).map SpotLot.toLot) * mark

variable {step : ℚ}

theorem Book.Balanced.addBuy (h : book.Balanced quote markPrices asset step trades)
    (hentered : trade.entered quote = some asset) (hside : trade.side = .buy)
    (hgrid : OnGrid step trade.amount) :
    (book.addTrade quote markPrices trade).Balanced quote markPrices asset step
      (trades ++ [trade]) := by
  obtain ⟨hamount, -⟩ := pos_of_entered hentered
  obtain ⟨hlots, hrealized, hfees⟩ := @addTrade_buy quote asset markPrices trade book hentered hside
  obtain ⟨hbuys, hpaid, hpaidFees⟩ :=
    @sums_append_of_entered quote asset markPrices trades trade .buy hentered
  obtain ⟨hsells, hearned, -⟩ :=
    @sums_append_of_entered quote asset markPrices trades trade .sell hentered
  rw [if_pos hside] at hbuys hpaid
  rw [if_neg (by rw [hside]; decide)] at hsells hearned
  have hnet := h.net
  refine ⟨?_, ?_, ?_, fun mark => ?_⟩
  · rw [hlots, List.map_append]
    intro lot hlot
    rcases List.mem_append.mp hlot with hold | hnew
    · exact h.isLot lot hold
    · rw [List.map_singleton, List.mem_singleton] at hnew
      rw [hnew]
      exact ⟨hgrid, hamount⟩
  · rw [hlots, List.map_append, quantity_append, hsells, List.map_singleton, quantity_cons,
      quantity_nil]
    linarith
  · rw [hfees, hpaidFees, h.fees]
  · have hbefore := h.cash mark
    rw [hlots, List.map_append, valued_append, quantity_append, hpaid, hearned, hpaidFees,
      List.map_singleton, valued_cons, valued_nil, quantity_cons, quantity_nil]
    have hcost : (mark - (trade.price * trade.amount + trade.feeQuote quote asset markPrices) /
        trade.amount) * trade.amount = mark * trade.amount - trade.price * trade.amount -
          trade.feeQuote quote asset markPrices := by
      rw [sub_mul, div_mul_cancel₀ _ hamount.ne']
      ring
    linarith

theorem closes_all (hstep : lotDust < step) {lots : List (Lot ℚ)} {gain : ℚ → ℚ} {qty : ℚ}
    (hclosed : Closes step gain qty lots (closeLots lotDust gain qty lots))
    (hcover : qty ≤ quantity lots) : (closeLots lotDust gain qty lots).remaining = 0 := by
  refine hclosed.ends.elim id fun hnone => ?_
  have hquantity := hclosed.quantity_eq
  rw [hnone, quantity_nil] at hquantity
  exact le_antisymm (by linarith) (hclosed.onGrid.nonneg (lotDust_pos.trans hstep))

theorem Book.Balanced.addSell (h : book.Balanced quote markPrices asset step trades)
    (hstep : lotDust < step) (hentered : trade.entered quote = some asset)
    (hside : trade.side = .sell) (hgrid : OnGrid step trade.amount)
    (hcover : amountOf .sell quote asset (trades ++ [trade]) ≤
      amountOf .buy quote asset (trades ++ [trade])) :
    (book.addTrade quote markPrices trade).Balanced quote markPrices asset step
      (trades ++ [trade]) := by
  obtain ⟨hlots, hrealized, hfees⟩ :=
    @addTrade_sell quote asset markPrices trade book hentered hside
  obtain ⟨hbuys, hpaid, hpaidFees⟩ :=
    @sums_append_of_entered quote asset markPrices trades trade .buy hentered
  obtain ⟨hsells, hearned, -⟩ :=
    @sums_append_of_entered quote asset markPrices trades trade .sell hentered
  rw [if_pos hside] at hsells hearned
  rw [if_neg (by rw [hside]; decide)] at hbuys hpaid
  obtain ⟨hgross, hleft⟩ := sellLots_eq trade.price trade.amount (book.lots asset)
  have hnet := h.net
  set lots := (book.lots asset).map SpotLot.toLot
  have hclosed :=
    closeLots_spec (fun entry => trade.price - entry) lotDust_pos.le hstep hgrid h.isLot
  have hall := closes_all hstep hclosed (by rw [hnet]; linarith)
  have hquantity := hclosed.quantity_eq
  have hgain := hclosed.gain_eq
  rw [hall, sub_zero] at hquantity
  refine ⟨?_, ?_, ?_, fun mark => ?_⟩
  · rw [hlots, hleft]
    exact hclosed.isLot
  · rw [hlots, hleft, hsells]
    linarith
  · rw [hfees, hpaidFees, h.fees]
  · -- at the mark price the lots weigh what they gain at the price of the sell, and a constant
    have hbefore := h.cash mark
    have hshift : (fun entry => mark - entry) =
        fun entry => (trade.price - entry) + (mark - trade.price) := by
      funext entry
      ring
    rw [hshift, valued_add_const] at hbefore
    rw [hlots, hrealized, hleft, hpaid, hearned, hpaidFees, hshift, valued_add_const]
    have hmoved : (mark - trade.price) * quantity lots = (mark - trade.price) *
        quantity (closeLots lotDust (fun entry => trade.price - entry) trade.amount lots).lots +
          (mark - trade.price) * trade.amount := by
      rw [hquantity, mul_add]
    have hheld : quantity lots * mark =
        quantity (closeLots lotDust (fun entry => trade.price - entry) trade.amount lots).lots *
          mark + trade.amount * mark := by
      rw [hquantity, add_mul]
    linarith

/-- **A trade keeps the account** of every asset. -/
theorem Book.Balanced.addTrade (h : book.Balanced quote markPrices asset step trades)
    (hstep : lotDust < step) (hgrid : trade.entered quote = some asset → OnGrid step trade.amount)
    (hcover : amountOf .sell quote asset (trades ++ [trade]) ≤
      amountOf .buy quote asset (trades ++ [trade])) :
    (book.addTrade quote markPrices trade).Balanced quote markPrices asset step
      (trades ++ [trade]) := by
  by_cases hentered : trade.entered quote = some asset
  · cases hside : trade.side with
    | buy => exact h.addBuy hentered hside (hgrid hentered)
    | sell => exact h.addSell hstep hentered hside (hgrid hentered) hcover
  · obtain ⟨hlots, hrealized, hfees⟩ := @addTrade_of_ne quote asset markPrices trade book hentered
    obtain ⟨hbuys, hpaid, hpaidFees⟩ :=
      @sums_append_of_ne quote asset markPrices trades trade .buy hentered
    obtain ⟨hsells, hearned, -⟩ :=
      @sums_append_of_ne quote asset markPrices trades trade .sell hentered
    refine ⟨?_, ?_, ?_, ?_⟩
    · rw [hlots]
      exact h.isLot
    · rw [hlots, hbuys, hsells]
      exact h.net
    · rw [hfees, hpaidFees]
      exact h.fees
    · rw [hlots, hrealized, hpaid, hearned, hpaidFees]
      exact h.cash

/-- **Trades in order keep the account** as long as nothing is sold that was not bought. -/
theorem foldl_addTrade_balanced (hstep : lotDust < step) (trades : List NormalizedTrade)
    (hgrid : ∀ trade ∈ trades, trade.entered quote = some asset → OnGrid step trade.amount)
    (hcover : ∀ first, first <+: trades →
      amountOf .sell quote asset first ≤ amountOf .buy quote asset first) :
    (trades.foldl (Book.addTrade quote markPrices) {}).Balanced quote markPrices asset step
      trades := by
  induction trades using List.reverseRecOn with
  | nil =>
    refine ⟨fun lot hlot => absurd hlot (List.not_mem_nil), ?_, ?_, fun mark => ?_⟩
    · simp [Book.lots, InsertionDict.getD, amountOf, tradesOf]
    · simp [Book.fees, InsertionDict.getD, feesOf, tradesOf]
    · simp [Book.realized, Book.lots, InsertionDict.getD, cashOf, feesOf, tradesOf]
  | append_singleton trades trade ih =>
    have hbefore := ih (fun t ht => hgrid t (List.mem_append_left _ ht))
      fun first hfirst => hcover first (hfirst.trans (List.prefix_append ..))
    rw [List.foldl_append]
    exact hbefore.addTrade hstep (hgrid trade (List.mem_append_right _ (List.mem_singleton_self _)))
      (hcover _ (List.prefix_refl _))

end Account

/-! ## The result is the account -/

theorem sums_perm {trades trades' : List NormalizedTrade} (h : trades.Perm trades')
    (side : OrderSide) (quote asset : String) (markPrices : String → Option ℚ) :
    cashOf side quote asset trades = cashOf side quote asset trades' ∧
      feesOf quote asset markPrices trades = feesOf quote asset markPrices trades' := by
  have htrades : (tradesOf quote asset trades).Perm (tradesOf quote asset trades') := h.filter _
  exact ⟨(htrades.map _).sum_eq, (htrades.map _).sum_eq⟩

theorem sortedTrades_eq_of_perm {trades trades' : List NormalizedTrade} (h : trades'.Perm trades)
    (hdistinct : trades.Pairwise fun a b => a.sortKey ≠ b.sortKey) :
    sortedTrades trades' = sortedTrades trades := by
  have hperm : (sortedTrades trades').Perm (sortedTrades trades) :=
    (List.perm_insertionSort _ _).trans (h.trans (List.perm_insertionSort _ _).symm)
  have hsorted : ∀ list : List NormalizedTrade,
      (sortedTrades list).Pairwise fun a b => a.sortKey ≤ b.sortKey := fun list =>
    haveI : Std.Total fun a b : NormalizedTrade => a.sortKey ≤ b.sortKey :=
      ⟨fun a b => le_total a.sortKey b.sortKey⟩
    haveI : IsTrans NormalizedTrade fun a b => a.sortKey ≤ b.sortKey :=
      ⟨fun _ _ _ hab hbc => hab.trans hbc⟩
    List.pairwise_insertionSort _ _
  refine hperm.eq_of_pairwise (fun a b ha hb hab hba => ?_) (hsorted trades') (hsorted trades)
  by_contra hne
  have ha' : a ∈ trades := h.mem_iff.mp ((List.perm_insertionSort _ _).mem_iff.mp ha)
  have hb' : b ∈ trades := (List.perm_insertionSort _ _).mem_iff.mp hb
  have : Std.Symm fun x y : NormalizedTrade => x.sortKey ≠ y.sortKey := ⟨fun _ _ hxy => hxy.symm⟩
  exact hdistinct.forall ha' hb' hne (le_antisymm hab hba)

theorem fees_eq_zero_of_not_mem {quote : String} {markPrices : String → Option ℚ}
    {trades : List NormalizedTrade} {asset : String}
    (h : asset ∉ (trades.foldl (Book.addTrade quote markPrices) {}).lotsByAsset.entries.map
      Prod.fst) :
    (trades.foldl (Book.addTrade quote markPrices) {}).fees asset = 0 := by
  induction trades using List.reverseRecOn with
  | nil => rfl
  | append_singleton trades trade ih =>
    rw [List.foldl_append] at h ⊢
    change asset ∉ ((Book.addTrade quote markPrices _ trade).lotsByAsset.entries.map Prod.fst) at h
    change (Book.addTrade quote markPrices _ trade).fees asset = 0
    generalize trades.foldl (Book.addTrade quote markPrices) {} = book at h ih ⊢
    rw [← InsertionDict.get?_eq_none_iff_not_mem] at h ih
    have hne : trade.entered quote ≠ some asset := by
      intro hentered
      cases hside : trade.side <;>
        simp [Book.addTrade, hentered, hside] at h
    rw [(addTrade_of_ne hne).2.2]
    refine ih ?_
    unfold Book.addTrade at h
    cases hentered : trade.entered quote with
    | none => rwa [hentered] at h
    | some baseAsset =>
      have hother : asset ≠ baseAsset := by
        rintro rfl
        exact hne hentered
      cases hside : trade.side <;>
        simpa only [hentered, hside, InsertionDict.get?_assign_of_ne hother] using h

/-- What the result takes from the book: each asset has at most one row, which reports what the book
has for it; an asset other than the quote that has no row has nothing to report. -/
structure ReportsBook (quote : String) (book : Book) (pnl : PnlResult) : Prop where
  nodup : (pnl.rows.map SpotPnlAsset.asset).Nodup
  rows : ∀ row ∈ pnl.rows,
    row.realizedPnlQuote = book.realized row.asset ∧ row.totalFeesQuote = book.fees row.asset
  unlisted : ∀ asset ≠ quote, asset ∉ pnl.rows.map SpotPnlAsset.asset →
    book.realized asset = 0 ∧ book.fees asset = 0
  totals : pnl.realizedTotal = (pnl.rows.map SpotPnlAsset.realizedPnlQuote).sum ∧
    pnl.feesTotal = (pnl.rows.map SpotPnlAsset.totalFeesQuote).sum

/-- **The rows report the book.** -/
theorem calculateSpotPnl_rows (trades : List NormalizedTrade) (balances : List NormalizedBalance)
    (quoteAsset : String) (markPrices : String → Option ℚ) :
    ReportsBook (uppered quoteAsset) (spotBook trades (uppered quoteAsset) markPrices)
      (calculateSpotPnl trades balances quoteAsset markPrices) := by
  have hassets : (assetsOf (balanceMap balances)
      (spotBook trades (uppered quoteAsset) markPrices)).Nodup :=
    (List.perm_insertionSort _ _).nodup_iff.mpr (List.nodup_dedup _)
  refine ⟨?_, fun row hrow => ?_, fun asset hne hunlisted => ?_, rfl, rfl⟩
  · -- every asset gives its own row
    refine List.Nodup.sublist (List.Sublist.map _ List.filter_sublist) ?_
    rw [List.map_map]
    change ((List.filter _ _).map id).Nodup
    rw [List.map_id]
    exact hassets.sublist List.filter_sublist
  · obtain ⟨asset, -, rfl⟩ := List.mem_map.mp (List.mem_filter.mp hrow).1
    exact ⟨rfl, rfl⟩
  · by_cases hlisted : asset ∈ assetsOf (balanceMap balances)
        (spotBook trades (uppered quoteAsset) markPrices)
    · -- a row that is not shown has neither profit nor fees
      by_contra hshown
      refine hunlisted (List.mem_map.mpr ⟨assetRow (balanceMap balances) markPrices
        (spotBook trades (uppered quoteAsset) markPrices) asset, List.mem_filter.mpr
          ⟨List.mem_map.mpr ⟨asset, List.mem_filter.mpr ⟨hlisted, by simpa using hne⟩, rfl⟩, ?_⟩,
        rfl⟩)
      rw [SpotPnlAsset.shown, decide_eq_true_eq]
      by_contra hnone
      rw [not_or, not_or, not_not, not_not] at hnone
      exact hshown hnone.2
    · rw [assetsOf, List.mem_insertionSort, List.mem_dedup, List.mem_append, List.mem_append,
        not_or, not_or] at hlisted
      refine ⟨?_, fees_eq_zero_of_not_mem hlisted.1.2⟩
      rw [Book.realized, InsertionDict.getD, InsertionDict.get?_eq_none_iff_not_mem.mpr hlisted.2]
      rfl

/-- The account in cash: what is realized, and what the lots that are left are worth beyond their
cost, is what the sells brought in less what the buys and the fees cost, and what is left of the
asset at the mark price; and the fees are those of the trades, each once. -/
def Accounts (quote : String) (markPrices : String → Option ℚ) (trades : List NormalizedTrade)
    (book : Book) : Prop :=
  ∀ asset,
    (∀ mark, book.realized asset +
        ((book.lots asset).map fun lot => lot.qty * (mark - lot.entryPrice)).sum =
      cashOf .sell quote asset trades - cashOf .buy quote asset trades -
        feesOf quote asset markPrices trades +
        ((book.lots asset).map fun lot => lot.qty).sum * mark) ∧
    book.fees asset = feesOf quote asset markPrices trades

/-- No asset is ever sold beyond what was bought. -/
def CoveredSells (quote : String) (trades : List NormalizedTrade) : Prop :=
  ∀ first, first <+: sortedTrades trades →
    ∀ asset, amountOf .sell quote asset first ≤ amountOf .buy quote asset first

/-- **The result conserves cash**, if the amounts of the trades of an asset are multiples of a step
above the dust and nothing is sold that was not bought; and trades of distinct timestamps give the
same result in whatever order they come. -/
theorem calculateSpotPnl_conserves (trades : List NormalizedTrade)
    (balances : List NormalizedBalance) (quoteAsset : String) (markPrices : String → Option ℚ)
    (step : String → ℚ) (hstep : ∀ asset, lotDust < step asset)
    (hgrid : ∀ trade ∈ trades, ∀ asset, trade.entered (uppered quoteAsset) = some asset →
      OnGrid (step asset) trade.amount)
    (hcover : CoveredSells (uppered quoteAsset) trades) :
    Accounts (uppered quoteAsset) markPrices trades
        (spotBook trades (uppered quoteAsset) markPrices) ∧
      ReportsBook (uppered quoteAsset) (spotBook trades (uppered quoteAsset) markPrices)
        (calculateSpotPnl trades balances quoteAsset markPrices) ∧
      ((trades.Pairwise fun a b => a.sortKey ≠ b.sortKey) → ∀ trades', trades'.Perm trades →
        calculateSpotPnl trades' balances quoteAsset markPrices =
          calculateSpotPnl trades balances quoteAsset markPrices) := by
  refine ⟨fun asset => ?_, calculateSpotPnl_rows trades balances quoteAsset markPrices,
    fun hdistinct trades' hperm => ?_⟩
  · have hsort : (sortedTrades trades).Perm trades := List.perm_insertionSort _ _
    have hbalanced : (spotBook trades (uppered quoteAsset) markPrices).Balanced
        (uppered quoteAsset) markPrices asset (step asset) (sortedTrades trades) :=
      foldl_addTrade_balanced (hstep asset) (sortedTrades trades)
        (fun trade htrade => hgrid trade (hsort.mem_iff.mp htrade) asset)
        fun first hfirst => hcover first hfirst asset
    obtain ⟨hsells, hfees⟩ := sums_perm hsort .sell (uppered quoteAsset) asset markPrices
    obtain ⟨hbuys, -⟩ := sums_perm hsort .buy (uppered quoteAsset) asset markPrices
    refine ⟨fun mark => ?_, hfees ▸ hbalanced.fees⟩
    have hcash := hbalanced.cash mark
    rw [hsells, hbuys, hfees, valued, quantity, List.map_map, List.map_map] at hcash
    have hcomm : ((spotBook trades (uppered quoteAsset) markPrices).lots asset).map
        (fun lot => lot.qty * (mark - lot.entryPrice)) =
          ((spotBook trades (uppered quoteAsset) markPrices).lots asset).map
            ((fun lot : Lot ℚ => (mark - lot.entryPrice) * lot.qty) ∘ SpotLot.toLot) :=
      List.map_congr_left fun lot _ => mul_comm ..
    rw [hcomm]
    exact hcash
  · unfold calculateSpotPnl spotBook
    rw [sortedTrades_eq_of_perm hperm hdistinct]

/-! ## Particular trades -/

theorem coveredSells_of_inits {quote : String} {trades : List NormalizedTrade}
    (h : ∀ first ∈ (sortedTrades trades).inits,
      ∀ asset ∈ trades.filterMap (NormalizedTrade.entered quote),
        amountOf .sell quote asset first ≤ amountOf .buy quote asset first) :
    CoveredSells quote trades := by
  intro first hfirst asset
  by_cases htraded : asset ∈ trades.filterMap (NormalizedTrade.entered quote)
  · exact h first ((List.mem_inits ..).mpr hfirst) asset htraded
  · have hnone : tradesOf quote asset first = [] := by
      refine List.filter_eq_nil_iff.mpr fun trade htrade hentered => htraded ?_
      rw [decide_eq_true_eq] at hentered
      exact List.mem_filterMap.mpr ⟨trade, (List.perm_insertionSort _ _).mem_iff.mp
        (hfirst.subset htrade), hentered⟩
    rw [amountOf, amountOf, hnone]
    exact le_rfl

/-- A buy and a sell of a part of it, both with a fee, in the wrong order. -/
def partSale : List NormalizedTrade :=
  [{ symbol := "BTC/USDT", side := .sell, amount := 1, price := 120, feeCost := 1,
     feeCurrency := some "usdt", timestamp := some 2 },
   { symbol := "btc/usdt", side := .buy, amount := 2, price := 100, feeCost := 1,
     feeCurrency := some "BTC", timestamp := some 1 }]

theorem calculateSpotPnl_partSale :
    Accounts "USDT" (fun _ => none) partSale (spotBook partSale "USDT" fun _ => none) ∧
      ReportsBook "USDT" (spotBook partSale "USDT" fun _ => none)
        (calculateSpotPnl partSale [⟨"btc", 1⟩] "usdt" fun _ => none) ∧
      ((partSale.Pairwise fun a b => a.sortKey ≠ b.sortKey) → ∀ trades', trades'.Perm partSale →
        calculateSpotPnl trades' [⟨"btc", 1⟩] "usdt" (fun _ => none) =
          calculateSpotPnl partSale [⟨"btc", 1⟩] "usdt" fun _ => none) := by
  refine calculateSpotPnl_conserves partSale [⟨"btc", 1⟩] "usdt" (fun _ => none) (fun _ => 1)
    (fun _ => by norm_num [lotDust]) (fun trade htrade asset _ => ?_)
    (coveredSells_of_inits (by decide +kernel))
  rcases List.mem_cons.mp htrade with rfl | hlast
  · exact ⟨1, by norm_num⟩
  · rw [List.mem_singleton.mp hlast]
    exact ⟨2, by norm_num⟩

/-- A buy that is off the step of the sell by less than the dust. -/
def offGridBuy : List NormalizedTrade :=
  [{ symbol := "BTC/USDT", side := .buy, amount := 1 + 1 / 2000000000000, price := 100,
     timestamp := some 1 },
   { symbol := "BTC/USDT", side := .sell, amount := 1, price := 110, timestamp := some 2 }]

/-- What the buy has beyond the step is given up with its lot, so that its cost is never accounted
for, although the sold amount is a multiple of the step and covered. -/
theorem not_accounts_offGridBuy :
    (∀ trade ∈ offGridBuy, trade.entered "USDT" = some "BTC" ∧
        (trade.side = .sell → OnGrid 1 trade.amount)) ∧
      lotDust < 1 ∧ CoveredSells "USDT" offGridBuy ∧
      (offGridBuy.Pairwise fun a b => a.sortKey ≠ b.sortKey) ∧
      ¬ Accounts "USDT" (fun _ => none) offGridBuy (spotBook offGridBuy "USDT" fun _ => none) := by
  refine ⟨fun trade htrade => ?_, by norm_num [lotDust], coveredSells_of_inits (by decide +kernel),
    by decide +kernel, fun haccounts => ?_⟩
  · rcases List.mem_cons.mp htrade with rfl | hlast
    · exact ⟨by decide +kernel, fun hsell => absurd hsell (by decide)⟩
    · rw [List.mem_singleton.mp hlast]
      exact ⟨by decide +kernel, fun _ => ⟨1, by norm_num⟩⟩
  · have hcash := (haccounts "BTC").1 0
    revert hcash
    decide +kernel

end SpotPnl
end AdviserConstructor
