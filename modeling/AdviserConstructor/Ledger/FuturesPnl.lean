import AdviserConstructor.Library.LotQueue
import AdviserConstructor.Library.DecimalText
import Mathlib.Data.List.Induction
import Mathlib.Data.List.Sort

/-!
# Realized profit and loss from the fills of a futures symbol

`fifoPass` reads the fills in order and matches every fill against the open lots of the other side,
oldest first.  `computeRealizedBreakdown` is the single engine of the trade views and of the
per-position snapshots: it takes the exchange's own figure where a fill carries one and the pass
where none does.

The independent account of the same fills is in cash: what a sell brings in, what a buy costs, and
what the fees take.  Nothing of the pass enters it.

* `fifoPass_balanced`: the pass keeps the cash account, fill by fill, whatever the fees are paid in;
* `fifoPass_conserves_cash`: the same for fees in the quote or the base currency, with the fees
  valued as the trader pays them.

Floats are rationals here, so that the sums are exact.
-/

namespace AdviserConstructor

open DecimalText LotQueue

/-! ## The rows -/

/-- A row of the trade ledger, as the engine reads it. -/
structure FillRow where
  id : String
  tradedAt : Option ℚ
  side : String
  amount : ℚ
  price : ℚ
  feeCost : ℚ
  feeCurrency : Option String
  realizedPnl : Option ℚ
  deriving DecidableEq, Repr

/-- `_split_symbol`. -/
def splitSymbol (symbol : String) : String × String :=
  let text := symbol.toList
  if '/' ∈ text then
    let quoteRaw := (text.dropWhile (· ≠ '/')).drop 1
    let clean := fun part : List Char => String.ofList ((strip part).map Char.toUpper)
    let base := clean (text.takeWhile (· ≠ '/'))
    let quote := clean (quoteRaw.takeWhile (· ≠ ':'))
    (if base = "" then "UNKNOWN" else base, if quote = "" then "USDT" else quote)
  else ("UNKNOWN", "USDT")

example : splitSymbol "btc/usdt:usdt" = ("BTC", "USDT") := by decide +kernel

/-- `_fee_to_quote`; a mark price that is not given is `none`. -/
def feeToQuote (feeCost : ℚ) (feeCurrency : Option String) (price : ℚ) (base quote : String)
    (markPrices : String → Option ℚ := fun _ => none) : ℚ :=
  match feeCurrency with
  | none => 0
  | some currency =>
      if feeCost ≤ 0 ∨ currency = "" then 0
      else if uppered currency = quote then feeCost
      else if uppered currency = base then if 0 < price then feeCost * price else 0
      else
        match markPrices (uppered currency) with
        | some mark => if 0 < mark then feeCost * mark else 0
        | none => 0

/-- `_row_commission`. -/
def rowCommission (base quote : String) (markPrices : String → Option ℚ) (row : FillRow) : ℚ :=
  feeToQuote (max 0 row.feeCost) row.feeCurrency (max 0 row.price) base quote markPrices

/-! ## The pass -/

/-- The variables of the loop of `_fifo_pass`. -/
structure FifoPass where
  realized : ℚ := 0
  longLots : List (Lot ℚ) := []
  shortLots : List (Lot ℚ) := []
  lastPrice : ℚ := 0
  deriving DecidableEq

/-- A lot of at most this quantity is given up. -/
def lotDust : ℚ := 1 / 10 ^ 12

/-- One turn of the loop of `_fifo_pass`. -/
def FifoPass.addFill (base quote : String) (pass : FifoPass) (row : FillRow) : FifoPass :=
  let side := lowered row.side
  let qty := max 0 row.amount
  let price := max 0 row.price
  if qty ≤ 0 ∨ price ≤ 0 ∨ (side ≠ "buy" ∧ side ≠ "sell") then pass
  else
    let realized := pass.realized -
      feeToQuote (max 0 row.feeCost) row.feeCurrency price base quote
    if side = "buy" then
      let closed := closeLots lotDust (fun entryPrice => entryPrice - price) qty pass.shortLots
      { realized := realized + closed.gain
        longLots := openLot closed.remaining price pass.longLots
        shortLots := closed.lots
        lastPrice := price }
    else
      let closed := closeLots lotDust (fun entryPrice => price - entryPrice) qty pass.longLots
      { realized := realized + closed.gain
        longLots := closed.lots
        shortLots := openLot closed.remaining price pass.shortLots
        lastPrice := price }

/-- `_fifo_pass`. -/
def fifoPass (base quote : String) (rows : List FillRow) : FifoPass :=
  rows.foldl (FifoPass.addFill base quote) {}

/-! ## The account in cash -/

/-- A fill on the step grid, at a price, on one of the two sides. -/
structure IsFill (step : ℚ) (row : FillRow) : Prop where
  amount_onGrid : OnGrid step row.amount
  amount_pos : 0 < row.amount
  price_pos : 0 < row.price
  side : lowered row.side = "buy" ∨ lowered row.side = "sell"

/-- The fee is in the quote or in the base currency, if there is one. -/
def FeeInPair (base quote : String) (row : FillRow) : Prop :=
  row.feeCost ≤ 0 ∨ ∃ currency, row.feeCurrency = some currency ∧ currency ≠ "" ∧
    (uppered currency = quote ∨ uppered currency = base)

def buys (rows : List FillRow) : ℚ :=
  (rows.map fun row => if lowered row.side = "buy" then row.amount else 0).sum

def sells (rows : List FillRow) : ℚ :=
  (rows.map fun row => if lowered row.side = "sell" then row.amount else 0).sum

def FillRow.cashFlow (row : FillRow) : ℚ :=
  if lowered row.side = "sell" then row.price * row.amount else -(row.price * row.amount)

def cashFlow (rows : List FillRow) : ℚ := (rows.map FillRow.cashFlow).sum

/-- What a fill's fee costs in the quote currency. -/
def FillRow.feePaid (quote : String) (row : FillRow) : ℚ :=
  max 0 row.feeCost * (if row.feeCurrency.map uppered = some quote then 1 else row.price)

def feesPaid (quote : String) (rows : List FillRow) : ℚ :=
  (rows.map (FillRow.feePaid quote)).sum

/-- The fees as the pass values them. -/
def commissions (base quote : String) (rows : List FillRow) : ℚ :=
  (rows.map (rowCommission base quote fun _ => none)).sum

theorem rowCommission_eq_feePaid {base quote : String} {row : FillRow} (hprice : 0 < row.price)
    (hfee : FeeInPair base quote row) :
    rowCommission base quote (fun _ => none) row = row.feePaid quote := by
  have hpriceMax : max 0 row.price = row.price := max_eq_right hprice.le
  rcases hfee with hnone | ⟨currency, hcurrency, hnamed, hpair⟩
  · have hzero : max 0 row.feeCost = 0 := max_eq_left hnone
    rw [rowCommission, FillRow.feePaid, hzero]
    cases row.feeCurrency <;> simp [feeToQuote]
  · rw [rowCommission, FillRow.feePaid, hpriceMax, hcurrency, feeToQuote]
    simp only [Option.map_some, Option.some.injEq]
    by_cases hcost : max 0 row.feeCost ≤ 0
    · have hzero : max 0 row.feeCost = 0 := le_antisymm hcost (le_max_left _ _)
      rw [if_pos (Or.inl hcost), hzero, zero_mul]
    · rw [if_neg (by simp only [hcost, hnamed, or_self, not_false_eq_true])]
      by_cases hquote : uppered currency = quote
      · rw [if_pos hquote, if_pos hquote, mul_one]
      · rw [if_neg hquote, if_neg hquote, if_pos (hpair.resolve_left hquote), if_pos hprice]

/-! ## The pass keeps the account -/

/-- The state of the pass after some fills agrees with their account in cash, at a mark price. -/
structure Balanced (base quote : String) (step mark : ℚ) (rows : List FillRow)
    (pass : FifoPass) : Prop where
  longLots_isLot : ∀ lot ∈ pass.longLots, IsLot step lot
  shortLots_isLot : ∀ lot ∈ pass.shortLots, IsLot step lot
  one_side : pass.longLots = [] ∨ pass.shortLots = []
  net : quantity pass.longLots - quantity pass.shortLots = buys rows - sells rows
  cash : pass.realized + valued (fun entryPrice => mark - entryPrice) pass.longLots +
      valued (fun entryPrice => entryPrice - mark) pass.shortLots =
    cashFlow rows + (buys rows - sells rows) * mark - commissions base quote rows

section Balanced

variable {base quote : String} {step mark : ℚ} {rows : List FillRow} {row : FillRow}
  {pass : FifoPass}

theorem lotDust_pos : 0 < lotDust := by
  unfold lotDust
  positivity

theorem sums_append (base quote : String) (rows : List FillRow) (row : FillRow) :
    buys (rows ++ [row]) = buys rows + (if lowered row.side = "buy" then row.amount else 0) ∧
    sells (rows ++ [row]) = sells rows + (if lowered row.side = "sell" then row.amount else 0) ∧
    cashFlow (rows ++ [row]) = cashFlow rows + row.cashFlow ∧
    commissions base quote (rows ++ [row]) =
      commissions base quote rows + rowCommission base quote (fun _ => none) row := by
  simp [buys, sells, cashFlow, commissions]

theorem IsFill.traded (hrow : IsFill step row) : ¬(row.amount ≤ 0 ∨ row.price ≤ 0 ∨
    (lowered row.side ≠ "buy" ∧ lowered row.side ≠ "sell")) := by
  rintro (hnone | hnone | hnone)
  · exact absurd hrow.amount_pos (not_lt.mpr hnone)
  · exact absurd hrow.price_pos (not_lt.mpr hnone)
  · exact hrow.side.elim hnone.1 hnone.2

theorem addFill_buy (hrow : IsFill step row) (hside : lowered row.side = "buy") :
    pass.addFill base quote row =
      { realized := pass.realized - rowCommission base quote (fun _ => none) row +
          (closeLots lotDust (fun entryPrice => entryPrice - row.price) row.amount
            pass.shortLots).gain
        longLots := openLot (closeLots lotDust (fun entryPrice => entryPrice - row.price)
          row.amount pass.shortLots).remaining row.price pass.longLots
        shortLots := (closeLots lotDust (fun entryPrice => entryPrice - row.price) row.amount
          pass.shortLots).lots
        lastPrice := row.price } := by
  have hqty : max 0 row.amount = row.amount := max_eq_right hrow.amount_pos.le
  have hprice : max 0 row.price = row.price := max_eq_right hrow.price_pos.le
  unfold FifoPass.addFill rowCommission
  rw [hqty, hprice, if_neg hrow.traded, if_pos hside]

theorem addFill_sell (hrow : IsFill step row) (hside : lowered row.side = "sell") :
    pass.addFill base quote row =
      { realized := pass.realized - rowCommission base quote (fun _ => none) row +
          (closeLots lotDust (fun entryPrice => row.price - entryPrice) row.amount
            pass.longLots).gain
        longLots := (closeLots lotDust (fun entryPrice => row.price - entryPrice) row.amount
          pass.longLots).lots
        shortLots := openLot (closeLots lotDust (fun entryPrice => row.price - entryPrice)
          row.amount pass.longLots).remaining row.price pass.shortLots
        lastPrice := row.price } := by
  have hqty : max 0 row.amount = row.amount := max_eq_right hrow.amount_pos.le
  have hprice : max 0 row.price = row.price := max_eq_right hrow.price_pos.le
  unfold FifoPass.addFill rowCommission
  rw [hqty, hprice, if_neg hrow.traded, if_neg (by rw [hside]; decide)]

/-- **A fill keeps the account.**  What it closes is realized at its price, what is left of it opens
a lot, and either way the cash it moves is the same. -/
theorem Balanced.addFill (hstep : lotDust < step) (h : Balanced base quote step mark rows pass)
    (hrow : IsFill step row) :
    Balanced base quote step mark (rows ++ [row]) (pass.addFill base quote row) := by
  obtain ⟨hbuys, hsells, hcash, hfees⟩ := sums_append base quote rows row
  have hnet := h.net
  have hbalance := h.cash
  rcases hrow.side with hside | hside
  · have hturn := turn_spec (fun entryPrice => entryPrice - row.price)
      (fun entryPrice => entryPrice - mark) (fun entryPrice => mark - entryPrice)
      (mark - row.price) row.price lotDust_pos.le hstep hrow.amount_onGrid h.shortLots_isLot
      h.longLots_isLot h.one_side.symm (fun _ => by ring) rfl
    have hflow : row.cashFlow = -(row.price * row.amount) := by
      rw [FillRow.cashFlow, if_neg (by rw [hside]; decide)]
    have hmoved := hturn.quantity_eq
    have hvalue := hturn.value_eq
    rw [addFill_buy hrow hside]
    refine ⟨hturn.own_isLot, hturn.against_isLot, hturn.one_side.symm, ?_, ?_⟩
    · rw [hbuys, hsells, if_pos hside, if_neg (by rw [hside]; decide)]
      linarith
    · rw [hbuys, hsells, hcash, if_pos hside, if_neg (by rw [hside]; decide), hflow]
      linarith
  · have hturn := turn_spec (fun entryPrice => row.price - entryPrice)
      (fun entryPrice => mark - entryPrice) (fun entryPrice => entryPrice - mark)
      (row.price - mark) row.price lotDust_pos.le hstep hrow.amount_onGrid h.longLots_isLot
      h.shortLots_isLot h.one_side (fun _ => by ring) rfl
    have hflow : row.cashFlow = row.price * row.amount := by
      rw [FillRow.cashFlow, if_pos hside]
    have hmoved := hturn.quantity_eq
    have hvalue := hturn.value_eq
    rw [addFill_sell hrow hside]
    refine ⟨hturn.against_isLot, hturn.own_isLot, hturn.one_side, ?_, ?_⟩
    · rw [hbuys, hsells, if_pos hside, if_neg (by rw [hside]; decide)]
      linarith
    · rw [hbuys, hsells, hcash, if_pos hside, if_neg (by rw [hside]; decide), hflow]
      linarith

/-- **The pass keeps the cash account**, whatever the fees are paid in. -/
theorem fifoPass_balanced (hstep : lotDust < step) (rows : List FillRow)
    (hrows : ∀ row ∈ rows, IsFill step row) :
    Balanced base quote step mark rows (fifoPass base quote rows) := by
  induction rows using List.reverseRecOn with
  | nil =>
    refine ⟨?_, ?_, Or.inl rfl, ?_, ?_⟩
    · simp [fifoPass]
    · simp [fifoPass]
    · simp [fifoPass, buys, sells]
    · simp [fifoPass, buys, sells, cashFlow, commissions]
  | append_singleton rows row ih =>
    have hbefore := ih fun row' hmem => hrows row' (List.mem_append_left _ hmem)
    rw [fifoPass, List.foldl_append]
    exact hbefore.addFill hstep (hrows row (List.mem_append_right _ (List.mem_singleton_self row)))

end Balanced

theorem commissions_eq_feesPaid {base quote : String} {step : ℚ} {rows : List FillRow}
    (hrows : ∀ row ∈ rows, IsFill step row ∧ FeeInPair base quote row) :
    commissions base quote rows = feesPaid quote rows := by
  unfold commissions feesPaid
  congr 1
  apply List.map_congr_left
  intro row hmem
  exact rowCommission_eq_feePaid (hrows row hmem).1.price_pos (hrows row hmem).2

/-- **The pass conserves cash.**  Realized and open profit together are the cash the fills have
moved, the net position at the mark price, and the fees; one side of the lots is empty, and the lots
add up to the net position. -/
theorem fifoPass_conserves_cash (base quote : String) (step mark : ℚ) (hstep : lotDust < step)
    (rows : List FillRow) (hrows : ∀ row ∈ rows, IsFill step row ∧ FeeInPair base quote row) :
    let pass := fifoPass base quote rows
    pass.realized + (pass.longLots.map fun lot => (mark - lot.entryPrice) * lot.qty).sum +
        (pass.shortLots.map fun lot => (lot.entryPrice - mark) * lot.qty).sum =
      cashFlow rows + (buys rows - sells rows) * mark - feesPaid quote rows ∧
    (pass.longLots = [] ∨ pass.shortLots = []) ∧
    (pass.longLots.map Lot.qty).sum - (pass.shortLots.map Lot.qty).sum =
      buys rows - sells rows := by
  have hbalanced : Balanced base quote step mark rows (fifoPass base quote rows) :=
    fifoPass_balanced hstep rows fun row hmem => (hrows row hmem).1
  refine ⟨?_, hbalanced.one_side, hbalanced.net⟩
  rw [← commissions_eq_feesPaid hrows]
  exact hbalanced.cash

/-- Two buys and a sell that turns the position short, with its fee in the coin. -/
def flippingFills : List FillRow :=
  [ { id := "1", tradedAt := some 1, side := "BUY", amount := 2, price := 100, feeCost := 1 / 5
      feeCurrency := some "usdt", realizedPnl := none },
    { id := "2", tradedAt := some 2, side := "buy", amount := 1 / 2, price := 110, feeCost := 0
      feeCurrency := none, realizedPnl := none },
    { id := "3", tradedAt := some 3, side := "sell", amount := 4, price := 120, feeCost := 1 / 1000
      feeCurrency := some "BTC", realizedPnl := none } ]

/-- The flip leaves a short lot of 3/2 at 120 and 44.68 realized. -/
theorem fifoPass_conserves_cash_over_flip :
    let pass := fifoPass "BTC" "USDT" flippingFills
    (pass.shortLots = [⟨3 / 2, 120⟩] ∧ pass.realized = 1117 / 25) ∧
    pass.realized + (pass.longLots.map fun lot => (115 - lot.entryPrice) * lot.qty).sum +
        (pass.shortLots.map fun lot => (lot.entryPrice - 115) * lot.qty).sum =
      cashFlow flippingFills + (buys flippingFills - sells flippingFills) * 115 -
        feesPaid "USDT" flippingFills ∧
    (pass.longLots = [] ∨ pass.shortLots = []) ∧
    (pass.longLots.map Lot.qty).sum - (pass.shortLots.map Lot.qty).sum =
      buys flippingFills - sells flippingFills := by
  refine ⟨by decide +kernel, fifoPass_conserves_cash "BTC" "USDT" (1 / 2) 115
    (by norm_num [lotDust]) flippingFills ?_⟩
  intro row hmem
  simp only [flippingFills, List.mem_cons, List.not_mem_nil, or_false] at hmem
  rcases hmem with rfl | rfl | rfl
  · exact ⟨⟨⟨4, by norm_num⟩, by norm_num, by norm_num, by decide +kernel⟩,
      Or.inr ⟨"usdt", rfl, by decide, by decide +kernel⟩⟩
  · exact ⟨⟨⟨1, by norm_num⟩, by norm_num, by norm_num, by decide +kernel⟩, Or.inl le_rfl⟩
  · exact ⟨⟨⟨8, by norm_num⟩, by norm_num, by norm_num, by decide +kernel⟩,
      Or.inr ⟨"BTC", rfl, by decide, by decide +kernel⟩⟩

/-! ## The breakdown -/

/-- `RealizedBreakdown`. -/
structure RealizedBreakdown where
  grossRealized : ℚ
  commission : ℚ
  funding : ℚ
  unrealized : Option ℚ
  baseCurrency : String
  quoteCurrency : String
  deriving DecidableEq

/-- `RealizedBreakdown.net_realized`. -/
def RealizedBreakdown.netRealized (breakdown : RealizedBreakdown) : ℚ :=
  breakdown.grossRealized - breakdown.commission + breakdown.funding

/-- `RealizedBreakdown.total_pnl`. -/
def RealizedBreakdown.totalPnl (breakdown : RealizedBreakdown) : ℚ :=
  breakdown.netRealized + breakdown.unrealized.getD 0

/-- What the engine reads of a live position. -/
structure LivePosition where
  markPrice : Option ℚ
  unrealizedPnl : Option ℚ
  deriving DecidableEq, Repr

/-- `_sort_key`, as an order. -/
def FillRow.sortsBefore (row row' : FillRow) : Prop :=
  row.tradedAt.getD 0 < row'.tradedAt.getD 0 ∨
    (row.tradedAt.getD 0 = row'.tradedAt.getD 0 ∧ textBefore row'.id row.id = false)

instance : DecidableRel FillRow.sortsBefore :=
  fun row row' => inferInstanceAs (Decidable (_ < _ ∨ (_ = _ ∧ textBefore row'.id row.id = false)))

/-- The profit of the open lots, at a price that is known. -/
def FifoPass.unrealizedAt (pass : FifoPass) (markPrice : ℚ) : ℚ :=
  if 0 < markPrice then
    (pass.longLots.map fun lot => (markPrice - lot.entryPrice) * lot.qty).sum +
      (pass.shortLots.map fun lot => (lot.entryPrice - markPrice) * lot.qty).sum
  else 0

/-- The mark price of the breakdown: the live one, else the last traded one. -/
def markPriceOf (pass : FifoPass) (livePosition : Option LivePosition) : ℚ :=
  match livePosition.bind LivePosition.markPrice with
  | some markPrice => if 0 < markPrice then markPrice else pass.lastPrice
  | none => pass.lastPrice

/-- `compute_realized_breakdown` behind its sort: the breakdown of rows in the order in which they
are given. -/
def breakdownInOrder (symbol : String) (sortedTrades : List FillRow) (funding : ℚ)
    (livePosition : Option LivePosition) (markPrices : String → Option ℚ) : RealizedBreakdown :=
  let (base, quote) := splitSymbol symbol
  let pass := fifoPass base quote sortedTrades
  let commission := (sortedTrades.map (rowCommission base quote markPrices)).sum
  let tagged := sortedTrades.filterMap FillRow.realizedPnl
  let grossRealized :=
    if tagged = [] then pass.realized + commission
    else
      let untagged := sortedTrades.filter fun row => row.realizedPnl.isNone
      if untagged = [] then tagged.sum
      else
        tagged.sum + ((fifoPass base quote untagged).realized +
          (untagged.map (rowCommission base quote markPrices)).sum)
  let unrealized :=
    match livePosition.bind LivePosition.unrealizedPnl with
    | some unrealizedPnl => some unrealizedPnl
    | none =>
        if pass.longLots = [] ∧ pass.shortLots = [] then none
        else some (pass.unrealizedAt (markPriceOf pass livePosition))
  { grossRealized := grossRealized
    commission := commission
    funding := funding
    unrealized := unrealized
    baseCurrency := base
    quoteCurrency := quote }

/-- `compute_realized_breakdown`. -/
def computeRealizedBreakdown (symbol : String) (trades : List FillRow) (funding : ℚ)
    (livePosition : Option LivePosition) (markPrices : String → Option ℚ) : RealizedBreakdown :=
  breakdownInOrder symbol (trades.insertionSort FillRow.sortsBefore) funding livePosition markPrices

end AdviserConstructor
