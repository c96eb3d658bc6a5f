import AdviserConstructor.Ledger.AccountFills
import Mathlib.Algebra.BigOperators.Ring.List

/-!
# The trades that the health of a strategy is computed from

`_account_trades_for_health` of `app/services/auto_trade/health.py` makes a trade of every closing
fill of the account.  The net of the account is the sum over its symbols; what the exchange has
booked less that net, which is mostly fees and funding, is spread over the closing fills by their
quantity.

The quantities are those of the fills, in the base currency of each.  So the trades add up to the
net of the account, but not those of a symbol to the net of the symbol.

* `sum_share`: the shares of the closing fills add up to one.
* `healthTrades_reconcile`: the trades add up to the net of the account, and those of a symbol to
  its own net exactly if its share of the whole adjustment is its own adjustment.
* `healthTrades_shift_costs`: the fee of one symbol makes a loss of the win of another one.
-/

namespace AdviserConstructor

open Grouping

/-! ## The trades -/

/-- The fills of an account since the cutoff. -/
def accountFills (history : PnlHistory) (accountId : ℕ) (cutoff : ℚ) : List LedgerFill :=
  orderedByTime (history.fills.filter fun fill =>
    fill.accountId = accountId && fill.tradedSince cutoff)

/-- A fill with a booked figure other than zero closes something. -/
def LedgerFill.isClose (fill : LedgerFill) : Bool := fill.realizedPnl.any (· ≠ 0)

def closingFills (fills : List LedgerFill) : List LedgerFill := fills.filter LedgerFill.isClose

/-- The funding of a symbol of the account since the cutoff. -/
def accountFunding (history : PnlHistory) (accountId : ℕ) (cutoff : ℚ) (symbol : String)
    (_ : List LedgerFill) : ℚ :=
  sumFunding history.incomes accountId symbol (some cutoff) none

/-- The variable `account_net`. -/
def accountNet (history : PnlHistory) (accountId : ℕ) (cutoff : ℚ) : ℚ :=
  netBySymbol (accountFunding history accountId cutoff) (accountFills history accountId cutoff)

/-- The variable `gross_total`. -/
def grossTotal (fills : List LedgerFill) : ℚ :=
  ((bySymbol fills).map fun group => taggedPnl group.2).sum

/-- The share of a closing fill in the adjustment. -/
def closeShare (closes : List LedgerFill) (fill : LedgerFill) : ℚ :=
  let totalCloseQty := (closes.map fun close => close.amount).sum
  if 0 < totalCloseQty then fill.amount / totalCloseQty else 1 / closes.length

/-- A trade, as the metrics read it. -/
structure HealthTrade where
  pnlUsdt : ℚ
  rReal : Option ℚ
  exitReason : String
  exitTime : Option ℚ
  entry : ℚ := 0
  sl : Option ℚ := none
  positionSize : Option ℚ := none
  deriving DecidableEq

/-- What the net of a closing fill is set to. -/
def closeNet (adjustment : ℚ) (closes : List LedgerFill) (fill : LedgerFill) : ℚ :=
  fill.realizedPnl.getD 0 - adjustment * closeShare closes fill

/-- The variable `adjustment`. -/
def healthAdjustment (history : PnlHistory) (accountId : ℕ) (cutoff : ℚ) : ℚ :=
  grossTotal (accountFills history accountId cutoff) - accountNet history accountId cutoff

/-- `_account_trades_for_health`, for the account of the config. -/
def accountTradesForHealth (history : PnlHistory) (accountId : ℕ) (cutoff : ℚ) :
    List HealthTrade :=
  let closes := closingFills (accountFills history accountId cutoff)
  closes.map fun fill =>
    let net := closeNet (healthAdjustment history accountId cutoff) closes fill
    { pnlUsdt := net
      rReal := some net
      exitReason := "closed"
      exitTime := fill.tradedAt }

/-- The net of the closing fills of a symbol. -/
def symbolTradesNet (history : PnlHistory) (accountId : ℕ) (cutoff : ℚ) (symbol : String) : ℚ :=
  let closes := closingFills (accountFills history accountId cutoff)
  ((closes.filter (·.symbol = symbol)).map
    (closeNet (healthAdjustment history accountId cutoff) closes)).sum

/-- The net of a symbol: of its own fills, with its own funding. -/
def symbolNet (history : PnlHistory) (accountId : ℕ) (cutoff : ℚ) (symbol : String) : ℚ :=
  let fills := (accountFills history accountId cutoff).filter (·.symbol = symbol)
  netRealized symbol fills (sumFunding history.incomes accountId symbol (some cutoff) none)

/-! ## What the trades add up to -/

section Sums

variable {history : PnlHistory} {accountId : ℕ} {cutoff : ℚ} {fills closes : List LedgerFill}

/-- **The shares** add up to one. -/
theorem sum_share (hsome : closes ≠ []) : (closes.map (closeShare closes)).sum = 1 := by
  by_cases htotal : 0 < (closes.map fun close => close.amount).sum
  · have hshare : closes.map (closeShare closes) = closes.map fun fill =>
        fill.amount * (closes.map fun close => close.amount).sum⁻¹ := by
      refine List.map_congr_left fun fill _ => ?_
      simp only [closeShare, if_pos htotal, div_eq_mul_inv]
    rw [hshare, List.sum_map_mul_right]
    exact mul_inv_cancel₀ htotal.ne'
  · have hshare : closes.map (closeShare closes) = closes.map fun _ => 1 / (closes.length : ℚ) := by
      refine List.map_congr_left fun fill _ => ?_
      simp only [closeShare, if_neg htotal]
    have hlength : (closes.length : ℚ) ≠ 0 :=
      Nat.cast_ne_zero.mpr (mt List.length_eq_zero_iff.mp hsome)
    rw [hshare, List.map_const', List.sum_replicate]
    exact mul_one_div_cancel hlength

theorem sum_closingFills (fills : List LedgerFill) :
    ((closingFills fills).map fun fill => fill.realizedPnl.getD 0).sum = taggedPnl fills := by
  induction fills with
  | nil => rfl
  | cons fill fills ih =>
    rw [taggedPnl] at ih ⊢
    rw [closingFills] at ih ⊢
    cases hfill : fill.realizedPnl with
    | none => simpa [LedgerFill.isClose, hfill] using ih
    | some value =>
      by_cases hzero : value = 0
      · simpa [LedgerFill.isClose, hfill, hzero] using ih
      · simpa [LedgerFill.isClose, hfill, hzero] using ih

theorem sum_closeNet (adjustment : ℚ) (closes some : List LedgerFill) :
    (some.map (closeNet adjustment closes)).sum =
      (some.map fun fill => fill.realizedPnl.getD 0).sum -
        adjustment * (some.map (closeShare closes)).sum := by
  induction some with
  | nil => simp
  | cons fill rest ih =>
    simp only [List.map_cons, List.sum_cons, ih, closeNet]
    ring

theorem accountNet_eq_sum (history : PnlHistory) (accountId : ℕ) (cutoff : ℚ) :
    accountNet history accountId cutoff =
      ((bySymbol (accountFills history accountId cutoff)).map fun group =>
        symbolNet history accountId cutoff group.1).sum := by
  refine congrArg List.sum (List.map_congr_left fun group hgroup => ?_)
  rw [symbolNet, ← filter_of_mem_groups hgroup]
  rfl

end Sums

/-- **The trades reconcile with the account**: they add up to its net, which is the sum of the nets
of its symbols.  Those of a symbol add up to its own net exactly if the part of the adjustment that
its closing fills get by their quantity is its own adjustment, as it is when the account has traded
one symbol only. -/
theorem healthTrades_reconcile (history : PnlHistory) (accountId : ℕ) (cutoff : ℚ)
    (hsome : closingFills (accountFills history accountId cutoff) ≠ []) :
    (((accountTradesForHealth history accountId cutoff).map HealthTrade.pnlUsdt).sum =
        accountNet history accountId cutoff ∧
      accountNet history accountId cutoff =
        ((bySymbol (accountFills history accountId cutoff)).map fun group =>
          symbolNet history accountId cutoff group.1).sum) ∧
    ∀ symbol,
      (symbolTradesNet history accountId cutoff symbol =
          symbolNet history accountId cutoff symbol ↔
        healthAdjustment history accountId cutoff *
            (((closingFills (accountFills history accountId cutoff)).filter
              (·.symbol = symbol)).map
                (closeShare (closingFills (accountFills history accountId cutoff)))).sum =
          taggedPnl ((accountFills history accountId cutoff).filter (·.symbol = symbol)) -
            symbolNet history accountId cutoff symbol) ∧
      ((∀ fill ∈ accountFills history accountId cutoff, fill.symbol = symbol) →
        symbolTradesNet history accountId cutoff symbol =
          symbolNet history accountId cutoff symbol) := by
  have hgross : grossTotal (accountFills history accountId cutoff) =
      taggedPnl (accountFills history accountId cutoff) := sum_taggedPnl _
  have htotal : ((closingFills (accountFills history accountId cutoff)).map
      (closeNet (healthAdjustment history accountId cutoff)
        (closingFills (accountFills history accountId cutoff)))).sum =
      accountNet history accountId cutoff := by
    rw [sum_closeNet, sum_share hsome, sum_closingFills, healthAdjustment, hgross]
    ring
  refine ⟨⟨?_, accountNet_eq_sum history accountId cutoff⟩, fun symbol => ⟨?_, fun hone => ?_⟩⟩
  · rw [accountTradesForHealth, List.map_map]
    exact htotal
  · -- the closing fills of the symbol have booked what its fills have
    have hbooked : (((closingFills (accountFills history accountId cutoff)).filter
        (·.symbol = symbol)).map fun fill => fill.realizedPnl.getD 0).sum =
        taggedPnl ((accountFills history accountId cutoff).filter (·.symbol = symbol)) := by
      rw [← sum_closingFills, closingFills, closingFills, List.filter_comm]
    rw [symbolTradesNet, sum_closeNet]
    constructor <;> intro h <;> linarith
  · have hsame : (closingFills (accountFills history accountId cutoff)).filter
        (·.symbol = symbol) = closingFills (accountFills history accountId cutoff) :=
      List.filter_eq_self.mpr fun fill hfill =>
        decide_eq_true (hone fill (List.mem_of_mem_filter hfill))
    have hfills : bySymbol (accountFills history accountId cutoff) =
        [(symbol, accountFills history accountId cutoff)] :=
      groups_of_one_key (fun hnil => hsome (by rw [hnil]; rfl)) hone
    rw [symbolTradesNet, hsame, htotal, accountNet_eq_sum, hfills, List.map_singleton,
      List.sum_singleton]

/-! ## Two symbols -/

/-- A closing fill with a figure of the exchange. -/
def closingFill (id symbol : String) (amount realizedPnl feeCost : ℚ) : LedgerFill where
  id := id
  tradedAt := some 1
  side := "sell"
  amount := amount
  price := 100
  feeCost := feeCost
  feeCurrency := some "USDT"
  realizedPnl := some realizedPnl
  accountId := 1
  symbol := symbol

/-- A bitcoin closed with a profit of 10 and a fee of 30, and a hundred ether closed with a profit
of 20 and no fee. -/
def costlyBitcoin : PnlHistory where
  fills := [closingFill "1" "BTC/USDT:USDT" 1 10 30, closingFill "2" "ETH/USDT:USDT" 100 20 0]

/-- The trades of the example add up to the net of the account, which is zero. -/
theorem healthTrades_costlyBitcoin :
    ((accountTradesForHealth costlyBitcoin 1 0).map HealthTrade.pnlUsdt).sum =
        accountNet costlyBitcoin 1 0 ∧ accountNet costlyBitcoin 1 0 = 0 :=
  ⟨(healthTrades_reconcile costlyBitcoin 1 0 (by decide +kernel)).1.1, by decide +kernel⟩

/-- **The fee of one symbol** makes a loss of the win of the other one: nearly all of it is charged
to the ether, whose own net is 20. -/
theorem healthTrades_shift_costs :
    ¬ ∀ (history : PnlHistory) (accountId : ℕ) (cutoff : ℚ),
      closingFills (accountFills history accountId cutoff) ≠ [] →
        ((accountTradesForHealth history accountId cutoff).map HealthTrade.pnlUsdt).sum =
            accountNet history accountId cutoff ∧
          ∀ symbol, symbolTradesNet history accountId cutoff symbol =
            symbolNet history accountId cutoff symbol := by
  intro hall
  have hether := (hall costlyBitcoin 1 0 (by decide +kernel)).2 "ETH/USDT:USDT"
  have hown : symbolNet costlyBitcoin 1 0 "ETH/USDT:USDT" = 20 := by decide +kernel
  have hcharged : symbolTradesNet costlyBitcoin 1 0 "ETH/USDT:USDT" < 0 := by decide +kernel
  rw [hether, hown] at hcharged
  exact absurd hcharged (by norm_num)

end AdviserConstructor
