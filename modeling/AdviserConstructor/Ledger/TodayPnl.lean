import AdviserConstructor.Ledger.AccountFills
import AdviserConstructor.Ledger.PairedUnits

/-!
# What a strategy has realized today

The daily-loss gate of `app/services/auto_trade/service.py` reads `_today_realized_pnl_usdt`: the
net of today's fills of a config.  Next to it, `_config_realized_net_usdt` computes the net over all
time, and groups the fills by symbol; today's net does not, and hands all fills to the engine under
the symbol of the first one, with the funding of that symbol.

What the exchange has booked for a fill is the same in both.  Three things are not: the lots of the
other fills are matched across symbols, the fees of the booked ones are valued in the currencies of
the first symbol, and the funding of the other symbols is missing.

* `todayRealizedPnl_additive_iff`: today's net is the sum over the symbols exactly if these three
  cancel out.  They are sums over the fills and the funding: as `fifoPass_realized` has it, matching
  pairs the units of the two sides in the order in which they were traded.
* `configRealizedNetUsdt_eq_todayBySymbol`: the sum over the symbols is the net over all time of a
  config that has traded only today.
* `todayRealizedPnl_pools`: a bitcoin bought and an ether sold, and the gate sees a loss.
-/

namespace AdviserConstructor

open Grouping LotQueue

/-! ## The two aggregations -/

/-- `now.replace(hour=0, minute=0, second=0, microsecond=0)`, in seconds. -/
def startOfDay (now : ℚ) : ℚ := (⌊now / 86400⌋ : ℚ) * 86400

/-- The fills of a config since the start of the day. -/
def todayFills (history : PnlHistory) (configId : ℕ) (dayStart : ℚ) : List LedgerFill :=
  orderedByTime (history.fills.filter fun fill =>
    fill.autoTradeConfigId = some configId && fill.tradedSince dayStart)

/-- The column `gross_pnl` of the legacy queries, for a position with a close price. -/
def PositionRecord.grossPnl (position : PositionRecord) : ℚ :=
  match position.side, position.closePrice with
  | .long, some closePrice => (closePrice - position.entryPrice) * position.quantity
  | .short, some closePrice => (position.entryPrice - closePrice) * position.quantity
  | _, _ => 0

/-- `_today_realized_pnl_legacy`. -/
def todayRealizedPnlLegacy (history : PnlHistory) (configId : ℕ) (dayStart : ℚ) : ℚ :=
  ((history.positions.filter fun position =>
    position.configId = configId && position.status = .closed && position.closePrice.isSome &&
      position.closedSince dayStart).map PositionRecord.grossPnl).sum

/-- `_today_realized_pnl_usdt`. -/
def todayRealizedPnlUsdt (history : PnlHistory) (configId : ℕ) (now : ℚ) : ℚ :=
  let dayStart := startOfDay now
  match todayFills history configId dayStart with
  | first :: rest =>
      netRealized first.symbol (first :: rest)
        (sumFunding history.incomes first.accountId first.symbol (some dayStart) none)
  | [] => todayRealizedPnlLegacy history configId dayStart

/-- `_config_realized_pnl_legacy`. -/
def configRealizedPnlLegacy (history : PnlHistory) (configId : ℕ) : ℚ :=
  ((history.positions.filter fun position =>
    position.configId = configId && position.status = .closed &&
      position.closePrice.isSome).map PositionRecord.grossPnl).sum

/-- `_config_realized_net_usdt`, for the account of the config, if there is such a config. -/
def configRealizedNetUsdt (history : PnlHistory) (accountId : Option ℕ) (configId : ℕ) : ℚ :=
  match accountId with
  | none => 0
  | some accountId =>
      let fills := orderedByTime (history.fills.filter (·.accountId = accountId))
      if fills = [] then configRealizedPnlLegacy history configId
      else netBySymbol (fundingOf history.incomes none) fills

/-- Today's net, aggregated as the net over all time is: each symbol with its own fills and its own
funding. -/
def todayBySymbol (history : PnlHistory) (configId : ℕ) (now : ℚ) : ℚ :=
  netBySymbol (fundingOf history.incomes (some (startOfDay now)))
    (todayFills history configId (startOfDay now))

/-- **Over a day that is all of its history** the net over all time is today's, by symbol. -/
theorem configRealizedNetUsdt_eq_todayBySymbol (history : PnlHistory) (accountId configId : ℕ)
    (now : ℚ) (hsome : history.fills ≠ [])
    (hfills : ∀ fill ∈ history.fills, fill.accountId = accountId ∧
      fill.autoTradeConfigId = some configId ∧ fill.tradedSince (startOfDay now))
    (hincomes : ∀ row ∈ history.incomes, startOfDay now ≤ row.incomeAt) :
    configRealizedNetUsdt history (some accountId) configId =
      todayBySymbol history configId now := by
  have haccount : history.fills.filter (·.accountId = accountId) = history.fills :=
    List.filter_eq_self.mpr fun fill hmem => decide_eq_true (hfills fill hmem).1
  have htoday : todayFills history configId (startOfDay now) = orderedByTime history.fills := by
    rw [todayFills, List.filter_eq_self.mpr fun fill hmem => ?_]
    rw [(hfills fill hmem).2.2, Bool.and_true]
    exact decide_eq_true (hfills fill hmem).2.1
  have hordered : orderedByTime history.fills ≠ [] := by
    intro hnone
    have hperm := List.perm_insertionSort
      (fun fill fill' : LedgerFill => fill.tradedAt.getD 0 ≤ fill'.tradedAt.getD 0) history.fills
    rw [orderedByTime] at hnone
    rw [hnone] at hperm
    exact hsome hperm.nil_eq.symm
  have hfunding : fundingOf history.incomes (some (startOfDay now)) =
      fundingOf history.incomes none := by
    funext symbol fills
    cases fills with
    | nil => rfl
    | cons first rest =>
      rw [fundingOf, fundingOf, sumFunding, sumFunding, List.filter_congr fun row hmem => ?_]
      simp [IncomeRow.isFunding, hincomes row hmem]
  rw [configRealizedNetUsdt, todayBySymbol, htoday, hfunding]
  simp only [haccount, if_neg hordered]

/-! ## What differs -/

/-- The fills without a figure of the exchange, as the engine orders them. -/
def untagged (fills : List LedgerFill) : List FillRow :=
  (((fills.map LedgerFill.toFillRow).insertionSort FillRow.sortsBefore).filter
    (·.realizedPnl.isNone)).filter FillRow.Traded

/-- What pairing the units of all these fills gains, beyond pairing those of each symbol. -/
def pooledGain (fills : List LedgerFill) : ℚ :=
  pairedGain (untagged fills) -
    ((bySymbol fills).map fun group => pairedGain (untagged group.2)).sum

/-- The fee of a fill, as the pair of a symbol values it. -/
def feeUnder (symbol : String) (fill : LedgerFill) : ℚ :=
  rowCommission (splitSymbol symbol).1 (splitSymbol symbol).2 (fun _ => none) fill.toFillRow

def charged (fills : List LedgerFill) : List LedgerFill :=
  fills.filter fun fill => fill.realizedPnl.isSome ∨ fill.Traded

/-- What the fees come to under one symbol, beyond what they come to under their own. -/
def mispricedFees (symbol : String) (fills : List LedgerFill) : ℚ :=
  ((charged fills).map fun fill => feeUnder symbol fill - feeUnder fill.symbol fill).sum

/-- The funding of the symbols other than the first. -/
def missingFunding (incomes : List IncomeRow) (dayStart : ℚ) (symbol : String)
    (fills : List LedgerFill) : ℚ :=
  (((bySymbol fills).filter (·.1 ≠ symbol)).map fun group =>
    fundingOf incomes (some dayStart) group.1 group.2).sum

def closedToday (history : PnlHistory) (configId : ℕ) (dayStart : ℚ) : List PositionRecord :=
  history.positions.filter fun position =>
    position.configId = configId && position.status = .closed && position.closePrice.isSome &&
      position.closedSince dayStart

/-- What the prices have moved from the entries to the closes of one side, by quantity. -/
def priceMove (side : PositionSide) (positions : List PositionRecord) : ℚ :=
  ((positions.filter (·.side = side)).map fun position =>
    (position.closePrice.getD 0 - position.entryPrice) * position.quantity).sum

/-- The condition.  Without fills, what the longs closed today have gained the shorts have lost. -/
def DifferencesCancel (history : PnlHistory) (configId : ℕ) (dayStart : ℚ) :
    List LedgerFill → Prop
  | [] => priceMove .long (closedToday history configId dayStart) =
      priceMove .short (closedToday history configId dayStart)
  | first :: rest =>
      pooledGain (first :: rest) - mispricedFees first.symbol (first :: rest) =
        missingFunding history.incomes dayStart first.symbol (first :: rest)

instance (history : PnlHistory) (configId : ℕ) (dayStart : ℚ) :
    DecidablePred (DifferencesCancel history configId dayStart)
  | [] => inferInstanceAs (Decidable (_ = _))
  | _ :: _ => inferInstanceAs (Decidable (_ = _))

section Differences

variable {first : LedgerFill} {rest fills : List LedgerFill} {step : ℚ}

theorem first_group :
    (first.symbol, first :: rest.filter (·.symbol = first.symbol)) ∈ bySymbol (first :: rest) := by
  have hgroup := @group_of_mem _ _ _ LedgerFill.symbol _ first (List.mem_cons_self (l := rest))
  rw [List.filter_cons_of_pos (by simp)] at hgroup
  exact hgroup

theorem sum_fundingOf (incomes : List IncomeRow) (dayStart : ℚ) :
    ((bySymbol (first :: rest)).map fun group =>
        fundingOf incomes (some dayStart) group.1 group.2).sum =
      sumFunding incomes first.accountId first.symbol (some dayStart) none +
        missingFunding incomes dayStart first.symbol (first :: rest) :=
  sum_eq_add_sum_others (fun group => fundingOf incomes (some dayStart) group.1 group.2)
    (groups LedgerFill.symbol (first :: rest)).nodup_keys first_group

theorem sum_map_sub {α : Type*} (f g : α → ℚ) (as : List α) :
    (as.map fun a => f a - g a).sum = (as.map f).sum - (as.map g).sum := by
  rw [eq_sub_iff_add_eq, ← List.sum_map_add]
  simp only [sub_add_cancel]

theorem sum_charged (fee : LedgerFill → ℚ) (fills : List LedgerFill) :
    ((charged fills).map fee).sum = ((fills.filter (·.realizedPnl.isSome)).map fee).sum +
      (((fills.filter (·.realizedPnl.isNone)).filter (·.Traded)).map fee).sum := by
  induction fills with
  | nil => simp [charged]
  | cons fill fills ih =>
    rw [charged] at ih ⊢
    cases hpnl : fill.realizedPnl with
    | none =>
      by_cases htraded : fill.Traded
      · simp only [List.filter_cons, hpnl, Option.isSome_none, Option.isNone_none, htraded,
          Bool.false_eq_true, false_or, decide_true, if_true, if_false, List.map_cons,
          List.sum_cons, ih]
        ring
      · simp only [List.filter_cons, hpnl, Option.isSome_none, Option.isNone_none, htraded,
          Bool.false_eq_true, or_self, decide_false, if_true, if_false, ih]
    | some value =>
      simp only [List.filter_cons, hpnl, Option.isSome_some, Option.isNone_some, true_or,
        decide_true, if_true, Bool.false_eq_true, if_false, List.map_cons, List.sum_cons, ih]
      ring

theorem lotsRealized_sub_taggedFees (symbol : String) (hstep : lotDust < step)
    (hgrid : ∀ fill ∈ fills, fill.realizedPnl = none → fill.Traded → OnGrid step fill.amount) :
    lotsRealized symbol fills - taggedFees symbol fills =
      pairedGain (untagged fills) - ((charged fills).map (feeUnder symbol)).sum := by
  have hperm := (List.perm_insertionSort FillRow.sortsBefore
    (fills.map LedgerFill.toFillRow)).filter (·.realizedPnl.isNone)
  have hrealized := @fifoPass_realized (splitSymbol symbol).1 (splitSymbol symbol).2 step hstep
    (((fills.map LedgerFill.toFillRow).insertionSort FillRow.sortsBefore).filter
      (·.realizedPnl.isNone)) fun row hrow htraded => by
        obtain ⟨hmem, hnone⟩ := List.mem_filter.mp (hperm.mem_iff.mp hrow)
        obtain ⟨fill, hfill, rfl⟩ := List.mem_map.mp hmem
        exact hgrid fill hfill (Option.isNone_iff_eq_none.mp hnone) htraded
  -- the fees that the pass has taken off are those of the untagged fills it has traded
  have hfees : commissions (splitSymbol symbol).1 (splitSymbol symbol).2 (untagged fills) =
      (((fills.filter (·.realizedPnl.isNone)).filter (·.Traded)).map (feeUnder symbol)).sum := by
    rw [commissions, untagged, ((hperm.filter _).map _).sum_eq, List.filter_map, List.filter_map,
      List.map_map]
    rfl
  have hcharged : ((charged fills).map (feeUnder symbol)).sum = taggedFees symbol fills +
      (((fills.filter (·.realizedPnl.isNone)).filter (·.Traded)).map (feeUnder symbol)).sum := by
    rw [sum_charged]
    rfl
  rw [lotsRealized, hrealized, hcharged, ← hfees, untagged]
  ring

theorem sum_feeUnder (fills : List LedgerFill) :
    ((bySymbol fills).map fun group => ((charged group.2).map (feeUnder group.1)).sum).sum =
      ((charged fills).map fun fill => feeUnder fill.symbol fill).sum := by
  have hsum : ∀ fills : List LedgerFill,
      ((charged fills).map fun fill => feeUnder fill.symbol fill).sum =
        (fills.map fun fill => if fill.realizedPnl.isSome ∨ fill.Traded then
          feeUnder fill.symbol fill else 0).sum := by
    intro fills
    rw [List.sum_map_ite, charged]
    simp
  rw [hsum, ← sum_groups LedgerFill.symbol]
  refine congrArg List.sum (List.map_congr_left fun group hgroup => ?_)
  rw [← hsum]
  refine congrArg List.sum (List.map_congr_left fun fill hfill => ?_)
  -- the fills of a group have its symbol
  have hmem := List.mem_of_mem_filter hfill
  rw [filter_of_mem_groups hgroup] at hmem
  rw [of_decide_eq_true (List.mem_filter.mp hmem).2]

theorem todayRealizedPnlLegacy_eq (history : PnlHistory) (configId : ℕ) (dayStart : ℚ) :
    todayRealizedPnlLegacy history configId dayStart =
      priceMove .long (closedToday history configId dayStart) -
        priceMove .short (closedToday history configId dayStart) := by
  have hclosed : ∀ position ∈ closedToday history configId dayStart,
      position.closePrice.isSome := by
    intro position hmem
    have hkept := (List.mem_filter.mp hmem).2
    simp only [Bool.and_eq_true] at hkept
    exact hkept.1.2
  change ((closedToday history configId dayStart).map PositionRecord.grossPnl).sum = _
  generalize closedToday history configId dayStart = positions at hclosed
  induction positions with
  | nil => simp [priceMove]
  | cons position positions ih =>
    obtain ⟨hposition, hrest⟩ := List.forall_mem_cons.mp hclosed
    obtain ⟨closePrice, hprice⟩ := Option.isSome_iff_exists.mp hposition
    have hsum := ih hrest
    rw [priceMove, priceMove] at hsum ⊢
    rw [List.map_cons, List.sum_cons, hsum]
    cases hside : position.side with
    | long =>
      simp [PositionRecord.grossPnl, hside, hprice]
      ring
    | short =>
      simp [PositionRecord.grossPnl, hside, hprice]
      ring
    | both => simp [PositionRecord.grossPnl, hside]

end Differences

/-- **Today's net is the sum over the symbols** exactly if what the pooled units gain, the mispriced
fees and the missing funding cancel out.  The quantities are on a grid above the dust of a lot. -/
theorem todayRealizedPnl_additive_iff (history : PnlHistory) (configId : ℕ) (now step : ℚ)
    (hstep : lotDust < step)
    (hgrid : ∀ fill ∈ todayFills history configId (startOfDay now), fill.realizedPnl = none →
      fill.Traded → OnGrid step fill.amount) :
    todayRealizedPnlUsdt history configId now = todayBySymbol history configId now ↔
      DifferencesCancel history configId (startOfDay now)
        (todayFills history configId (startOfDay now)) := by
  rw [todayRealizedPnlUsdt, todayBySymbol]
  cases hfills : todayFills history configId (startOfDay now) with
  | nil =>
    have hnone : netBySymbol (fundingOf history.incomes (some (startOfDay now))) [] = 0 := rfl
    rw [todayRealizedPnlLegacy_eq, hnone, DifferencesCancel, sub_eq_zero]
  | cons first rest =>
    rw [hfills] at hgrid
    have hpooled := lotsRealized_sub_taggedFees first.symbol hstep hgrid
    have hgroups : ((bySymbol (first :: rest)).map fun group =>
          lotsRealized group.1 group.2 - taggedFees group.1 group.2).sum =
        ((bySymbol (first :: rest)).map fun group => pairedGain (untagged group.2)).sum -
          ((charged (first :: rest)).map fun fill => feeUnder fill.symbol fill).sum := by
      rw [← sum_feeUnder, ← sum_map_sub]
      refine congrArg List.sum (List.map_congr_left fun group hgroup =>
        lotsRealized_sub_taggedFees group.1 hstep fun fill hfill => hgrid fill ?_)
      rw [filter_of_mem_groups hgroup] at hfill
      exact List.mem_of_mem_filter hfill
    rw [sum_map_sub] at hgroups
    dsimp only
    rw [netRealized_eq, netBySymbol_eq, sum_fundingOf, DifferencesCancel, pooledGain,
      mispricedFees, sum_map_sub]
    constructor <;> intro h <;> linarith

/-- A bitcoin and then an ether are bought and sold again, with fees and no figure yet. -/
def twoTrips : PnlHistory where
  fills :=
    [{ id := "1", tradedAt := some 1, side := "buy", amount := 1, price := 100, feeCost := 1,
       feeCurrency := some "USDT", realizedPnl := none, accountId := 1, symbol := "BTC/USDT:USDT",
       autoTradeConfigId := some 1 },
     { id := "2", tradedAt := some 2, side := "sell", amount := 1, price := 110, feeCost := 1,
       feeCurrency := some "USDT", realizedPnl := none, accountId := 1, symbol := "BTC/USDT:USDT",
       autoTradeConfigId := some 1 },
     { id := "3", tradedAt := some 3, side := "sell", amount := 2, price := 50, feeCost := 1,
       feeCurrency := some "USDT", realizedPnl := none, accountId := 1, symbol := "ETH/USDT:USDT",
       autoTradeConfigId := some 1 },
     { id := "4", tradedAt := some 4, side := "buy", amount := 2, price := 45, feeCost := 1,
       feeCurrency := some "USDT", realizedPnl := none, accountId := 1, symbol := "ETH/USDT:USDT",
       autoTradeConfigId := some 1 }]

/-- One trip after the other is the sum of both, although the lots are shared: 10, 10 and the
fees. -/
theorem todayRealizedPnl_additive_twoTrips :
    todayRealizedPnlUsdt twoTrips 1 10 = 16 ∧ todayBySymbol twoTrips 1 10 = 16 := by
  have hsame := (todayRealizedPnl_additive_iff twoTrips 1 10 1 (by norm_num [lotDust])
    (by
      have hamounts : ∀ fill ∈ todayFills twoTrips 1 (startOfDay 10),
          fill.amount = 1 ∨ fill.amount = 2 := by decide +kernel
      intro fill hfill _ _
      rcases hamounts fill hfill with hone | htwo
      · exact ⟨1, by rw [hone]; norm_num⟩
      · exact ⟨2, by rw [htwo]; norm_num⟩)).mpr (by decide +kernel)
  have hsum : todayBySymbol twoTrips 1 10 = 16 := by decide +kernel
  exact ⟨hsame.trans hsum, hsum⟩

/-! ## Two symbols -/

/-- A bitcoin is bought at 100 and an ether sold at 50, with no figure of the exchange yet. -/
def twoSymbols : PnlHistory where
  fills :=
    [{ id := "1", tradedAt := some 1, side := "buy", amount := 1, price := 100, feeCost := 0,
       feeCurrency := none, realizedPnl := none, accountId := 1, symbol := "BTC/USDT:USDT",
       autoTradeConfigId := some 1 },
     { id := "2", tradedAt := some 2, side := "sell", amount := 1, price := 50, feeCost := 0,
       feeCurrency := none, realizedPnl := none, accountId := 1, symbol := "ETH/USDT:USDT",
       autoTradeConfigId := some 1 }]

/-- **The gate sees a loss** of 50 that no symbol has: the ether is matched with the lot of the
bitcoin. -/
theorem todayRealizedPnl_pools :
    ¬ ∀ (history : PnlHistory) (configId : ℕ) (now : ℚ),
      todayFills history configId (startOfDay now) ≠ [] →
        todayRealizedPnlUsdt history configId now = todayBySymbol history configId now := by
  intro hall
  have hsome : todayFills twoSymbols 1 (startOfDay 10) ≠ [] := by decide +kernel
  have hpooled : todayRealizedPnlUsdt twoSymbols 1 10 = -50 := by decide +kernel
  have hsplit : todayBySymbol twoSymbols 1 10 = 0 := by decide +kernel
  have hsame := hall twoSymbols 1 10 hsome
  rw [hpooled, hsplit] at hsame
  exact absurd hsame (by norm_num)

end AdviserConstructor
