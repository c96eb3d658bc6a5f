import AdviserConstructor.Ledger.FuturesPnl
import Mathlib.Algebra.Order.BigOperators.Group.List

/-!
# Gross profits and fees

The gross profit of a breakdown is to be free of fees.  It is computed from a pass that has taken
the fees off, and the commission is added back.  But the two value the fees differently: the pass
knows no mark prices, and skips the rows that are no fills, while the commission is that of every
row, with the mark prices.  A fee that only the commission values is added back without having been
taken off.

* `missedFee` is what the pass leaves out of the fee of a row, and `fifoPass_eq_less` what the pass
  takes off.
* `grossRealized_withoutFee`: the gross profit is that of the same fills without fees, and the
  missed fees of those that the exchange has not valued.
* `grossRealized_iff`: when the gross profit does not depend on the fees, and when the net profit is
  the gross one of the fills, with every fee taken off once.
-/

namespace AdviserConstructor

open DecimalText LotQueue

/-! ## Fees that the pass leaves out -/

def FillRow.withoutFee (row : FillRow) : FillRow := { row with feeCost := 0, feeCurrency := none }

/-- The row is one that the pass reads. -/
def FillRow.Counted (row : FillRow) : Prop :=
  0 < row.amount ∧ 0 < row.price ∧ (lowered row.side = "buy" ∨ lowered row.side = "sell")

instance (row : FillRow) : Decidable row.Counted := inferInstanceAs (Decidable (_ ∧ _ ∧ _))

/-- What the pass leaves out of the fee of a row: the whole fee of a row that it does not read, and
a fee in a third asset that has a mark price. -/
def missedFee (base quote : String) (markPrices : String → Option ℚ) (row : FillRow) : ℚ :=
  match row.feeCurrency with
  | none => 0
  | some currency =>
      if row.feeCost ≤ 0 ∨ currency = "" then 0
      else if uppered currency = quote then if row.Counted then 0 else row.feeCost
      else if uppered currency = base then
        if row.Counted ∨ row.price ≤ 0 then 0 else row.feeCost * row.price
      else
        match markPrices (uppered currency) with
        | some mark => if 0 < mark then row.feeCost * mark else 0
        | none => 0

/-- What the pass takes off for the fee of a row. -/
def passFee (base quote : String) (row : FillRow) : ℚ :=
  if row.Counted then rowCommission base quote (fun _ => none) row else 0

/-- The fees that the pass leaves out, of the rows that the exchange has not valued. -/
def missedFees (base quote : String) (markPrices : String → Option ℚ) (rows : List FillRow) : ℚ :=
  ((rows.filter fun row => row.realizedPnl.isNone).map (missedFee base quote markPrices)).sum

/-- A pass whose profit is less by some fees. -/
def FifoPass.less (pass : FifoPass) (fees : ℚ) : FifoPass :=
  { pass with realized := pass.realized - fees }

section

variable {base quote : String} {markPrices : String → Option ℚ} {row : FillRow} {pass : FifoPass}

/-- **The commission of a row** is what the pass takes off, and what it leaves out. -/
theorem rowCommission_eq_add :
    rowCommission base quote markPrices row =
      passFee base quote row + missedFee base quote markPrices row := by
  rw [passFee, missedFee, rowCommission, rowCommission]
  cases row.feeCurrency with
  | none =>
    simp only [feeToQuote, ite_self, add_zero]
  | some currency =>
    simp only [feeToQuote]
    by_cases hfee : row.feeCost ≤ 0 ∨ currency = ""
    · have hmax : max 0 row.feeCost ≤ 0 ∨ currency = "" :=
        hfee.imp_left fun hle => max_le le_rfl hle
      rw [if_pos hmax, if_pos hmax, if_pos hfee, ite_self, add_zero]
    · have hcost : max 0 row.feeCost = row.feeCost := by
        refine max_eq_right (le_of_not_ge fun hle => hfee (.inl hle))
      rw [hcost, if_neg hfee, if_neg hfee, if_neg hfee]
      by_cases hquote : uppered currency = quote
      · split_ifs
        · rw [add_zero]
        · rw [zero_add]
      · simp only [if_neg hquote]
        by_cases hbase : uppered currency = base
        · simp only [if_pos hbase]
          by_cases hprice : 0 < row.price
          · have hmax : max 0 row.price = row.price := max_eq_right hprice.le
            rw [hmax]
            simp only [not_le.mpr hprice, or_false]
            split_ifs
            · rw [add_zero]
            · rw [zero_add]
          · have hnot : ¬0 < max 0 row.price := by
              rw [max_eq_left (not_lt.mp hprice)]
              exact lt_irrefl 0
            rw [if_neg hnot, ite_self, if_pos (.inr (not_lt.mp hprice)), add_zero]
        · cases markPrices (uppered currency) <;>
            simp only [if_neg hbase, ite_self, zero_add]

theorem missedFee_nonneg : 0 ≤ missedFee base quote markPrices row := by
  rw [missedFee]
  cases row.feeCurrency with
  | none => exact le_rfl
  | some currency =>
    dsimp only
    by_cases hfee : row.feeCost ≤ 0 ∨ currency = ""
    · rw [if_pos hfee]
    · have hcost : 0 ≤ row.feeCost := le_of_not_ge fun hle => hfee (.inl hle)
      split_ifs with hquote hcounted hbase hcounted
      · exact le_rfl
      · exact hcost
      · exact le_rfl
      · exact mul_nonneg hcost (le_of_not_ge fun hle => hcounted (.inr hle))
      · cases markPrices (uppered currency) with
        | none => exact le_rfl
        | some mark =>
          dsimp only
          split_ifs with hmark
          · exact mul_nonneg hcost hmark.le
          · exact le_rfl

/-! ## The pass without fees -/

theorem less_zero : pass.less 0 = pass := by
  rw [FifoPass.less, sub_zero]

theorem less_less (fees fees' : ℚ) : (pass.less fees).less fees' = pass.less (fees + fees') := by
  rw [FifoPass.less, FifoPass.less, FifoPass.less, sub_sub]

theorem addFill_less (fees : ℚ) :
    (pass.less fees).addFill base quote row = (pass.addFill base quote row).less fees := by
  rw [FifoPass.addFill, FifoPass.addFill]
  split_ifs
  · rfl
  · simp only [FifoPass.less, FifoPass.mk.injEq, and_true]
    ring
  · simp only [FifoPass.less, FifoPass.mk.injEq, and_true]
    ring

theorem skipped_iff_not_counted :
    (max 0 row.amount ≤ 0 ∨ max 0 row.price ≤ 0 ∨
      (lowered row.side ≠ "buy" ∧ lowered row.side ≠ "sell")) ↔ ¬row.Counted := by
  rw [FillRow.Counted, not_and_or, not_and_or, not_or, max_le_iff, max_le_iff, not_lt, not_lt]
  simp only [le_refl, true_and]

theorem addFill_skipped (h : ¬row.Counted) : pass.addFill base quote row = pass := by
  exact if_pos (skipped_iff_not_counted.mpr h)

theorem addFill_counted (h : row.Counted) :
    pass.addFill base quote row =
      if lowered row.side = "buy" then
        let closed := closeLots lotDust (fun entryPrice => entryPrice - max 0 row.price)
          (max 0 row.amount) pass.shortLots
        { realized := pass.realized - rowCommission base quote (fun _ => none) row + closed.gain
          longLots := openLot closed.remaining (max 0 row.price) pass.longLots
          shortLots := closed.lots
          lastPrice := max 0 row.price }
      else
        let closed := closeLots lotDust (fun entryPrice => max 0 row.price - entryPrice)
          (max 0 row.amount) pass.longLots
        { realized := pass.realized - rowCommission base quote (fun _ => none) row + closed.gain
          longLots := closed.lots
          shortLots := openLot closed.remaining (max 0 row.price) pass.shortLots
          lastPrice := max 0 row.price } := by
  exact if_neg fun hskip => skipped_iff_not_counted.mp hskip h

/-- **A fill and its fee.**  The fee of a fill only lessens the profit. -/
theorem addFill_withoutFee :
    pass.addFill base quote row =
      (pass.addFill base quote row.withoutFee).less (passFee base quote row) := by
  by_cases hcounted : row.Counted
  · have hfree : rowCommission base quote (fun _ => none) row.withoutFee = 0 := rfl
    rw [passFee, if_pos hcounted, addFill_counted hcounted,
      @addFill_counted _ _ row.withoutFee _ hcounted, hfree]
    by_cases hside : lowered row.side = "buy"
    · rw [if_pos hside, if_pos (show lowered row.withoutFee.side = "buy" from hside)]
      simp only [FifoPass.less, FifoPass.mk.injEq]
      refine ⟨?_, rfl, rfl, rfl⟩
      rw [sub_zero]
      exact sub_add_eq_add_sub _ _ _
    · rw [if_neg hside, if_neg (show lowered row.withoutFee.side ≠ "buy" from hside)]
      simp only [FifoPass.less, FifoPass.mk.injEq]
      refine ⟨?_, rfl, rfl, rfl⟩
      rw [sub_zero]
      exact sub_add_eq_add_sub _ _ _
  · have hskipped : ¬row.withoutFee.Counted := hcounted
    rw [passFee, if_neg hcounted, addFill_skipped hcounted, addFill_skipped hskipped, less_zero]

/-- **The pass and the fees.**  The pass is that of the same rows without fees, less the fees that
it reads. -/
theorem fifoPass_eq_less (rows : List FillRow) :
    fifoPass base quote rows = (fifoPass base quote (rows.map FillRow.withoutFee)).less
      (rows.map (passFee base quote)).sum := by
  induction rows using List.reverseRecOn with
  | nil => exact less_zero.symm
  | append_singleton rows row ih =>
    have hlast : ∀ rows : List FillRow, ∀ row, fifoPass base quote (rows ++ [row]) =
        (fifoPass base quote rows).addFill base quote row := by
      intro rows row
      rw [fifoPass, List.foldl_append]
      rfl
    rw [hlast, ih, addFill_less, addFill_withoutFee, List.map_append, List.map_append,
      List.map_singleton, List.map_singleton, hlast, less_less, List.sum_append, List.sum_singleton,
      add_comm]

end

/-! ## Gross profits -/

section

variable {symbol : String} {funding : ℚ} {live : Option LivePosition}
  {markPrices : String → Option ℚ} {rows rows' : List FillRow}

/-- The rows in the order of the pass. -/
def sortedFills (rows : List FillRow) : List FillRow := rows.insertionSort FillRow.sortsBefore

/-- The rows that the exchange has not valued. -/
def untaggedFills (rows : List FillRow) : List FillRow :=
  rows.filter fun row => row.realizedPnl.isNone

theorem grossRealized_eq :
    (computeRealizedBreakdown symbol rows funding live markPrices).grossRealized =
      ((sortedFills rows).filterMap FillRow.realizedPnl).sum +
        ((fifoPass (splitSymbol symbol).1 (splitSymbol symbol).2
            (untaggedFills (sortedFills rows))).realized +
          ((untaggedFills (sortedFills rows)).map (rowCommission (splitSymbol symbol).1
            (splitSymbol symbol).2 markPrices)).sum) := by
  show (if (sortedFills rows).filterMap FillRow.realizedPnl = [] then _
    else if untaggedFills (sortedFills rows) = [] then _ else _) = _
  by_cases htagged : (sortedFills rows).filterMap FillRow.realizedPnl = []
  · have hall : untaggedFills (sortedFills rows) = sortedFills rows := by
      refine List.filter_eq_self.mpr fun row hrow => ?_
      rw [List.filterMap_eq_nil_iff.mp htagged row hrow]
      rfl
    rw [htagged, hall, List.sum_nil, zero_add]
    rfl
  · rw [if_neg htagged]
    by_cases huntagged : untaggedFills (sortedFills rows) = []
    · rw [huntagged]
      show _ = _ + ((0 : ℚ) + 0)
      rw [add_zero, add_zero]
      rfl
    · rw [if_neg huntagged]
      rfl

theorem sortedFills_withoutFee (rows : List FillRow) :
    sortedFills (rows.map FillRow.withoutFee) = (sortedFills rows).map FillRow.withoutFee :=
  (@List.map_insertionSort _ _ FillRow.sortsBefore FillRow.sortsBefore _ _ FillRow.withoutFee rows
    fun _ _ _ _ => Iff.rfl).symm

theorem untaggedFills_withoutFee (rows : List FillRow) :
    untaggedFills (rows.map FillRow.withoutFee) = (untaggedFills rows).map FillRow.withoutFee :=
  List.filter_map

/-- **The gross profit and the fees.**  The gross profit is that of the same rows without fees, and
the fees that the pass leaves out. -/
theorem grossRealized_withoutFee :
    (computeRealizedBreakdown symbol rows funding live markPrices).grossRealized =
      (computeRealizedBreakdown symbol (rows.map FillRow.withoutFee) funding live
        markPrices).grossRealized +
        missedFees (splitSymbol symbol).1 (splitSymbol symbol).2 markPrices rows := by
  have hperm : (untaggedFills (sortedFills rows)).Perm (untaggedFills rows) :=
    (List.perm_insertionSort FillRow.sortsBefore rows).filter _
  have hmissed : missedFees (splitSymbol symbol).1 (splitSymbol symbol).2 markPrices rows =
      ((untaggedFills (sortedFills rows)).map
        (missedFee (splitSymbol symbol).1 (splitSymbol symbol).2 markPrices)).sum :=
    (hperm.map _).sum_eq.symm
  rw [grossRealized_eq, grossRealized_eq, sortedFills_withoutFee, untaggedFills_withoutFee,
    hmissed, fifoPass_eq_less, List.filterMap_map, List.map_map]
  generalize untaggedFills (sortedFills rows) = untagged
  have hcommission : (untagged.map (rowCommission (splitSymbol symbol).1 (splitSymbol symbol).2
      markPrices)).sum =
      (untagged.map (passFee (splitSymbol symbol).1 (splitSymbol symbol).2)).sum +
        (untagged.map
          (missedFee (splitSymbol symbol).1 (splitSymbol symbol).2 markPrices)).sum := by
    rw [← List.sum_map_add]
    exact congrArg List.sum (List.map_congr_left fun row _ => rowCommission_eq_add)
  have hfree : (untagged.map (rowCommission (splitSymbol symbol).1 (splitSymbol symbol).2
      markPrices ∘ FillRow.withoutFee)).sum = 0 :=
    List.sum_eq_zero fun fee hfee => by
      obtain ⟨row, _, rfl⟩ := List.mem_map.mp hfee
      rfl
  have htagged : FillRow.realizedPnl ∘ FillRow.withoutFee = FillRow.realizedPnl := rfl
  rw [hcommission, hfree, htagged, FifoPass.less]
  ring

theorem missedFees_eq_zero {base quote : String} :
    missedFees base quote markPrices rows = 0 ↔
      ∀ row ∈ rows, row.realizedPnl = none → missedFee base quote markPrices row = 0 := by
  have hmem : ∀ fee, fee ∈ (rows.filter fun row => row.realizedPnl.isNone).map
      (missedFee base quote markPrices) ↔
        ∃ row ∈ rows, row.realizedPnl = none ∧ missedFee base quote markPrices row = fee := by
    intro fee
    simp only [List.mem_map, List.mem_filter, Option.isNone_iff_eq_none, and_assoc]
  constructor
  · intro hsum row hrow hpnl
    refine List.all_zero_of_le_zero_le_of_sum_eq_zero (fun fee hfee => ?_) hsum
      ((hmem _).mpr ⟨row, hrow, hpnl, rfl⟩)
    obtain ⟨_, _, _, rfl⟩ := (hmem fee).mp hfee
    exact missedFee_nonneg
  · intro hnone
    refine List.sum_eq_zero fun fee hfee => ?_
    obtain ⟨row, hrow, hpnl, rfl⟩ := (hmem fee).mp hfee
    exact hnone row hrow hpnl

/-- **Gross profits and fees.**  Two lists of fills that differ in their fees alone have the same
gross profit exactly if the fees that the pass leaves out sum to the same.  The net profit is the
gross one of the fills without fees, less their commission, with the funding, exactly if the pass
leaves out the fee of no fill that the exchange has not valued. -/
theorem grossRealized_iff (symbol : String) (funding : ℚ) (live : Option LivePosition)
    (markPrices : String → Option ℚ) (rows rows' : List FillRow)
    (h : rows.map FillRow.withoutFee = rows'.map FillRow.withoutFee) :
    ((computeRealizedBreakdown symbol rows funding live markPrices).grossRealized =
        (computeRealizedBreakdown symbol rows' funding live markPrices).grossRealized ↔
      missedFees (splitSymbol symbol).1 (splitSymbol symbol).2 markPrices rows =
        missedFees (splitSymbol symbol).1 (splitSymbol symbol).2 markPrices rows') ∧
    ((computeRealizedBreakdown symbol rows funding live markPrices).netRealized =
        (computeRealizedBreakdown symbol (rows.map FillRow.withoutFee) funding live
            markPrices).grossRealized -
          (rows.map (rowCommission (splitSymbol symbol).1 (splitSymbol symbol).2 markPrices)).sum +
          funding ↔
      ∀ row ∈ rows, row.realizedPnl = none →
        missedFee (splitSymbol symbol).1 (splitSymbol symbol).2 markPrices row = 0) := by
  constructor
  · rw [grossRealized_withoutFee, @grossRealized_withoutFee _ _ _ _ rows', h]
    exact add_right_inj _
  · have hcommission : (computeRealizedBreakdown symbol rows funding live markPrices).commission =
        (rows.map (rowCommission (splitSymbol symbol).1 (splitSymbol symbol).2 markPrices)).sum :=
      ((List.perm_insertionSort FillRow.sortsBefore rows).map _).sum_eq
    have hfunding : (computeRealizedBreakdown symbol rows funding live markPrices).funding =
        funding := rfl
    rw [← missedFees_eq_zero, RealizedBreakdown.netRealized, hcommission, hfunding,
      grossRealized_withoutFee]
    constructor
    · intro hnet
      linarith only [hnet]
    · intro hmissed
      rw [hmissed, add_zero]

end

/-- Fees in the quote and in the base currency are taken off once. -/
theorem grossRealized_flipping :
    (computeRealizedBreakdown "BTC/USDT" flippingFills 0 none fun _ => none).grossRealized =
        (computeRealizedBreakdown "BTC/USDT" (flippingFills.map FillRow.withoutFee) 0 none
          fun _ => none).grossRealized ∧
      (computeRealizedBreakdown "BTC/USDT" flippingFills 0 none fun _ => none).netRealized =
        (computeRealizedBreakdown "BTC/USDT" (flippingFills.map FillRow.withoutFee) 0 none
            fun _ => none).grossRealized -
          (flippingFills.map (rowCommission (splitSymbol "BTC/USDT").1 (splitSymbol "BTC/USDT").2
            fun _ => none)).sum + 0 := by
  have hiff := grossRealized_iff "BTC/USDT" 0 none (fun _ => none) flippingFills
    (flippingFills.map FillRow.withoutFee) (by decide +kernel)
  exact ⟨hiff.1.mpr (by decide +kernel), hiff.2.mpr (by decide +kernel)⟩

/-- A buy of one coin whose fee is a hundredth of a third coin. -/
def thirdAssetFill : FillRow where
  id := "1"
  tradedAt := some 1
  side := "buy"
  amount := 1
  price := 100
  feeCost := 1 / 100
  feeCurrency := some "BNB"
  realizedPnl := none

/-- **A fee that is added back only.**  With a mark price for the third coin the gross profit of a
single buy is its fee. -/
theorem not_grossRealized_thirdAsset :
    ¬∀ (symbol : String) (funding : ℚ) (live : Option LivePosition)
      (markPrices : String → Option ℚ) (rows rows' : List FillRow),
      rows.map FillRow.withoutFee = rows'.map FillRow.withoutFee →
        (computeRealizedBreakdown symbol rows funding live markPrices).grossRealized =
          (computeRealizedBreakdown symbol rows' funding live markPrices).grossRealized := by
  intro hall
  have hgross := hall "BTC/USDT" 0 none (fun asset => if asset = "BNB" then some 600 else none)
    [thirdAssetFill] [thirdAssetFill.withoutFee] rfl
  revert hgross
  decide +kernel

end AdviserConstructor
