import AdviserConstructor.Ledger.FuturesPnl

/-!
# What the lots have realized, without the lots

The pass matches a fill with the oldest open lots of the other side.  Over all fills this pairs the
first unit sold with the first unit bought, the second with the second, and so on as long as both
sides have units, whichever of the two was traded first; the lots are the units that are left over.

* `fifoPass_paired`: the lots of either side are its units beyond the paired ones;
* `fifoPass_realized`: the pass has realized what the paired units were sold for, less what they
  were bought for and the fees.

Fills without a quantity, a price or a side are passed over; the others have quantities on a grid.
-/

namespace AdviserConstructor

open DecimalText LotQueue

def FillRow.Traded (row : FillRow) : Prop :=
  0 < row.amount ∧ 0 < row.price ∧ (lowered row.side = "buy" ∨ lowered row.side = "sell")

instance : DecidablePred FillRow.Traded := fun row =>
  inferInstanceAs (Decidable (0 < row.amount ∧ 0 < row.price ∧
    (lowered row.side = "buy" ∨ lowered row.side = "sell")))

def sideLots (side : String) (rows : List FillRow) : List (Lot ℚ) :=
  (rows.filter (lowered ·.side = side)).map fun row => ⟨row.amount, row.price⟩

/-- As many units as both sides have: what they were sold for, less what they were bought for. -/
def pairedGain (rows : List FillRow) : ℚ :=
  firstUnits id (min (buys rows) (sells rows)) (sideLots "sell" rows) -
    firstUnits id (min (buys rows) (sells rows)) (sideLots "buy" rows)

/-- The lots are the units beyond the paired ones. -/
structure Paired (rows : List FillRow) (pass : FifoPass) : Prop where
  longLots : Beyond (min (buys rows) (sells rows)) (sideLots "buy" rows) pass.longLots
  shortLots : Beyond (min (buys rows) (sells rows)) (sideLots "sell" rows) pass.shortLots

section Paired

variable {base quote : String} {step : ℚ} {rows : List FillRow} {row : FillRow} {pass : FifoPass}

theorem sideLots_append (side : String) (rows : List FillRow) (row : FillRow) :
    sideLots side (rows ++ [row]) =
      sideLots side rows ++ if lowered row.side = side then [⟨row.amount, row.price⟩] else [] := by
  by_cases hside : lowered row.side = side
  · simp [sideLots, hside]
  · simp [sideLots, hside]

theorem sideLots_nonneg (side : String) (hrows : ∀ row ∈ rows, IsFill step row) :
    ∀ lot ∈ sideLots side rows, 0 ≤ lot.qty := by
  intro lot hlot
  obtain ⟨row, hrow, rfl⟩ := List.mem_map.mp hlot
  exact (hrows row (List.mem_of_mem_filter hrow)).amount_pos.le

theorem quantity_sideLots (side : String) (rows : List FillRow) :
    quantity (sideLots side rows) =
      (rows.map fun row => if lowered row.side = side then row.amount else 0).sum := by
  induction rows with
  | nil => rfl
  | cons row rows ih =>
    rw [List.map_cons, List.sum_cons, ← ih]
    by_cases hside : lowered row.side = side
    · simp [sideLots, hside]
    · simp [sideLots, hside]

theorem cashFlow_eq (hrows : ∀ row ∈ rows, IsFill step row) :
    cashFlow rows = valued id (sideLots "sell" rows) - valued id (sideLots "buy" rows) := by
  induction rows with
  | nil => simp [cashFlow, sideLots]
  | cons row rows ih =>
    obtain ⟨hrow, hrest⟩ := List.forall_mem_cons.mp hrows
    have hrestFlow := ih hrest
    rw [cashFlow] at hrestFlow ⊢
    rw [List.map_cons, List.sum_cons, hrestFlow, FillRow.cashFlow]
    rcases hrow.side with hside | hside
    · simp [sideLots, hside]
      ring
    · simp [sideLots, hside]
      ring

/-- **A fill keeps the pairing.** -/
theorem Paired.addFill {mark : ℚ} (hstep : lotDust < step)
    (hbalanced : Balanced base quote step mark rows pass) (h : Paired rows pass)
    (hrows : ∀ row ∈ rows, IsFill step row) (hrow : IsFill step row) :
    Paired (rows ++ [row]) (pass.addFill base quote row) := by
  obtain ⟨hbuys, hsells, -, -⟩ := sums_append base quote rows row
  have hbuyUnits : quantity (sideLots "buy" rows) = buys rows := quantity_sideLots "buy" rows
  have hsellUnits : quantity (sideLots "sell" rows) = sells rows := quantity_sideLots "sell" rows
  have hbuyLots := sideLots_nonneg "buy" hrows
  have hsellLots := sideLots_nonneg "sell" hrows
  rcases hrow.side with hside | hside
  · have hother : lowered row.side ≠ "sell" := by rw [hside]; decide
    have hturn := turn_beyond (fun entryPrice => entryPrice - row.price) row.price lotDust_pos.le
      hstep hrow.amount_onGrid hrow.amount_pos hbalanced.shortLots_isLot hbalanced.longLots_isLot
      hsellLots hbuyLots (by rw [hbuyUnits, hsellUnits]; exact h.shortLots)
      (by rw [hbuyUnits, hsellUnits]; exact h.longLots)
    rw [hbuyUnits, hsellUnits] at hturn
    rw [addFill_buy hrow hside]
    constructor
    · rw [hbuys, hsells, if_pos hside, if_neg hother, add_zero, sideLots_append, if_pos hside]
      exact hturn.2
    · rw [hbuys, hsells, if_pos hside, if_neg hother, add_zero, sideLots_append, if_neg hother,
        List.append_nil]
      exact hturn.1
  · have hother : lowered row.side ≠ "buy" := by rw [hside]; decide
    have hturn := turn_beyond (fun entryPrice => row.price - entryPrice) row.price lotDust_pos.le
      hstep hrow.amount_onGrid hrow.amount_pos hbalanced.longLots_isLot hbalanced.shortLots_isLot
      hbuyLots hsellLots (by rw [hbuyUnits, hsellUnits, min_comm]; exact h.longLots)
      (by rw [hbuyUnits, hsellUnits, min_comm]; exact h.shortLots)
    rw [hbuyUnits, hsellUnits, min_comm] at hturn
    rw [addFill_sell hrow hside]
    constructor
    · rw [hbuys, hsells, if_pos hside, if_neg hother, add_zero, sideLots_append, if_neg hother,
        List.append_nil]
      exact hturn.1
    · rw [hbuys, hsells, if_pos hside, if_neg hother, add_zero, sideLots_append, if_pos hside]
      exact hturn.2

/-- **The pass pairs the units in the order in which they were traded.** -/
theorem fifoPass_paired (hstep : lotDust < step) (rows : List FillRow)
    (hrows : ∀ row ∈ rows, IsFill step row) : Paired rows (fifoPass base quote rows) := by
  induction rows using List.reverseRecOn with
  | nil =>
    constructor <;> intro f n _ <;> simp [fifoPass, sideLots, firstUnits]
  | append_singleton rows row ih =>
    have hbefore : ∀ row' ∈ rows, IsFill step row' :=
      fun row' hmem => hrows row' (List.mem_append_left _ hmem)
    have hrow := hrows row (List.mem_append_right _ (List.mem_singleton_self row))
    rw [fifoPass, List.foldl_append]
    have hbalanced : Balanced base quote step 0 rows (fifoPass base quote rows) :=
      fifoPass_balanced hstep rows hbefore
    exact (ih hbefore).addFill hstep hbalanced hbefore hrow

theorem valued_neg (lots : List (Lot ℚ)) :
    valued (fun entryPrice => 0 - entryPrice) lots = -valued id lots := by
  induction lots with
  | nil => simp
  | cons lot lots ih =>
    rw [valued_cons, valued_cons, ih, id]
    ring

theorem valued_sub_zero (lots : List (Lot ℚ)) :
    valued (fun entryPrice => entryPrice - 0) lots = valued id lots := by
  simp only [valued, sub_zero, id]

theorem fifoPass_realized_of_isFill (hstep : lotDust < step) (rows : List FillRow)
    (hrows : ∀ row ∈ rows, IsFill step row) :
    (fifoPass base quote rows).realized = pairedGain rows - commissions base quote rows := by
  have hbalanced : Balanced base quote step 0 rows (fifoPass base quote rows) :=
    fifoPass_balanced hstep rows hrows
  have hpaired : Paired rows (fifoPass base quote rows) := fifoPass_paired hstep rows hrows
  have hbuyLots := sideLots_nonneg "buy" hrows
  have hsellLots := sideLots_nonneg "sell" hrows
  have hmatched : 0 ≤ min (buys rows) (sells rows) := by
    have hbuyUnits : quantity (sideLots "buy" rows) = buys rows := quantity_sideLots "buy" rows
    have hsellUnits : quantity (sideLots "sell" rows) = sells rows := quantity_sideLots "sell" rows
    rw [← hbuyUnits, ← hsellUnits]
    exact le_min (quantity_nonneg hbuyLots) (quantity_nonneg hsellLots)
  -- at the price 0 the open lots are worth what they cost
  have hcash := hbalanced.cash
  rw [mul_zero, valued_neg, valued_sub_zero, cashFlow_eq hrows,
    hpaired.longLots.valued_eq hmatched hbuyLots
      (fun lot h => (hbalanced.longLots_isLot lot h).nonneg),
    hpaired.shortLots.valued_eq hmatched hsellLots
      (fun lot h => (hbalanced.shortLots_isLot lot h).nonneg)] at hcash
  rw [pairedGain]
  linarith

theorem addFill_of_not_traded (h : ¬row.Traded) : pass.addFill base quote row = pass := by
  have hskip : max 0 row.amount ≤ 0 ∨ max 0 row.price ≤ 0 ∨
      (lowered row.side ≠ "buy" ∧ lowered row.side ≠ "sell") := by
    by_contra hnone
    simp only [not_or, max_le_iff, le_refl, true_and, not_le] at hnone
    exact h ⟨hnone.1, hnone.2.1, by
      by_contra hside
      exact hnone.2.2 (not_or.mp hside)⟩
  exact if_pos hskip

theorem fifoPass_filter_traded (rows : List FillRow) :
    fifoPass base quote (rows.filter FillRow.Traded) = fifoPass base quote rows := by
  induction rows using List.reverseRecOn with
  | nil => rfl
  | append_singleton rows row ih =>
    rw [fifoPass, fifoPass] at ih ⊢
    rw [List.filter_append, List.foldl_append, ih]
    by_cases htraded : row.Traded
    · simp [htraded]
    · simp [htraded, addFill_of_not_traded]

/-- **What the lots have realized**: the gain of the paired units, less the fees. -/
theorem fifoPass_realized (hstep : lotDust < step) (rows : List FillRow)
    (hrows : ∀ row ∈ rows, row.Traded → OnGrid step row.amount) :
    (fifoPass base quote rows).realized = pairedGain (rows.filter FillRow.Traded) -
      commissions base quote (rows.filter FillRow.Traded) := by
  rw [← fifoPass_filter_traded]
  refine fifoPass_realized_of_isFill hstep _ fun row hmem => ?_
  obtain ⟨hrow, htraded⟩ := List.mem_filter.mp hmem
  have htraded : row.Traded := of_decide_eq_true htraded
  exact ⟨hrows row hrow htraded, htraded.1, htraded.2.1, htraded.2.2⟩

end Paired

end AdviserConstructor
