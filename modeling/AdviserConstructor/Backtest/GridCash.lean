import AdviserConstructor.Backtest.GridBot
import AdviserConstructor.Library.LoopTurns

/-!
# The cash of the grid bot

A level is bought while the cash covers the amount of an order, but an order costs its amount and
its fee.  So the last order that the cash covers can take the cash below zero, by a part of its fee.

* `neverOverdrawn_iff`: the cash is never negative exactly if it covers the fee of every order that
  it covers, and nothing that is sold costs more than there is.
-/

namespace AdviserConstructor

namespace Backtest

open LoopTurns

/-! ## The states of the loops -/

section

variable (p : GridParams) (df : Frame)

/-- The mean of bar `i` that the grid lies below; the bar is skipped if there is none. -/
def gridCenter (i : ℕ) : Option ℚ := (rolling mean df.closes p.maPeriod i).filter (0 < ·)

def gridLevels : List ℕ := List.range' 1 p.gridsDown.toNat

def gridBars : List ℕ := List.range' (p.maPeriod + 2) (df.length - (p.maPeriod + 2))

def gridStart : GridState := { cash := p.initialCapitalUsdt }

/-- The state behind the orders of bar `i`. -/
def gridFilled (center : ℚ) (st : GridState) (i : ℕ) : GridState :=
  (gridLevels p).foldl (fillLevel p (df.bar i) center) st

/-- The positions that are taken off on bar `i`. -/
def gridTaken (center : ℚ) (st : GridState) (i : ℕ) : List GridPosition :=
  (gridFilled p df center st i).positions.filter fun pos =>
    decide (takePrice p pos ≤ (df.bar i).high)

/-- A position is taken off on bar `i`. -/
def takeOff (i : ℕ) (st : GridState) (pos : GridPosition) : GridState :=
  st.close p pos (takePrice p pos) (df.bar i).time .gridTp

/-- A position is closed at the end of the data. -/
def closeAtEnd (st : GridState) (pos : GridPosition) : GridState :=
  st.close p pos (df.bar (df.length - 1)).close (df.bar (df.length - 1)).time .eodClose

/-- The positions that are closed at the end of the data. -/
def gridLeft : List GridPosition :=
  if p.closeOpenPositionsOnEod then (runBars p df).positions else []

/-- The states of the inner loops of bar `i`. -/
def innerStates (st : GridState) (i : ℕ) : List GridState :=
  match gridCenter p df i with
  | none => []
  | some center =>
      (gridLevels p).scanl (fillLevel p (df.bar i) center) st ++
        (gridTaken p df center st i).scanl (takeOff p df i) (gridFilled p df center st i)

/-- All states that the loops of `grid_bot_backtest` go through. -/
def gridStates : List GridState :=
  (gridBars p df).scanl (gridBar p df) (gridStart p) ++
    (turns (gridBar p df) (gridStart p) (gridBars p df)).flatMap
      (fun v => innerStates p df v.1 v.2) ++
    (gridLeft p df).scanl (closeAtEnd p df) (runBars p df)

/-- An order is made for the level: it is free, the bar reaches it, and the cash covers the
amount. -/
def Orders (bar : Bar) (center : ℚ) (st : GridState) (level : ℕ) : Prop :=
  ((∀ pos ∈ st.positions, pos.level ≠ level) ∧ bar.low ≤ center * (1 - p.spacing * level)) ∧
    p.perOrderUsdt ≤ st.cash

/-- The cash covers the fee of every order that is made. -/
def FillsFunded : Prop :=
  ∀ v ∈ turns (gridBar p df) (gridStart p) (gridBars p df), ∀ center ∈ gridCenter p df v.2,
    ∀ w ∈ turns (fillLevel p (df.bar v.2) center) v.1 (gridLevels p),
      Orders p (df.bar v.2) center w.1 w.2 → p.perOrderUsdt * (1 + p.fee) ≤ w.1.cash

/-- There is no debt at first, the cash covers the fee of every order that is made, and it covers
what a sale costs, if its proceeds are negative. -/
structure Funded : Prop where
  capital : 0 ≤ p.initialCapitalUsdt
  fills : FillsFunded p df
  takes : ∀ v ∈ turns (gridBar p df) (gridStart p) (gridBars p df), ∀ center ∈ gridCenter p df v.2,
    ∀ w ∈ turns (takeOff p df v.2) (gridFilled p df center v.1 v.2) (gridTaken p df center v.1 v.2),
      -(takePrice p w.2 * w.2.qty * (1 - p.fee)) ≤ w.1.cash
  closes : ∀ w ∈ turns (closeAtEnd p df) (runBars p df) (gridLeft p df),
    -((df.bar (df.length - 1)).close * w.2.qty * (1 - p.fee)) ≤ w.1.cash

end

/-! ## The turns of the loops -/

section

variable {p : GridParams} {df : Frame} {st : GridState} {i : ℕ} {center : ℚ}

theorem gridBar_of_none (hcenter : gridCenter p df i = none) : gridBar p df st i = st := by
  rw [gridBar]
  rw [gridCenter] at hcenter
  cases hmean : rolling mean df.closes p.maPeriod i with
  | none => rfl
  | some center =>
    rw [hmean, Option.filter_some, ite_eq_right_iff] at hcenter
    dsimp only
    by_cases hpos : center ≤ 0
    · rw [if_pos hpos]
    · cases hcenter (decide_eq_true (not_le.mp hpos))

theorem cash_gridBar (hcenter : gridCenter p df i = some center) :
    (gridBar p df st i).cash =
      ((gridTaken p df center st i).foldl (takeOff p df i) (gridFilled p df center st i)).cash := by
  obtain ⟨hmean, hpos⟩ := Option.filter_eq_some_iff.mp hcenter
  have hnot : ¬center ≤ 0 := not_le.mpr (of_decide_eq_true hpos)
  rw [gridBar, hmean]
  dsimp only
  rw [if_neg hnot]
  rfl

theorem cash_fillLevel {bar : Bar} {level : ℕ} (h : 0 ≤ st.cash) :
    0 ≤ (fillLevel p bar center st level).cash ↔
      (Orders p bar center st level → p.perOrderUsdt * (1 + p.fee) ≤ st.cash) := by
  rcases fillLevel_cases bar center st level with ⟨horder, heq⟩ | ⟨hnot, heq⟩
  · rw [heq]
    exact sub_nonneg.trans ⟨fun hle _ => hle, fun hle => hle horder⟩
  · rw [heq]
    exact iff_of_true h fun horder => absurd horder hnot

theorem cash_close (pos : GridPosition) (price : ℚ) (time : ℤ) (reason : RowExit) :
    0 ≤ (st.close p pos price time reason).cash ↔
      -(price * pos.qty * (1 - p.fee)) ≤ st.cash := by
  rw [neg_le_iff_add_nonneg]
  rfl

/-- **A bar** leaves no debt inside its loops exactly if the cash covers what its orders and its
sales cost. -/
theorem innerStates_iff (h : 0 ≤ st.cash) :
    (∀ t ∈ innerStates p df st i, 0 ≤ t.cash) ↔ ∀ center ∈ gridCenter p df i,
      (∀ w ∈ turns (fillLevel p (df.bar i) center) st (gridLevels p),
        Orders p (df.bar i) center w.1 w.2 → p.perOrderUsdt * (1 + p.fee) ≤ w.1.cash) ∧
      ∀ w ∈ turns (takeOff p df i) (gridFilled p df center st i) (gridTaken p df center st i),
        -(takePrice p w.2 * w.2.qty * (1 - p.fee)) ≤ w.1.cash := by
  rw [innerStates]
  cases gridCenter p df i with
  | none =>
    constructor
    · intro _ center hcenter
      cases hcenter
    · intro _ t ht
      cases ht
  | some center =>
    have hfills := @forall_scanl_iff _ _ (fillLevel p (df.bar i) center) st (gridLevels p)
      (fun t => 0 ≤ t.cash) _ fun v _ hcash => cash_fillLevel hcash
    have htakes := @forall_scanl_iff _ _ (takeOff p df i) (gridFilled p df center st i)
      (gridTaken p df center st i) (fun t => 0 ≤ t.cash) _ fun v _ _ =>
        cash_close v.2 (takePrice p v.2) (df.bar i).time .gridTp
    simp only [List.mem_append, or_imp, forall_and, Option.mem_def, Option.some.injEq, forall_eq']
    rw [hfills, htakes, and_iff_right h]
    constructor
    · rintro ⟨hfills', _, htakes'⟩
      exact ⟨hfills', htakes'⟩
    · rintro ⟨hfills', htakes'⟩
      exact ⟨hfills', hfills.mpr ⟨h, hfills'⟩ _ foldl_mem_scanl, htakes'⟩

theorem cash_gridBar_nonneg (h : 0 ≤ st.cash) (hinner : ∀ t ∈ innerStates p df st i, 0 ≤ t.cash) :
    0 ≤ (gridBar p df st i).cash := by
  cases hcenter : gridCenter p df i with
  | none =>
    rw [gridBar_of_none hcenter]
    exact h
  | some center =>
    rw [cash_gridBar hcenter]
    refine hinner _ ?_
    rw [innerStates, hcenter]
    exact List.mem_append_right _ foldl_mem_scanl

end

/-- **The grid and its cash.**  The cash is never negative exactly if there is no debt at first, the
cash covers the fee of every order that is made, and it covers what the sales cost. -/
theorem neverOverdrawn_iff (p : GridParams) (df : Frame) :
    (∀ st ∈ gridStates p df, 0 ≤ st.cash) ↔ Funded p df := by
  have hcloses := @forall_scanl_iff _ _ (closeAtEnd p df) (runBars p df) (gridLeft p df)
    (fun t => 0 ≤ t.cash) _ fun v _ _ => cash_close v.2 (df.bar (df.length - 1)).close
      (df.bar (df.length - 1)).time .eodClose
  simp only [gridStates, List.mem_append, List.mem_flatMap, or_imp, forall_and,
    forall_exists_index, and_imp]
  constructor
  · rintro ⟨⟨hbars, hinner⟩, hend⟩
    have hturn : ∀ v ∈ turns (gridBar p df) (gridStart p) (gridBars p df), _ := fun v hv =>
      (innerStates_iff (hbars _ (mem_scanl_of_mem_turns hv))).mp fun t ht => hinner t v hv ht
    exact
      { capital := hbars _ start_mem_scanl
        fills := fun v hv center hcenter => (hturn v hv center hcenter).1
        takes := fun v hv center hcenter => (hturn v hv center hcenter).2
        closes := (hcloses.mp hend).2 }
  · intro h
    have hturn : ∀ v ∈ turns (gridBar p df) (gridStart p) (gridBars p df), 0 ≤ v.1.cash →
        ∀ t ∈ innerStates p df v.1 v.2, 0 ≤ t.cash := fun v hv hcash =>
      (innerStates_iff hcash).mpr fun center hcenter =>
        ⟨h.fills v hv center hcenter, h.takes v hv center hcenter⟩
    have hbars := @forall_scanl_of_turns _ _ (gridBar p df) (gridStart p) (gridBars p df)
      (fun t => 0 ≤ t.cash) h.capital fun v hv hcash =>
        cash_gridBar_nonneg hcash (hturn v hv hcash)
    refine ⟨⟨hbars, fun t v hv => hturn v hv (hbars _ (mem_scanl_of_mem_turns hv)) t⟩, ?_⟩
    exact hcloses.mpr ⟨hbars _ foldl_mem_scanl, h.closes⟩

/-! ## Sales that cost nothing -/

section

variable {p : GridParams} {df : Frame} {st : GridState} {i : ℕ} {center : ℚ}

end

/-- A grid of one level, whose order takes the whole capital. -/
theorem not_neverOverdrawn_oneLevel :
    ¬∀ (p : GridParams) (df : Frame), 0 ≤ p.feePct → 0 < p.perOrderUsdt →
      ∀ st ∈ gridStates p df, 0 ≤ st.cash := by
  intro h
  have hneg : ∃ st ∈ gridStates oneLevel (fallFrame 97), st.cash < 0 := by decide +kernel
  obtain ⟨st, hst, hcash⟩ := hneg
  exact absurd hcash (not_lt.mpr
    (h oneLevel (fallFrame 97) (by decide +kernel) (by decide +kernel) st hst))

end Backtest

end AdviserConstructor
