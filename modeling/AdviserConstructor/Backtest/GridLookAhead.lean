import AdviserConstructor.Backtest.AiForecast
import AdviserConstructor.Backtest.FillPrices

/-!
# What the size of a grid order knows

`run_grid` of `app/services/backtesting/service.py` lets the forecast decide how much the grid bot
risks: a bar that the forecast calls flat halves the risk.  The engine takes one size for the whole
run, so the service averages the multipliers of all bars and scales the amounts of the payload by
the mean before the first bar is simulated.  A forecast that is made behind a bar thus reaches the
orders that were filled before it.

* `gridOrders_eq_nil_iff`: nothing is bought up to a bar exactly if no bar up to it reaches a level,
  or the capital does not cover an order.
* `gridOrders_of_scaled`: a grid whose capital and order are scaled buys at the same prices, and the
  scaled quantities.
* `applyAiGridRiskMultiplier_eq`: what the service makes of a payload is the payload scaled by the
  multiplier of the window, whether there are forecast rows or not.
* `noLookAhead_iff`: the orders up to a bar depend on no later forecast exactly if no bar follows,
  or the amounts are not scaled, or are zero, or a grid of half the size buys nothing.
-/

namespace AdviserConstructor

namespace Backtest

namespace GridLookAhead

open LoopTurns

/-! ## The payload -/

/-- The payload of `run_grid`.  A key may be missing, and a key that is given may be null. -/
structure GridPayload where
  runWithAi : Bool := false
  aiBullConfidenceThreshold : Option ℚ := none
  aiBearConfidenceThreshold : Option ℚ := none
  allocationUsdt : Option (Option ℚ) := none
  initialCapitalUsdt : Option (Option ℚ) := none
  orderSizeUsdt : Option (Option ℚ) := none
  maPeriod : ℕ := 50
  gridSpacingPct : ℚ := 1 / 2
  gridsDown : ℤ := 8
  closeOpenPositionsOnEod : Bool := true
  costs : CostParams := {}

namespace GridPayload

/-- `_thresholds_from_payload`. -/
def thresholds (payload : GridPayload) : Thresholds where
  bull := payload.aiBullConfidenceThreshold.getD 52
  bear := payload.aiBearConfidenceThreshold.getD 52

/-- The key that the capital is read from, if one of the two is given. -/
def capitalKey (payload : GridPayload) : Option (Option ℚ) :=
  payload.initialCapitalUsdt.or payload.allocationUsdt

/-- The parameters that `run_grid_bot` reads from its payload. -/
def params (payload : GridPayload) : Except String GridParams :=
  match payload.capitalKey.getD (some 1000) with
  | none => .error "float() argument must be a string or a real number, not 'NoneType'"
  | some capital =>
      .ok
        { maPeriod := payload.maPeriod
          gridSpacingPct := payload.gridSpacingPct
          gridsDown := payload.gridsDown
          initialCapitalUsdt := capital
          orderSizeUsdt := payload.orderSizeUsdt.join
          closeOpenPositionsOnEod := payload.closeOpenPositionsOnEod
          costs := payload.costs }

/-- The amounts of the payload that are given are multiplied. -/
def scaled (payload : GridPayload) (multiplier : ℚ) : GridPayload :=
  { payload with
    allocationUsdt := payload.allocationUsdt.map (Option.map (· * multiplier))
    initialCapitalUsdt := payload.initialCapitalUsdt.map (Option.map (· * multiplier))
    orderSizeUsdt := payload.orderSizeUsdt.map (Option.map (· * multiplier)) }

/-- An amount that the orders are sized by is given, and so is scaled. -/
def Scales (payload : GridPayload) : Prop :=
  payload.capitalKey.isSome ∨ payload.orderSizeUsdt.join.isSome

end GridPayload

/-! ## The multiplier -/

def riskMultiplier (bar : OverlayBar) : ℚ := if bar.regime = .flat ∧ bar.applied then 1 / 2 else 1

/-- `resolve_ai_risk_multiplier_per_bar`. -/
def resolveAiRiskMultiplierPerBar (s : FrameSort) (marketIndex : List ℤ) (rows : List AiRow)
    (th : Thresholds) : Except String (List ℚ) :=
  (resolveAiForecastOverlayPerBar s marketIndex rows .flat th).map (List.map riskMultiplier)

/-- `math.isclose`. -/
def isClose (a b : ℚ) : Bool := decide (|a - b| ≤ 1 / 1000000000 * max |a| |b|)

/-- The multiplier that the payload is scaled by. -/
def windowMultiplier (multipliers : List ℚ) : ℚ :=
  if multipliers ≠ [] then mean multipliers else 1

/-- `_apply_ai_grid_risk_multiplier`; the rows are those that `_resolve_ai_rows_from_payload`
finds. -/
def applyAiGridRiskMultiplier (s : FrameSort) (df : Frame) (payload : GridPayload)
    (rows : List AiRow) : Except String GridPayload :=
  if payload.runWithAi = false ∨ rows = [] then .ok payload
  else
    (resolveAiRiskMultiplierPerBar s (df.map Bar.time) rows payload.thresholds).map
      fun multipliers =>
        if isClose (windowMultiplier multipliers) 1 then payload
        else payload.scaled (windowMultiplier multipliers)

/-! ## The run -/

/-- The parameters of the engine in a run of `run_grid`. -/
def engineParams (s : FrameSort) (df : Frame) (payload : GridPayload) (rows : List AiRow) :
    Except String GridParams :=
  (applyAiGridRiskMultiplier s df payload rows).bind GridPayload.params

/-- An order of the grid that was filled. -/
structure GridOrder where
  level : ℕ
  entryTime : ℤ
  entry : ℚ
  qty : ℚ
  allocationUsdt : ℚ
  deriving DecidableEq, Repr

def GridOrder.ofPosition (p : GridParams) (pos : GridPosition) : GridOrder where
  level := pos.level
  entryTime := pos.entryTime
  entry := pos.entry
  qty := pos.qty
  allocationUsdt := p.perOrderUsdt

/-- The orders that are filled in a turn of the loop, if its bar is not behind bar `k`. -/
def ordersOn (p : GridParams) (df : Frame) (k : ℕ) (v : GridState × ℕ) : List GridOrder :=
  if v.2 ≤ k then
    (gridCenter p df v.2).toList.flatMap fun center =>
      (gridBought p df center v.1 v.2).map (GridOrder.ofPosition p)
  else []

/-- The orders of the grid that are filled up to bar `k`. -/
def gridOrders (p : GridParams) (df : Frame) (k : ℕ) : List GridOrder :=
  (turns (gridBar p df) (gridStart p) (gridBars p df)).flatMap (ordersOn p df k)

/-- The orders of a run of `run_grid` that are filled up to bar `k`. -/
def ordersUpTo (s : FrameSort) (df : Frame) (payload : GridPayload) (rows : List AiRow) (k : ℕ) :
    Except String (List GridOrder) :=
  (engineParams s df payload rows).map fun p => gridOrders p df k

/-- Two runs whose forecasts agree on the rows that are not after bar `k` have filled the same
orders up to it.  Rows of one time among these say the same, since which of them a bar is joined
with may depend on any row. -/
def NoLookAhead (s : FrameSort) (df : Frame) (payload : GridPayload) (k : ℕ) : Prop :=
  ∀ rows rows', rowsNotAfter rows (df.bar k).time = rowsNotAfter rows' (df.bar k).time →
    TiesAgree rows (df.bar k).time →
    ∀ orders orders', ordersUpTo s df payload rows k = .ok orders →
      ordersUpTo s df payload rows' k = .ok orders' → orders = orders'

/-- A bar up to bar `k` reaches a level of the grid. -/
def Reaches (p : GridParams) (df : Frame) (k : ℕ) : Prop :=
  ∃ i ∈ gridBars p df, i ≤ k ∧ ∃ center ∈ gridCenter p df i, ∃ level ∈ gridLevels p,
    (df.bar i).low ≤ center * (1 - p.spacing * level)

/-- A later forecast decides what is bought up to bar `k`: a bar follows, the forecast scales the
amounts, and a grid of half the size is for something, reaches a level and can pay for it. -/
def LooksAhead (df : Frame) (payload : GridPayload) (k : ℕ) : Prop :=
  payload.runWithAi = true ∧ (∃ bar ∈ df, (df.bar k).time < bar.time) ∧ payload.Scales ∧
    ∃ half, (payload.scaled (1 / 2)).params = .ok half ∧ half.perOrderUsdt ≠ 0 ∧
      half.perOrderUsdt ≤ half.initialCapitalUsdt ∧ Reaches half df k

/-! ## When nothing is bought -/

section

variable {p : GridParams} {df : Frame} {st : GridState} {center : ℚ} {bar : Bar} {i k : ℕ}

theorem fillLevel_of_empty (hempty : st.positions = []) (level : ℕ) :
    ((fillLevel p bar center st level).positions = [] ↔
      ¬(bar.low ≤ center * (1 - p.spacing * level) ∧ p.perOrderUsdt ≤ st.cash)) ∧
    ((fillLevel p bar center st level).positions = [] → fillLevel p bar center st level = st) := by
  rcases fillLevel_cases bar center st level with ⟨⟨⟨-, hlow⟩, hcash⟩, heq⟩ | ⟨hnot, heq⟩
  · rw [heq, hempty]
    exact ⟨iff_of_false (List.cons_ne_nil _ _) (not_not.mpr ⟨hlow, hcash⟩),
      fun h => absurd h (List.cons_ne_nil _ _)⟩
  · rw [heq]
    exact ⟨iff_of_true hempty fun h => hnot ⟨⟨by simp [hempty], h.1⟩, h.2⟩, fun _ => rfl⟩

theorem positions_ne_nil_of_fillLevel {levels : List ℕ} (h : st.positions ≠ []) :
    (levels.foldl (fillLevel p bar center) st).positions ≠ [] := by
  obtain ⟨bought, hpositions, -⟩ := @positions_foldl_fillLevel p center bar levels st
  rw [hpositions]
  exact List.append_ne_nil_of_left_ne_nil h _

theorem foldl_fillLevel_of_empty (hempty : st.positions = []) (levels : List ℕ) :
    ((levels.foldl (fillLevel p bar center) st).positions = [] ↔ ∀ level ∈ levels,
      ¬(bar.low ≤ center * (1 - p.spacing * level) ∧ p.perOrderUsdt ≤ st.cash)) ∧
    ((levels.foldl (fillLevel p bar center) st).positions = [] →
      levels.foldl (fillLevel p bar center) st = st) := by
  induction levels with
  | nil => exact ⟨iff_of_true hempty fun _ h => absurd h List.not_mem_nil, fun _ => rfl⟩
  | cons level levels ih =>
    obtain ⟨hiff, hsame⟩ := @fillLevel_of_empty p st center bar hempty level
    rw [List.foldl_cons, List.forall_mem_cons]
    by_cases hfill : (fillLevel p bar center st level).positions = []
    · rw [hsame hfill, ih.1]
      exact ⟨(and_iff_right (hiff.mp hfill)).symm, fun h => ih.2 (ih.1.mpr h)⟩
    · have hbought := @positions_ne_nil_of_fillLevel p _ center bar levels hfill
      exact ⟨iff_of_false hbought fun h => hfill (hiff.mpr h.1), fun h => absurd h hbought⟩

theorem takeProfits_of_empty (hempty : st.positions = []) : takeProfits p bar st = st := by
  obtain ⟨cash, positions, trades⟩ := st
  subst hempty
  rfl

/-- The bar reaches no level that an empty grid with this cash would buy. -/
def Idle (p : GridParams) (df : Frame) (cash : ℚ) (i : ℕ) : Prop :=
  ∀ center ∈ gridCenter p df i, ∀ level ∈ gridLevels p,
    ¬((df.bar i).low ≤ center * (1 - p.spacing * level) ∧ p.perOrderUsdt ≤ cash)

theorem gridBought_of_empty (hempty : st.positions = []) :
    ((∀ center ∈ gridCenter p df i, gridBought p df center st i = []) ↔ Idle p df st.cash i) ∧
      (Idle p df st.cash i → gridBar p df st i = st) := by
  have hfilled := fun center =>
    @foldl_fillLevel_of_empty p st center (df.bar i) hempty (gridLevels p)
  have hbought : ∀ center, gridBought p df center st i =
      ((gridLevels p).foldl (fillLevel p (df.bar i) center) st).positions := by
    intro center
    rw [gridBought, hempty]
    rfl
  refine ⟨forall₂_congr fun center _ => by rw [hbought, (hfilled center).1], fun hidle => ?_⟩
  cases hcenter : gridCenter p df i with
  | none => exact gridBar_of_none hcenter
  | some center =>
    have hsame := (hfilled center).2 ((hfilled center).1.mpr (hidle center hcenter))
    obtain ⟨hmean, hpos⟩ := Option.filter_eq_some_iff.mp hcenter
    rw [gridBar, hmean]
    dsimp only
    rw [if_neg (not_le.mpr (of_decide_eq_true hpos)), ← gridLevels, hsame]
    exact takeProfits_of_empty hempty

def firstBar (p : GridParams) : ℕ := p.maPeriod + 2

/-- The state before the turn of bar `firstBar p + j`. -/
def gridStateBefore (p : GridParams) (df : Frame) (j : ℕ) : GridState :=
  stateBefore (gridBar p df) (gridStart p) (firstBar p) j

theorem gridStateBefore_of_idle {j : ℕ}
    (h : ∀ j' < j, Idle p df p.initialCapitalUsdt (firstBar p + j')) :
    gridStateBefore p df j = gridStart p := by
  induction j with
  | zero => rfl
  | succ j ih =>
    rw [gridStateBefore, stateBefore_succ, ← gridStateBefore,
      ih fun j' hj' => h j' (Nat.lt_succ_of_lt hj')]
    exact (@gridBought_of_empty p df (gridStart p) _ rfl).2 (h j (Nat.lt_succ_self j))

theorem ordersOn_eq_nil_iff (hempty : st.positions = []) (hi : i ≤ k) :
    ordersOn p df k (st, i) = [] ↔ Idle p df st.cash i := by
  rw [ordersOn, if_pos hi, List.flatMap_eq_nil_iff, ← (gridBought_of_empty hempty).1]
  exact forall_congr' fun center => imp_congr Option.mem_toList List.map_eq_nil_iff

/-- **Nothing is bought up to bar `k`** exactly if the bars up to it are idle. -/
theorem gridOrders_eq_nil_iff :
    gridOrders p df k = [] ↔ ∀ i ∈ gridBars p df, i ≤ k → Idle p df p.initialCapitalUsdt i := by
  rw [gridOrders, List.flatMap_eq_nil_iff]
  constructor
  · intro hnil i hi hik
    obtain ⟨j, hj, rfl⟩ : ∃ j < df.length - firstBar p, i = firstBar p + j := by
      obtain ⟨hfirst, hlast⟩ := List.mem_range'_1.mp hi
      exact ⟨i - firstBar p, by rw [firstBar]; omega, by rw [firstBar]; omega⟩
    -- the first bar that were not idle would find the grid empty, and buy
    induction j using Nat.strong_induction_on with
    | _ j ih =>
      have hstate : gridStateBefore p df j = gridStart p :=
        gridStateBefore_of_idle fun j' hj' => ih j' hj' (by omega)
          (List.mem_range'_1.mpr ⟨Nat.le_add_right _ _, by rw [firstBar] at hj ⊢; omega⟩) (by omega)
      have hturn : ordersOn p df k (gridStateBefore p df j, firstBar p + j) = [] :=
        hnil _ ((mem_turns_range' _ _ _).mpr ⟨j, hj, rfl⟩)
      rw [hstate] at hturn
      exact (ordersOn_eq_nil_iff rfl hik).mp hturn
  · intro hidle v hv
    obtain ⟨j, hj, rfl⟩ := (mem_turns_range' _ _ _).mp hv
    have hmem : ∀ j' ≤ j, firstBar p + j' ∈ gridBars p df := fun j' hj' =>
      List.mem_range'_1.mpr ⟨Nat.le_add_right _ _, by rw [firstBar] at *; omega⟩
    by_cases hik : firstBar p + j ≤ k
    · have hstate : gridStateBefore p df j = gridStart p :=
        gridStateBefore_of_idle fun j' hj' => hidle _ (hmem j' hj'.le) (by omega)
      show ordersOn p df k (gridStateBefore p df j, firstBar p + j) = []
      rw [hstate]
      exact (ordersOn_eq_nil_iff rfl hik).mpr (hidle _ (hmem j le_rfl) hik)
    · exact if_neg hik

theorem of_mem_gridOrders {order : GridOrder} (h : order ∈ gridOrders p df k) :
    order.allocationUsdt = p.perOrderUsdt ∧ order.qty = p.perOrderUsdt / order.entry := by
  obtain ⟨v, _, h⟩ := List.mem_flatMap.mp h
  rw [ordersOn] at h
  split at h
  · obtain ⟨center, _, h⟩ := List.mem_flatMap.mp h
    obtain ⟨pos, hpos, rfl⟩ := List.mem_map.mp h
    exact ⟨rfl, (of_mem_gridBought hpos).2⟩
  · cases h

theorem gridOrders_eq_nil (h : ¬(p.perOrderUsdt ≤ p.initialCapitalUsdt ∧ Reaches p df k)) :
    gridOrders p df k = [] := by
  refine gridOrders_eq_nil_iff.mpr fun i hi hik center hcenter level hlevel hbuys => h ?_
  exact ⟨hbuys.2, i, hi, hik, center, hcenter, level, hlevel, hbuys.1⟩

theorem gridOrders_ne_nil (hcovered : p.perOrderUsdt ≤ p.initialCapitalUsdt)
    (hreaches : Reaches p df k) : gridOrders p df k ≠ [] := by
  obtain ⟨i, hi, hik, center, hcenter, level, hlevel, hlow⟩ := hreaches
  intro hnil
  exact gridOrders_eq_nil_iff.mp hnil i hi hik center hcenter level hlevel ⟨hlow, hcovered⟩

end

/-! ## Scaled grids -/

/-- A position of `m` times the quantity. -/
def scalePosition (m : ℚ) (pos : GridPosition) : GridPosition := { pos with qty := m * pos.qty }

/-- An order of `m` times the quantity, for `m` times the amount. -/
def GridOrder.scaled (m : ℚ) (order : GridOrder) : GridOrder :=
  { order with qty := m * order.qty, allocationUsdt := m * order.allocationUsdt }

/-- The grid of `q` is that of `p` with `m` times the capital and `m` times the order. -/
structure IsScaled (m : ℚ) (p q : GridParams) : Prop where
  maPeriod : q.maPeriod = p.maPeriod
  spacing : q.spacing = p.spacing
  gridsDown : q.gridsDown = p.gridsDown
  fee : q.fee = p.fee
  capital : q.initialCapitalUsdt = m * p.initialCapitalUsdt
  order : q.perOrderUsdt = m * p.perOrderUsdt

/-- A state with `m` times the cash and the quantities. -/
structure StateScaled (m : ℚ) (st st' : GridState) : Prop where
  cash : st'.cash = m * st.cash
  positions : st'.positions = st.positions.map (scalePosition m)

section

variable {p q : GridParams} {df : Frame} {st st' : GridState} {center m : ℚ} {bar : Bar} {i k : ℕ}

theorem stateScaled_fillLevel (hq : IsScaled m p q) (hm : 0 < m) (h : StateScaled m st st')
    (level : ℕ) : StateScaled m (fillLevel p bar center st level)
      (fillLevel q bar center st' level) := by
  have hfree : (∀ pos ∈ st'.positions, pos.level ≠ level) ↔
      ∀ pos ∈ st.positions, pos.level ≠ level := by
    rw [h.positions, List.forall_mem_map]
    rfl
  rw [fillLevel, fillLevel, hq.spacing, hq.order, hq.fee, h.cash]
  simp only [hfree, mul_lt_mul_iff_right₀ hm]
  split_ifs
  · exact h
  · refine ⟨by dsimp only; ring, ?_⟩
    rw [h.positions, List.map_append, List.map_singleton, scalePosition, mul_div_assoc]
  · exact h

theorem stateScaled_foldl_fillLevel (hq : IsScaled m p q) (hm : 0 < m) (levels : List ℕ)
    (h : StateScaled m st st') : StateScaled m (levels.foldl (fillLevel p bar center) st)
      (levels.foldl (fillLevel q bar center) st') := by
  induction levels generalizing st st' with
  | nil => exact h
  | cons level levels ih => exact ih (stateScaled_fillLevel hq hm h level)

theorem takePrice_scalePosition (hq : IsScaled m p q) (pos : GridPosition) :
    takePrice q (scalePosition m pos) = takePrice p pos := by
  rw [takePrice, hq.spacing]
  rfl

theorem cash_closeAll_scaled (hq : IsScaled m p q) (time : ℤ) (reason : RowExit)
    (closing : List GridPosition) (hcash : st'.cash = m * st.cash) :
    ((closing.map (scalePosition m)).foldl
        (fun s pos => s.close q pos (takePrice q pos) time reason) st').cash =
      m * (closing.foldl (fun s pos => s.close p pos (takePrice p pos) time reason) st).cash := by
  induction closing generalizing st st' with
  | nil => exact hcash
  | cons pos closing ih =>
    refine ih ?_
    show st'.cash + takePrice q (scalePosition m pos) * (m * pos.qty) * (1 - q.fee) =
      m * (st.cash + takePrice p pos * pos.qty * (1 - p.fee))
    rw [takePrice_scalePosition hq, hq.fee, hcash]
    ring

theorem stateScaled_takeProfits (hq : IsScaled m p q) (h : StateScaled m st st') :
    StateScaled m (takeProfits p bar st) (takeProfits q bar st') := by
  have hhit : ∀ pos : GridPosition, decide (takePrice q (scalePosition m pos) ≤ bar.high) =
      decide (takePrice p pos ≤ bar.high) := fun pos => by rw [takePrice_scalePosition hq]
  constructor
  · rw [takeProfits, h.positions, List.filter_map]
    simp only [Function.comp_def, hhit]
    exact cash_closeAll_scaled hq bar.time .gridTp _ h.cash
  · show (st'.positions.filter fun pos => !decide (takePrice q pos ≤ bar.high)) =
      (st.positions.filter fun pos => !decide (takePrice p pos ≤ bar.high)).map (scalePosition m)
    rw [h.positions, List.filter_map]
    simp only [Function.comp_def, hhit]

theorem gridCenter_of_scaled (hq : IsScaled m p q) : gridCenter q df i = gridCenter p df i := by
  rw [gridCenter, gridCenter, hq.maPeriod]

theorem stateScaled_gridFilled (hq : IsScaled m p q) (hm : 0 < m) (h : StateScaled m st st') :
    StateScaled m (gridFilled p df center st i) (gridFilled q df center st' i) := by
  rw [gridFilled, gridFilled, gridLevels, gridLevels, hq.gridsDown]
  exact stateScaled_foldl_fillLevel hq hm _ h

theorem stateScaled_gridBar (hq : IsScaled m p q) (hm : 0 < m) (h : StateScaled m st st') :
    StateScaled m (gridBar p df st i) (gridBar q df st' i) := by
  rw [gridBar, gridBar, hq.maPeriod]
  cases rolling mean df.closes p.maPeriod i with
  | none => exact h
  | some center =>
    dsimp only
    split_ifs
    · exact h
    · exact stateScaled_takeProfits hq (stateScaled_gridFilled hq hm h)

/-- **A grid of `m` times the size** buys at the same prices, and `m` times the quantities. -/
theorem gridOrders_of_scaled (hq : IsScaled m p q) (hm : 0 < m) :
    gridOrders q df k = (gridOrders p df k).map (GridOrder.scaled m) := by
  have hbars : gridBars q df = gridBars p df := by rw [gridBars, gridBars, hq.maPeriod]
  have hstart : StateScaled m (gridStart p) (gridStart q) := ⟨hq.capital, rfl⟩
  have hbar : ∀ (t t' : GridState) (a : ℕ), StateScaled m t t' →
      StateScaled m (gridBar p df t a) (gridBar q df t' a) := fun t t' a h =>
    stateScaled_gridBar hq hm h
  rw [gridOrders, hbars]
  refine flatMap_turns_of_related hbar (fun t t' a h => ?_) hstart
  rw [ordersOn, ordersOn]
  split_ifs
  · rw [List.map_flatMap, gridCenter_of_scaled hq]
    refine List.flatMap_congr fun center _ => ?_
    rw [gridBought, (stateScaled_gridFilled hq hm h).positions, h.positions, List.length_map,
      ← List.map_drop, List.map_map, List.map_map]
    refine List.map_congr_left fun pos _ => ?_
    simp only [Function.comp_apply, GridOrder.ofPosition, GridOrder.scaled, scalePosition, hq.order]
  · rfl

end

/-! ## The multiplier of the window -/

section

variable {s : FrameSort} {df : Frame} {payload : GridPayload} {rows rows' : List AiRow} {k : ℕ}
  {e : ℚ}

/-- What a payload is multiplied by, for the multipliers of the bars. -/
def effectiveMultiplier (multipliers : List ℚ) : ℚ :=
  if isClose (windowMultiplier multipliers) 1 then 1 else windowMultiplier multipliers

/-- The multiplier of a bar, by the row that the bar is joined with. -/
def rowMultiplier (th : Thresholds) (frame : List AiFrameRow) (time : ℤ) : ℚ :=
  riskMultiplier (overlayBar time .flat th (lastRowNotAfter frame time))

/-- The multipliers of the bars of a frame. -/
def barMultipliers (df : Frame) (th : Thresholds) (frame : List AiFrameRow) : List ℚ :=
  df.map fun bar => rowMultiplier th frame bar.time

theorem GridPayload.scaled_one (payload : GridPayload) : payload.scaled 1 = payload := by
  have hone : ∀ key : Option (Option ℚ), key.map (Option.map (· * 1)) = key := by
    rintro (_ | _ | a)
    · rfl
    · rfl
    · simp
  rw [scaled, hone, hone, hone]

theorem GridPayload.scaled_effectiveMultiplier (payload : GridPayload) (multipliers : List ℚ) :
    (if isClose (windowMultiplier multipliers) 1 then payload
      else payload.scaled (windowMultiplier multipliers)) =
        payload.scaled (effectiveMultiplier multipliers) := by
  rw [effectiveMultiplier]
  split_ifs
  · exact payload.scaled_one.symm
  · rfl

theorem half_le_riskMultiplier (bar : OverlayBar) : 1 / 2 ≤ riskMultiplier bar := by
  rw [riskMultiplier]
  split_ifs <;> norm_num

theorem half_le_windowMultiplier {multipliers : List ℚ} (h : ∀ m ∈ multipliers, 1 / 2 ≤ m) :
    1 / 2 ≤ windowMultiplier multipliers := by
  rw [windowMultiplier]
  split_ifs with hne
  · have hlength : (0 : ℚ) < multipliers.length := Nat.cast_pos.mpr (List.length_pos_of_ne_nil hne)
    rw [mean, le_div_iff₀ hlength, mul_comm]
    have hsum := List.card_nsmul_le_sum multipliers (1 / 2) h
    rwa [nsmul_eq_mul] at hsum
  · norm_num

theorem half_lt_windowMultiplier {multipliers : List ℚ} (h : ∀ m ∈ multipliers, 1 / 2 ≤ m)
    (hone : 1 ∈ multipliers) : 1 / 2 < windowMultiplier multipliers := by
  have hne : multipliers ≠ [] := List.ne_nil_of_mem hone
  have hlength : (0 : ℚ) < multipliers.length := Nat.cast_pos.mpr (List.length_pos_of_ne_nil hne)
  obtain ⟨before, behind, rfl⟩ := List.append_of_mem hone
  have hbefore := List.card_nsmul_le_sum before (1 / 2) fun m hm => h m (List.mem_append_left _ hm)
  have hbehind := List.card_nsmul_le_sum behind (1 / 2) fun m hm =>
    h m (List.mem_append_right _ (List.mem_cons_of_mem 1 hm))
  rw [nsmul_eq_mul] at hbefore hbehind
  rw [windowMultiplier, if_pos hne, mean, lt_div_iff₀ hlength, List.length_append, List.length_cons,
    List.sum_append, List.sum_cons]
  push_cast
  linarith

theorem windowMultiplier_of_forall_eq {multipliers : List ℚ} {c : ℚ} (hne : multipliers ≠ [])
    (h : ∀ m ∈ multipliers, m = c) : windowMultiplier multipliers = c := by
  have hlength : (multipliers.length : ℚ) ≠ 0 :=
    Nat.cast_ne_zero.mpr (List.length_pos_of_ne_nil hne).ne'
  rw [windowMultiplier, if_pos hne, mean, List.sum_eq_card_nsmul multipliers c h, nsmul_eq_mul,
    mul_div_cancel_left₀ c hlength]

theorem half_le_effectiveMultiplier {df : Frame} {th : Thresholds} {frame : List AiFrameRow} :
    1 / 2 ≤ effectiveMultiplier (barMultipliers df th frame) := by
  rw [effectiveMultiplier]
  split_ifs
  · norm_num
  · refine half_le_windowMultiplier fun m hm => ?_
    obtain ⟨bar, _, rfl⟩ := List.mem_map.mp hm
    exact half_le_riskMultiplier _

theorem effectiveMultiplier_nil (df : Frame) (th : Thresholds) :
    effectiveMultiplier (barMultipliers df th []) = 1 := by
  have hone : windowMultiplier (barMultipliers df th []) = 1 := by
    by_cases hdf : barMultipliers df th [] = []
    · rw [hdf]
      rfl
    · refine windowMultiplier_of_forall_eq hdf fun m hm => ?_
      obtain ⟨bar, _, rfl⟩ := List.mem_map.mp hm
      rfl
  rw [effectiveMultiplier, hone, ite_self]

/-- **The payload of the engine** is the payload scaled by the multiplier of the window.  Without
rows no bar is joined with one, and the multiplier is one. -/
theorem applyAiGridRiskMultiplier_eq (s : FrameSort) (df : Frame) (rows : List AiRow)
    (hai : payload.runWithAi = true) :
    applyAiGridRiskMultiplier s df payload rows = (prepareAiForecastFrame s rows).map fun frame =>
      payload.scaled (effectiveMultiplier (barMultipliers df payload.thresholds frame)) := by
  rw [applyAiGridRiskMultiplier, hai]
  by_cases hrows : rows = []
  · subst hrows
    have hempty : prepareAiForecastFrame s [] = .ok [] :=
      congrArg Except.ok (s.perm []).eq_nil
    rw [if_pos (.inr rfl), hempty]
    show _ = Except.ok (payload.scaled
      (effectiveMultiplier (barMultipliers df payload.thresholds [])))
    rw [effectiveMultiplier_nil, payload.scaled_one]
  · rw [if_neg fun h => h.elim Bool.noConfusion hrows, resolveAiRiskMultiplierPerBar,
      resolveAiForecastOverlayPerBar, if_neg hrows]
    cases prepareAiForecastFrame s rows with
    | error message => rfl
    | ok frame =>
      have hbars : ((df.map Bar.time).map fun time => overlayBar time .flat payload.thresholds
          (lastRowNotAfter frame time)).map riskMultiplier =
            barMultipliers df payload.thresholds frame := by
        rw [List.map_map, List.map_map]
        rfl
      show _ = Except.ok (payload.scaled
        (effectiveMultiplier (barMultipliers df payload.thresholds frame)))
      rw [← hbars]
      exact congrArg Except.ok (payload.scaled_effectiveMultiplier _)

theorem barMultipliers_congr {frame frame' : List AiFrameRow} {th : Thresholds} {bound : ℤ}
    (hframe : prepareAiForecastFrame s rows = .ok frame)
    (hframe' : prepareAiForecastFrame s rows' = .ok frame')
    (hrows : rowsNotAfter rows bound = rowsNotAfter rows' bound) (hties : TiesAgree rows bound)
    (hbound : ∀ bar ∈ df, bar.time ≤ bound) :
    barMultipliers df th frame = barMultipliers df th frame' := by
  refine List.map_congr_left fun bar hbar => ?_
  rw [rowMultiplier, rowMultiplier,
    lastRowNotAfter_congr hframe hframe' hrows hties (hbound bar hbar)]

end

/-! ## The parameters of a scaled payload -/

section

variable {df : Frame} {payload : GridPayload} {p : GridParams} {rows : List AiRow} {k : ℕ} {e : ℚ}

/-- The parameters `p` of a payload, when it is scaled. -/
def sizedAt (payload : GridPayload) (p : GridParams) (e : ℚ) : GridParams :=
  { p with
    initialCapitalUsdt :=
      if payload.capitalKey.isSome then p.initialCapitalUsdt * e else p.initialCapitalUsdt
    orderSizeUsdt := p.orderSizeUsdt.map (· * e) }

theorem capitalKey_scaled : (payload.scaled e).capitalKey =
    payload.capitalKey.map (Option.map (· * e)) := by
  rw [GridPayload.capitalKey, GridPayload.capitalKey, GridPayload.scaled]
  cases payload.initialCapitalUsdt with
  | none => rfl
  | some capital => rfl

theorem params_scaled (payload : GridPayload) (e : ℚ) :
    (payload.scaled e).params = payload.params.map fun p => sizedAt payload p e := by
  have horder : (payload.scaled e).orderSizeUsdt.join =
      payload.orderSizeUsdt.join.map (· * e) := by
    rw [GridPayload.scaled]
    rcases payload.orderSizeUsdt with _ | _ | size <;> rfl
  rw [GridPayload.params, GridPayload.params, capitalKey_scaled, horder]
  rcases hkey : payload.capitalKey with _ | _ | capital
  · show _ = Except.ok (sizedAt payload _ e)
    unfold sizedAt
    rw [hkey]
    rfl
  · rfl
  · show _ = Except.ok (sizedAt payload _ e)
    unfold sizedAt
    rw [hkey]
    rfl

theorem of_params_eq_ok (h : payload.params = .ok p) :
    p.orderSizeUsdt = payload.orderSizeUsdt.join ∧
      (payload.capitalKey = none → p.initialCapitalUsdt = 1000) := by
  rw [GridPayload.params] at h
  rcases hkey : payload.capitalKey with _ | _ | capital <;> rw [hkey] at h
  · exact ⟨by rw [← Except.ok.inj h], fun _ => by rw [← Except.ok.inj h]⟩
  · cases h
  · exact ⟨by rw [← Except.ok.inj h], fun hnone => by cases hnone⟩

theorem perOrderUsdt_sizedAt (hp : payload.params = .ok p) (hscales : payload.Scales) (e : ℚ) :
    (sizedAt payload p e).perOrderUsdt = p.perOrderUsdt * e := by
  rw [GridParams.perOrderUsdt, GridParams.perOrderUsdt, sizedAt]
  cases hsize : p.orderSizeUsdt with
  | some size => rfl
  | none =>
    have hcapital : payload.capitalKey.isSome := hscales.resolve_right fun hsome => by
      rw [← (of_params_eq_ok hp).1, hsize] at hsome
      cases hsome
    show (if payload.capitalKey.isSome then p.initialCapitalUsdt * e else _) / _ = _
    rw [if_pos hcapital, mul_div_right_comm]
    rfl

theorem sizedAt_of_not_scales (hp : payload.params = .ok p) (hscales : ¬payload.Scales) (e : ℚ) :
    sizedAt payload p e = p := by
  obtain ⟨hcapital, hsize⟩ := not_or.mp hscales
  rw [← (of_params_eq_ok hp).1, Option.not_isSome_iff_eq_none] at hsize
  rw [sizedAt, if_neg hcapital, hsize, Option.map_none, ← hsize]

theorem isScaled_sizedAt (hp : payload.params = .ok p) (hcapital : payload.capitalKey.isSome)
    (e : ℚ) : IsScaled e p (sizedAt payload p e) where
  maPeriod := rfl
  spacing := rfl
  gridsDown := rfl
  fee := rfl
  capital := by
    rw [sizedAt, if_pos hcapital, mul_comm]
  order := by
    rw [perOrderUsdt_sizedAt hp (.inl hcapital), mul_comm]

end

/-! ## Two forecasts -/

section

variable {s : FrameSort} {df : Frame} {payload : GridPayload} {p : GridParams}
  {rows rows' : List AiRow} {k : ℕ}

def sizeOf (df : Frame) (payload : GridPayload) (frame : List AiFrameRow) : ℚ :=
  effectiveMultiplier (barMultipliers df payload.thresholds frame)

/-- **The orders of a run** are those of the grid that is scaled by the multiplier of the window. -/
theorem ordersUpTo_eq (hai : payload.runWithAi = true) (hp : payload.params = .ok p)
    (s : FrameSort) (df : Frame) (rows : List AiRow) (k : ℕ) :
    ordersUpTo s df payload rows k = (prepareAiForecastFrame s rows).map fun frame =>
      gridOrders (sizedAt payload p (sizeOf df payload frame)) df k := by
  rw [ordersUpTo, engineParams, applyAiGridRiskMultiplier_eq s df rows hai]
  cases prepareAiForecastFrame s rows with
  | error message => rfl
  | ok frame =>
    show Except.map _ ((payload.scaled (sizeOf df payload frame)).params) = Except.ok _
    rw [params_scaled, hp]
    rfl

theorem ordersUpTo_of_prepared {frame : List AiFrameRow} (hai : payload.runWithAi = true)
    (hp : payload.params = .ok p) (hframe : prepareAiForecastFrame s rows = .ok frame) :
    ordersUpTo s df payload rows k =
      .ok (gridOrders (sizedAt payload p (sizeOf df payload frame)) df k) := by
  rw [ordersUpTo_eq hai hp, hframe]
  rfl

theorem ordersUpTo_of_off (hai : payload.runWithAi = false) (s : FrameSort) (df : Frame)
    (rows : List AiRow) (k : ℕ) :
    ordersUpTo s df payload rows k = payload.params.map fun p => gridOrders p df k := by
  rw [ordersUpTo, engineParams, applyAiGridRiskMultiplier, if_pos (.inl hai)]
  rfl

theorem ordersUpTo_ne_ok {message : String} (hai : payload.runWithAi = true)
    (hp : payload.params = .error message) (orders : List GridOrder) :
    ordersUpTo s df payload rows k ≠ .ok orders := by
  rw [ordersUpTo, engineParams, applyAiGridRiskMultiplier_eq s df rows hai]
  cases prepareAiForecastFrame s rows with
  | error refused =>
    show Except.error refused ≠ _
    exact fun h => by cases h
  | ok frame =>
    show Except.map _ ((payload.scaled (sizeOf df payload frame)).params) ≠ _
    rw [params_scaled, hp]
    show Except.error message ≠ _
    exact fun h => by cases h

theorem gridOrders_sizedAt_eq_nil (hp : payload.params = .ok p) (hscales : payload.Scales)
    (h : ¬((sizedAt payload p (1 / 2)).perOrderUsdt ≤ (sizedAt payload p (1 / 2)).initialCapitalUsdt
      ∧ Reaches (sizedAt payload p (1 / 2)) df k)) {e : ℚ} (he : 1 / 2 ≤ e) :
    gridOrders (sizedAt payload p e) df k = [] := by
  refine gridOrders_eq_nil fun ⟨hcovered, hreaches⟩ => h ⟨?_, hreaches⟩
  rw [perOrderUsdt_sizedAt hp hscales] at hcovered ⊢
  cases hkey : payload.capitalKey with
  | some key =>
    rw [sizedAt, hkey] at hcovered ⊢
    have hle := le_of_mul_le_mul_right hcovered (by linarith)
    exact mul_le_mul_of_nonneg_right hle (by norm_num)
  | none =>
    have hcapital := (of_params_eq_ok hp).2 hkey
    rw [sizedAt, hkey] at hcovered ⊢
    show _ ≤ p.initialCapitalUsdt
    rcases le_total p.perOrderUsdt 0 with hneg | hpos
    · linarith
    · exact (mul_le_mul_of_nonneg_left he hpos).trans hcovered

theorem gridOrders_sizedAt_of_zero (hp : payload.params = .ok p) (hscales : payload.Scales)
    (hzero : p.perOrderUsdt = 0) {e : ℚ} (he : 0 < e) :
    gridOrders (sizedAt payload p e) df k = gridOrders p df k := by
  by_cases hcapital : payload.capitalKey.isSome
  · rw [gridOrders_of_scaled (isScaled_sizedAt hp hcapital e) he]
    refine (List.map_congr_left fun order horder => ?_).trans (List.map_id _)
    obtain ⟨hallocation, hqty⟩ := of_mem_gridOrders horder
    rw [hzero, zero_div] at hqty
    rw [hzero] at hallocation
    obtain ⟨level, entryTime, entry, qty, allocation⟩ := order
    obtain rfl : qty = 0 := hqty
    obtain rfl : allocation = 0 := hallocation
    rw [GridOrder.scaled, mul_zero, id_eq]
  · have hsome : p.orderSizeUsdt.isSome := (of_params_eq_ok hp).1 ▸ hscales.resolve_left hcapital
    obtain ⟨size, hsize⟩ := Option.isSome_iff_exists.mp hsome
    rw [GridParams.perOrderUsdt, hsize, Option.getD_some] at hzero
    have hsame : sizedAt payload p e = p := by
      rw [sizedAt, if_neg hcapital, hsize, Option.map_some, hzero, zero_mul, ← hzero, ← hsize]
    rw [hsame]

theorem gridOrders_sizedAt_eq {frame frame' : List AiFrameRow} (hai : payload.runWithAi = true)
    (hp : payload.params = .ok p) (hnot : ¬LooksAhead df payload k)
    (hrows : rowsNotAfter rows (df.bar k).time = rowsNotAfter rows' (df.bar k).time)
    (hties : TiesAgree rows (df.bar k).time)
    (hframe : prepareAiForecastFrame s rows = .ok frame)
    (hframe' : prepareAiForecastFrame s rows' = .ok frame') :
    gridOrders (sizedAt payload p (sizeOf df payload frame)) df k =
      gridOrders (sizedAt payload p (sizeOf df payload frame')) df k := by
  have hsize : ∀ frame, 1 / 2 ≤ sizeOf df payload frame := fun _ => half_le_effectiveMultiplier
  by_cases hlater : ∃ bar ∈ df, (df.bar k).time < bar.time
  · by_cases hscales : payload.Scales
    · have hhalf : (payload.scaled (1 / 2)).params = .ok (sizedAt payload p (1 / 2)) := by
        rw [params_scaled, hp]
        rfl
      by_cases hzero : p.perOrderUsdt = 0
      · rw [gridOrders_sizedAt_of_zero hp hscales hzero (one_half_pos.trans_le (hsize frame)),
          gridOrders_sizedAt_of_zero hp hscales hzero (one_half_pos.trans_le (hsize frame'))]
      · have hne : (sizedAt payload p (1 / 2)).perOrderUsdt ≠ 0 := by
          rw [perOrderUsdt_sizedAt hp hscales]
          exact mul_ne_zero hzero (by norm_num)
        have hidle := fun hbuys => hnot ⟨hai, hlater, hscales, _, hhalf, hne, hbuys⟩
        rw [gridOrders_sizedAt_eq_nil hp hscales hidle (hsize frame),
          gridOrders_sizedAt_eq_nil hp hscales hidle (hsize frame')]
    · rw [sizedAt_of_not_scales hp hscales, sizedAt_of_not_scales hp hscales]
  · have hbound : ∀ bar ∈ df, bar.time ≤ (df.bar k).time := fun bar hbar =>
      not_lt.mp fun hlt => hlater ⟨bar, hbar, hlt⟩
    rw [sizeOf, sizeOf, barMultipliers_congr hframe hframe' hrows hties hbound]

/-- A row that calls everything from its time on flat, if it is confident of it. -/
def flatRow (time : ℤ) (confidence : Num) : AiRow where
  signalTimeUtc := some time
  predictedTrend := "Flat"
  confidenceBull := none
  confidenceBear := none
  confidenceFlat := confidence

/-- The row of `flatRow` in the prepared frame. -/
def flatFrameRow (time : ℤ) (confidence : Num) : AiFrameRow where
  signalTimeUtc := time
  horizonEndUtc := none
  predictedRegime := .flat
  confidenceBull := none
  confidenceBear := none
  confidenceFlat := confidence

theorem prepared_flatRow (time : ℤ) (confidence : Num) :
    (flatRow time confidence).prepared = some (flatFrameRow time confidence) := by
  have hregime : normalizeAiRegime "Flat" = .flat := by decide +kernel
  rw [AiRow.prepared, flatRow, hregime]
  rfl

theorem riskMultiplier_flatFrameRow (time signalTime : ℤ) (th : Thresholds) :
    riskMultiplier (overlayBar time .flat th
      (some (flatFrameRow signalTime (some (max th.bull th.bear))))) = 1 / 2 := by
  have hconfident : (flatFrameRow signalTime (some (max th.bull th.bear))).isConfident th := by
    exact decide_eq_true le_rfl
  rw [riskMultiplier, if_pos]
  rw [overlayBar, hconfident]
  exact ⟨rfl, rfl⟩

theorem riskMultiplier_unsure (time signalTime : ℤ) (th : Thresholds) :
    riskMultiplier (overlayBar time .flat th (some (flatFrameRow signalTime none))) = 1 := by
  rw [riskMultiplier, if_neg]
  exact fun h => Bool.noConfusion h.2

theorem exists_time_le (df : Frame) : ∃ first, ∀ bar ∈ df, first ≤ bar.time := by
  induction df with
  | nil => exact ⟨0, fun _ h => absurd h List.not_mem_nil⟩
  | cons bar df ih =>
    obtain ⟨first, hfirst⟩ := ih
    refine ⟨min bar.time first, fun other hother => ?_⟩
    rcases List.mem_cons.mp hother with rfl | hother
    · exact min_le_left _ _
    · exact (min_le_right _ _).trans (hfirst other hother)

/-- **A forecast behind bar `k`** that changes the size of the grid: a row at the first bar halves
every bar, and a row at a later bar takes that back from there on. -/
theorem exists_resized (s : FrameSort) (payload : GridPayload) {late : Bar} (hlate : late ∈ df)
    (hk : (df.bar k).time < late.time) : ∃ rows rows' frame frame',
      rowsNotAfter rows (df.bar k).time = rowsNotAfter rows' (df.bar k).time ∧
      TiesAgree rows (df.bar k).time ∧
      prepareAiForecastFrame s rows = .ok frame ∧ prepareAiForecastFrame s rows' = .ok frame' ∧
      sizeOf df payload frame = 1 / 2 ∧ sizeOf df payload frame' ≠ 1 / 2 := by
  obtain ⟨first, hfirst⟩ := exists_time_le df
  let th := payload.thresholds
  let flat : AiFrameRow := flatFrameRow (first - 1) (some (max th.bull th.bear))
  let unsure : AiFrameRow := flatFrameRow late.time none
  have hmem : ∀ {given : List AiFrameRow} {row : AiFrameRow}, row ∈ s.sort given ↔ row ∈ given :=
    (s.perm _).mem_iff
  have hbefore : ∀ bar ∈ df, first - 1 < bar.time := fun bar hbar =>
    (sub_one_lt first).trans_le (hfirst bar hbar)
  have hjoined : ∀ bar ∈ df, lastRowNotAfter (s.sort [flat]) bar.time = some flat := fun bar hbar =>
    lastRowNotAfter_eq_some (s.sorted _) (hmem.mpr (List.mem_singleton_self flat))
      (hbefore bar hbar).le fun other hother _ => .inr (List.mem_singleton.mp (hmem.mp hother))
  have hrow : lastRowNotAfter (s.sort [flat, unsure]) late.time = some unsure := by
    refine lastRowNotAfter_eq_some (s.sorted _) (hmem.mpr (by simp)) le_rfl fun other hother _ => ?_
    rcases List.mem_pair.mp (hmem.mp hother) with rfl | rfl
    · exact .inl (hbefore late hlate)
    · exact .inr rfl
  have hbars : ∀ m ∈ barMultipliers df th (s.sort [flat]), m = 1 / 2 := by
    intro m hm
    obtain ⟨bar, hbar, rfl⟩ := List.mem_map.mp hm
    rw [rowMultiplier, hjoined bar hbar]
    exact riskMultiplier_flatFrameRow _ _ _
  have hbars' : ∀ m ∈ barMultipliers df th (s.sort [flat, unsure]), 1 / 2 ≤ m := by
    intro m hm
    obtain ⟨bar, hbar, rfl⟩ := List.mem_map.mp hm
    exact half_le_riskMultiplier _
  have hone : 1 ∈ barMultipliers df th (s.sort [flat, unsure]) := by
    refine List.mem_map.mpr ⟨late, hlate, ?_⟩
    rw [rowMultiplier, hrow]
    exact riskMultiplier_unsure _ _ _
  refine ⟨[flatRow (first - 1) (some (max th.bull th.bear))],
    [flatRow (first - 1) (some (max th.bull th.bear)), flatRow late.time none], s.sort [flat],
    s.sort [flat, unsure], ?_, ?_, ?_, ?_, ?_, ?_⟩
  · have hdropped : ([flatRow late.time none].filter fun row =>
        row.signalTimeUtc.all fun t => decide (t ≤ (df.bar k).time)) = [] :=
      List.filter_cons_of_neg fun h => absurd (of_decide_eq_true h) (not_le.mpr hk)
    have happend := List.filter_append (p := fun row : AiRow =>
        row.signalTimeUtc.all fun t => decide (t ≤ (df.bar k).time))
      [flatRow (first - 1) (some (max th.bull th.bear))] [flatRow late.time none]
    rw [hdropped, List.append_nil] at happend
    exact happend.symm
  · -- there is one row only
    intro row hrow row' hrow' _
    rw [List.mem_singleton.mp (List.mem_of_mem_filter hrow),
      List.mem_singleton.mp (List.mem_of_mem_filter hrow')]
  · show Except.ok _ = _
    rw [List.filterMap_cons_some (prepared_flatRow _ _)]
    rfl
  · show Except.ok _ = _
    rw [List.filterMap_cons_some (prepared_flatRow _ _),
      List.filterMap_cons_some (prepared_flatRow _ _)]
    rfl
  · have hne : barMultipliers df th (s.sort [flat]) ≠ [] := fun h =>
      List.ne_nil_of_mem hlate (List.map_eq_nil_iff.mp h)
    have hhalf := windowMultiplier_of_forall_eq hne hbars
    rw [sizeOf, effectiveMultiplier, hhalf, if_neg (by decide +kernel)]
  · have hlt := half_lt_windowMultiplier hbars' hone
    rw [sizeOf, effectiveMultiplier]
    split_ifs
    · norm_num
    · exact hlt.ne'

/-- **The size of a grid order.**  The orders that are filled up to bar `k` depend on no forecast
behind it exactly if none can change what a grid of half the size buys. -/
theorem noLookAhead_iff (s : FrameSort) (df : Frame) (payload : GridPayload) (k : ℕ) :
    NoLookAhead s df payload k ↔ ¬LooksAhead df payload k := by
  constructor
  · rintro hsame ⟨hai, ⟨late, hlate, hk⟩, hscales, half, hhalf, hne, hcovered, hreaches⟩
    rw [params_scaled] at hhalf
    cases hp : payload.params with
    | error message =>
      rw [hp] at hhalf
      cases hhalf
    | ok p =>
      rw [hp] at hhalf
      obtain rfl : sizedAt payload p (1 / 2) = half := Except.ok.inj hhalf
      obtain ⟨rows, rows', frame, frame', hrows, hties, hframe, hframe', hsize, hsize'⟩ :=
        exists_resized s payload hlate hk
      have heq := hsame rows rows' hrows hties _ _ (ordersUpTo_of_prepared hai hp hframe)
        (ordersUpTo_of_prepared hai hp hframe')
      rw [hsize] at heq
      -- an order of the halved grid is for another amount than one of the other grid
      obtain ⟨order, horder⟩ := List.exists_mem_of_ne_nil _ (gridOrders_ne_nil hcovered hreaches)
      have hamount := (of_mem_gridOrders horder).1
      rw [heq] at horder
      rw [(of_mem_gridOrders horder).1, perOrderUsdt_sizedAt hp hscales,
        perOrderUsdt_sizedAt hp hscales] at hamount
      rw [perOrderUsdt_sizedAt hp hscales] at hne
      exact hsize' (mul_left_cancel₀ (left_ne_zero_of_mul hne) hamount)
  · intro hnot rows rows' hrows hties orders orders' horders horders'
    cases hai : payload.runWithAi with
    | false =>
      rw [ordersUpTo_of_off hai] at horders horders'
      exact Except.ok.inj (horders.symm.trans horders')
    | true =>
      cases hp : payload.params with
      | error message => exact absurd horders (ordersUpTo_ne_ok hai hp orders)
      | ok p =>
        cases hframe : prepareAiForecastFrame s rows with
        | error message =>
          rw [ordersUpTo_eq hai hp, hframe] at horders
          cases horders
        | ok frame =>
          cases hframe' : prepareAiForecastFrame s rows' with
          | error message =>
            rw [ordersUpTo_eq hai hp, hframe'] at horders'
            cases horders'
          | ok frame' =>
            rw [ordersUpTo_of_prepared hai hp hframe] at horders
            rw [ordersUpTo_of_prepared hai hp hframe'] at horders'
            rw [← Except.ok.inj horders, ← Except.ok.inj horders']
            exact gridOrders_sizedAt_eq hai hp hnot hrows hties hframe hframe'

end

/-! ## A fall before the forecast -/

/-- Five bars: the fourth falls to the first level of a grid of one level. -/
def fallingFrame : Frame :=
  [⟨0, 100, 100, 100, 100, 1⟩, ⟨1, 100, 100, 100, 100, 1⟩, ⟨2, 100, 100, 100, 100, 1⟩,
    ⟨3, 100, 100, 90, 100, 1⟩, ⟨4, 100, 100, 100, 100, 1⟩]

/-- A grid of one level over the mean of one bar. -/
def oneLevelPayload : GridPayload where
  runWithAi := true
  initialCapitalUsdt := some (some 1000)
  maPeriod := 1
  gridSpacingPct := 1
  gridsDown := 1

/-- **The fifth bar decides what the fourth one buys**: the order is for 500 if the forecast stays
flat, and for 600 if a forecast on the fifth bar is not sure of it. -/
theorem not_noLookAhead_fallingFrame :
    ¬∀ (s : FrameSort) (df : Frame) (payload : GridPayload) (k : ℕ), k < df.length →
      payload.runWithAi = true → NoLookAhead s df payload k := by
  intro h
  have hflat : ordersUpTo quicksort fallingFrame oneLevelPayload [flatRow 0 (some 52)] 3 =
      .ok [⟨1, 3, 99, 500 / 99, 500⟩] := by decide +kernel
  have hunsure : ordersUpTo quicksort fallingFrame oneLevelPayload
      [flatRow 0 (some 52), flatRow 4 none] 3 = .ok [⟨1, 3, 99, 600 / 99, 600⟩] := by decide +kernel
  have hsame := h quicksort fallingFrame oneLevelPayload 3 (by decide) rfl _ _ (by decide +kernel)
    (by decide +kernel) _ _ hflat hunsure
  exact absurd hsame (by decide +kernel)

end GridLookAhead

end Backtest

end AdviserConstructor
