import Mathlib.Algebra.Order.Ring.Rat
import Mathlib.Algebra.BigOperators.Group.List.Basic
import Mathlib.Data.List.Find
import Mathlib.Tactic.Common

/-!
# Price frames, indicator values and position sizes

`app/services/backtesting/common.py`: the data that every engine of the backtester reads.

Prices, quantities and money are floats in the source and exact rationals here.  A value that may be
`NaN` is a `Num`: `none` stands for `NaN`, which no comparison holds of.  A frame is the list of its
bars in the order of its index, whose times are whole nanoseconds.
-/

namespace AdviserConstructor

namespace Backtest

/-! ## Values -/

/-- A float that may be `NaN`. -/
abbrev Num : Type := Option ℚ

namespace Num

/-- `a < b`, which is false where one side is `NaN`. -/
def lt : Num → Num → Bool
  | some a, some b => decide (a < b)
  | _, _ => false

/-- `a <= b`, which is false where one side is `NaN`. -/
def le : Num → Num → Bool
  | some a, some b => decide (a ≤ b)
  | _, _ => false

/-- `max(a, b)` of Python: the first argument unless the second is greater. -/
def max (a b : Num) : Num := if a.lt b then b else a

/-- `min(a, b)` of Python: the first argument unless the second is less. -/
def min (a b : Num) : Num := if b.lt a then b else a

end Num

/-! ## Frames -/

/-- A bar of a price frame. -/
structure Bar where
  time : ℤ
  openPrice : ℚ
  high : ℚ
  low : ℚ
  close : ℚ
  volume : ℚ
  deriving DecidableEq, Repr

instance : Inhabited Bar := ⟨⟨0, 0, 0, 0, 0, 0⟩⟩

abbrev Frame : Type := List Bar

/-- `df.iloc[i]`. -/
def Frame.bar (df : Frame) (i : ℕ) : Bar := df.getD i default

/-- The open and the close of a bar lie between its low and its high. -/
structure Bar.WellFormed (bar : Bar) : Prop where
  low_le_open : bar.low ≤ bar.openPrice
  low_le_close : bar.low ≤ bar.close
  open_le_high : bar.openPrice ≤ bar.high
  close_le_high : bar.close ≤ bar.high

/-- Every bar of the frame is well formed. -/
def Frame.WellFormed (df : Frame) : Prop := ∀ bar ∈ df, bar.WellFormed

theorem Frame.bar_mem {df : Frame} {i : ℕ} (hi : i < df.length) : df.bar i ∈ df := by
  rw [Frame.bar, List.getD_eq_getElem?_getD, List.getElem?_eq_getElem hi]
  exact List.getElem_mem hi

/-- Two frames agree on the bars `0..k`. -/
def Frame.AgreeUpTo (df df' : Frame) (k : ℕ) : Prop := ∀ i ≤ k, df.bar i = df'.bar i

/-! ## Rolling windows -/

/-- The last `period` values of a series up to position `i`. -/
def window (series : ℕ → ℚ) (period i : ℕ) : List ℚ :=
  (List.range' (i + 1 - period) period).map series

/-- A statistic of `series.rolling(period)`, which is `NaN` while the window is not full. -/
def rolling (statistic : List ℚ → ℚ) (series : ℕ → ℚ) (period i : ℕ) : Num :=
  if 0 < period ∧ period ≤ i + 1 then some (statistic (window series period i)) else none

def mean (values : List ℚ) : ℚ := values.sum / values.length

def greatest : List ℚ → ℚ
  | [] => 0
  | v :: vs => vs.foldl max v

def least : List ℚ → ℚ
  | [] => 0
  | v :: vs => vs.foldl min v

/-- `series.shift(1)`. -/
def shift (series : ℕ → Num) : ℕ → Num
  | 0 => none
  | i + 1 => series i

def Frame.closes (df : Frame) (i : ℕ) : ℚ := (df.bar i).close

/-! ## Sides -/

/-- `"LONG"` or `"SHORT"`. -/
inductive Side where
  | long | short
  deriving DecidableEq, Repr

/-! ## Position sizes -/

/-- `PositionSizer`. -/
structure PositionSizer where
  accountBalance : ℚ
  riskPerTrade : ℚ
  maxOpenPositions : ℤ
  maxPositionPct : ℚ := 100
  openTrades : ℤ := 0

/-- The numbers of an allowed position. -/
structure PositionSize where
  quantity : ℚ
  positionValue : ℚ
  riskUsdt : ℚ
  riskUsdtPlan : ℚ
  deriving DecidableEq, Repr

/-- What `calculate_position_size` returns. -/
inductive Sizing where
  /-- `"allowed"` is false. -/
  | rejected (reason : String)
  /-- `"allowed"` is true; the size is missing where its numbers are `NaN`. -/
  | allowed (size : Option PositionSize)
  deriving DecidableEq, Repr

namespace PositionSizer

/-- The amount that a trade may lose. -/
def plannedRisk (s : PositionSizer) : ℚ := s.accountBalance * (s.riskPerTrade / 100)

/-- The greatest value of a position. -/
def maxPositionValue (s : PositionSizer) : ℚ := s.accountBalance * (s.maxPositionPct / 100)

/-- The quantity of a position whose stop lies `distance` away from the entry. -/
def quantityFor (s : PositionSizer) (entry distance : ℚ) : ℚ :=
  if 0 < s.maxPositionValue ∧ s.maxPositionValue < s.plannedRisk / distance * entry then
    s.maxPositionValue / entry
  else s.plannedRisk / distance

/-- The size of a position whose stop lies `distance` away from the entry. -/
def sizeFor (s : PositionSizer) (entry distance : ℚ) : PositionSize where
  quantity := s.quantityFor entry distance
  positionValue := s.quantityFor entry distance * entry
  riskUsdt := s.quantityFor entry distance * distance
  riskUsdtPlan := s.plannedRisk

/-- `calculate_position_size`.  A stop that is `NaN` passes every test. -/
def calculatePositionSize (s : PositionSizer) (entry : ℚ) (stopLoss : Num) : Sizing :=
  if s.maxOpenPositions ≤ s.openTrades then .rejected "max_positions"
  else
    match stopLoss with
    | none => .allowed none
    | some sl =>
        if |entry - sl| ≤ 0 then .rejected "invalid_sl_distance"
        else .allowed (some (s.sizeFor entry |entry - sl|))

variable {s : PositionSizer} {entry sl : ℚ}

theorem calculatePositionSize_eq_allowed {size : Option PositionSize} :
    s.calculatePositionSize entry (some sl) = .allowed size ↔
      s.openTrades < s.maxOpenPositions ∧ entry ≠ sl ∧
        size = some (s.sizeFor entry |entry - sl|) := by
  rw [calculatePositionSize]
  by_cases hopen : s.maxOpenPositions ≤ s.openTrades
  · rw [if_pos hopen]
    exact ⟨nofun, fun h => absurd hopen (by omega)⟩
  · rw [if_neg hopen]
    by_cases hsl : |entry - sl| ≤ 0
    · simp only [if_pos hsl, reduceCtorEq, false_iff, not_and]
      intro _ hne
      exact absurd (sub_eq_zero.mp (abs_nonpos_iff.mp hsl)) hne
    · have hne : entry ≠ sl := fun h => hsl (by rw [h, sub_self, abs_zero])
      simp only [if_neg hsl, Sizing.allowed.injEq, hne, ne_eq, not_false_eq_true, true_and,
        (by omega : s.openTrades < s.maxOpenPositions)]
      exact eq_comm

end PositionSizer

end Backtest

end AdviserConstructor
