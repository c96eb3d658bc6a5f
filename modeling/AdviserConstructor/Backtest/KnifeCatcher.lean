import AdviserConstructor.Backtest.CostModel

/-!
# The knife catcher

`app/services/backtesting/knife_catcher.py`: a candle that moves far enough leaves a limit order,
which is quoted again with every further signal, filled on the next bar if the bar spans its price,
and then held to its stop or its target.

* `isKnifeTrade_knifeCatcherBacktest`: every trade carries the account balance as its allocation,
  and the distance of its stop as its risk.
-/

namespace AdviserConstructor

namespace Backtest

/-- The texts of `entry_mode_long` and `entry_mode_short`; any other text is taken for the second
member. -/
inductive KnifeEntryMode where
  /-- `"OPEN_LOW"` or `"OPEN_HIGH"` -/
  | fromOpen
  /-- `"HIGH_LOW"` or `"LOW_HIGH"` -/
  | fromExtreme
  deriving DecidableEq, Repr

/-- The parameters of `run_knife_catcher`. -/
structure KnifeParams where
  side : Side := .long
  entryModeLong : KnifeEntryMode := .fromOpen
  entryModeShort : KnifeEntryMode := .fromOpen
  knifeMovePct : ℚ := 35 / 100
  entryKPct : ℚ := 65
  tpPct : ℚ := 45 / 100
  slPct : ℚ := 35 / 100
  useMaxRangeFilter : Bool := true
  maxRangePct : ℚ := 12 / 10
  useWickFilter : Bool := true
  maxWickSharePct : ℚ := 65
  requoteEachCandle : Bool := true
  maxRequotes : ℤ := 6
  accountBalance : ℚ := 1000
  costs : CostParams := {}

/-- `_range_pct`. -/
def rangePct (bar : Bar) : ℚ := (bar.high - bar.low) / bar.openPrice

/-- `_wick_share`. -/
def wickShare (bar : Bar) : ℚ :=
  let rng := bar.high - bar.low
  if rng ≤ 0 then 0
  else
    max 0 (bar.high - max bar.openPrice bar.close + (min bar.openPrice bar.close - bar.low)) / rng

/-- The ends of the move that `_calc_signal` looks at, and the price that the move is measured
by. -/
def knifeMove (p : KnifeParams) (bar : Bar) : ℚ × ℚ × ℚ :=
  match p.side with
  | .long =>
      match p.entryModeLong with
      | .fromOpen => (bar.openPrice, bar.low, bar.openPrice)
      | .fromExtreme => (bar.high, bar.low, bar.high)
  | .short =>
      match p.entryModeShort with
      | .fromOpen => (bar.high, bar.openPrice, bar.openPrice)
      | .fromExtreme => (bar.high, bar.low, bar.low)

/-- `_calc_signal`: the price of the limit order, if there is a signal. -/
def calcSignal (p : KnifeParams) (bar : Bar) : Option ℚ :=
  let (upper, lower, basis) := knifeMove p bar
  let rng := upper - lower
  if rng / basis < p.knifeMovePct / 100 then none
  else if rng ≤ 0 then none
  else
    match p.side with
    | .long => some (upper - rng * (p.entryKPct / 100))
    | .short => some (lower + rng * (p.entryKPct / 100))

def passesFilters (p : KnifeParams) (bar : Bar) : Bool :=
  !(p.useMaxRangeFilter && decide (p.maxRangePct / 100 < rangePct bar)) &&
    !(p.useWickFilter && decide (p.maxWickSharePct / 100 < wickShare bar))

/-- A limit order that has not been filled. -/
structure PendingKnife where
  entry : ℚ
  requotes : ℤ
  deriving DecidableEq, Repr

/-- A position. -/
structure OpenKnife where
  entry : ℚ
  tp : ℚ
  sl : ℚ
  entryI : ℕ
  deriving DecidableEq, Repr

/-- The variables of the loop. -/
structure KnifeState where
  pending : Option PendingKnife := none
  position : Option OpenKnife := none
  trades : List TradeRow := []

/-- How a bar ends a position, if it does. -/
def knifeExit (side : Side) (pos : OpenKnife) (bar : Bar) : Option (RowExit × ℚ) :=
  match side with
  | .long =>
      if bar.low ≤ pos.sl then some (.sl, pos.sl)
      else if pos.tp ≤ bar.high then some (.tp, pos.tp)
      else none
  | .short =>
      if pos.sl ≤ bar.high then some (.sl, pos.sl)
      else if bar.low ≤ pos.tp then some (.tp, pos.tp)
      else none

/-- The trade of a position, with the columns that `run_knife_catcher` adds. -/
def knifeTrade (p : KnifeParams) (df : Frame) (pos : OpenKnife) (i : ℕ) (reason : RowExit)
    (price : ℚ) : TradeRow :=
  let pnlFrac := match p.side with
    | .long => (price - pos.entry) / pos.entry
    | .short => (pos.entry - price) / pos.entry
  { side := some p.side
    entryTime := (df.bar pos.entryI).time
    exitTime := (df.bar i).time
    entry := pos.entry
    exit := some price
    sl := some pos.sl
    allocationUsdt := some p.accountBalance
    riskUsdt := some (|pos.entry - pos.sl| / pos.entry * p.accountBalance)
    pnlUsdt := pnlFrac * p.accountBalance
    exitReason := some reason }

/-- The order that is pending behind a bar whose signal is `sig`. -/
def requote (p : KnifeParams) (pending : Option PendingKnife) (sig : Option ℚ) :
    Option PendingKnife :=
  let kept : Option PendingKnife := pending.bind fun order =>
    match sig with
    | none => none
    | some entry =>
        if p.requoteEachCandle then
          if p.maxRequotes ≤ order.requotes then none else some ⟨entry, order.requotes + 1⟩
        else some order
  match kept, sig with
  | none, some entry => some ⟨entry, 0⟩
  | kept, _ => kept

/-- The position that an order becomes on bar `i`, if the bar spans its price. -/
def fillKnife (p : KnifeParams) (bar : Bar) (i : ℕ) (order : PendingKnife) : Option OpenKnife :=
  if bar.low ≤ order.entry ∧ order.entry ≤ bar.high then
    match p.side with
    | .long =>
        some ⟨order.entry, order.entry * (1 + p.tpPct / 100), order.entry * (1 - p.slPct / 100), i⟩
    | .short =>
        some ⟨order.entry, order.entry * (1 - p.tpPct / 100), order.entry * (1 + p.slPct / 100), i⟩
  else none

def knifeBar (p : KnifeParams) (df : Frame) (st : KnifeState) (i : ℕ) : KnifeState :=
  match st.position with
  | some pos =>
      match knifeExit p.side pos (df.bar i) with
      | some (reason, price) =>
          { pending := none, position := none
            trades := st.trades ++ [knifeTrade p df pos i reason price] }
      | none => st
  | none =>
      let sig := if passesFilters p (df.bar i) then calcSignal p (df.bar i) else none
      let pending := requote p st.pending sig
      match pending.bind (fillKnife p (df.bar (i + 1)) (i + 1)) with
      | some pos => { st with pending := none, position := some pos }
      | none => { st with pending := pending }

/-- `knife_catcher_backtest`. -/
def knifeCatcherBacktest (p : KnifeParams) (df : Frame) : KnifeState :=
  (List.range (df.length - 1)).foldl (knifeBar p df) {}

/-- `run_knife_catcher`. -/
def runKnifeCatcher (p : KnifeParams) (df : Frame) : EngineResult :=
  finishEngine (knifeCatcherBacktest p df).trades (costModelFromParams p.costs) p.accountBalance

/-! ## The trades of the loop -/

/-- A trade that the loop has recorded. -/
def IsKnifeTrade (p : KnifeParams) (df : Frame) (t : TradeRow) : Prop :=
  ∃ pos i reason price, reason ≠ .openAtEnd ∧ t = knifeTrade p df pos i reason price

theorem knifeExit_ne_open {side : Side} {pos : OpenKnife} {bar : Bar} {reason : RowExit} {price : ℚ}
    (h : knifeExit side pos bar = some (reason, price)) : reason ≠ .openAtEnd := by
  rintro rfl
  cases side with
  | long =>
    rw [knifeExit] at h
    split_ifs at h
    · cases h
    · cases h
  | short =>
    rw [knifeExit] at h
    split_ifs at h
    · cases h
    · cases h

/-- Every trade of a backtest closes a position. -/
theorem isKnifeTrade_knifeCatcherBacktest (p : KnifeParams) (df : Frame) :
    ∀ t ∈ (knifeCatcherBacktest p df).trades, IsKnifeTrade p df t := by
  have hbar : ∀ (st : KnifeState) (i : ℕ), (∀ t ∈ st.trades, IsKnifeTrade p df t) →
      ∀ t ∈ (knifeBar p df st i).trades, IsKnifeTrade p df t := by
    intro st i h t ht
    rw [knifeBar] at ht
    cases hpos : st.position with
    | some pos =>
      rw [hpos] at ht
      cases hexit : knifeExit p.side pos (df.bar i) with
      | some x =>
        obtain ⟨reason, price⟩ := x
        simp only [hexit] at ht
        rcases List.mem_append.mp ht with hold | hnew
        · exact h t hold
        · exact ⟨pos, i, reason, price, knifeExit_ne_open hexit, List.mem_singleton.mp hnew⟩
      | none =>
        simp only [hexit] at ht
        exact h t ht
    | none =>
      rw [hpos] at ht
      simp only at ht
      split at ht
      · exact h t ht
      · exact h t ht
  refine List.foldlRecOn
    (motive := fun st => ∀ t ∈ KnifeState.trades st, IsKnifeTrade p df t) _ _ ?_
    fun st h i _ => hbar st i h
  exact fun t ht => absurd ht List.not_mem_nil

end Backtest

end AdviserConstructor
