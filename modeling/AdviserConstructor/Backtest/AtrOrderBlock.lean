import AdviserConstructor.Backtest.CostModel

/-!
# The ATR order-block engine

`app/services/backtesting/atr_order_block.py`: an impulse bar that falls marks the bar behind it
with an order block, the mark is carried forward to the next one, and a close inside the block and
above the moving average enters on the next open.  A position has several targets, each for a
fraction of it, and ends with its stop or its last target.

The marks are written by the time of a bar, so that bars of the same time share theirs.

* `isAtrTrade_atrObBacktest`: every trade carries the allocation, and neither a risk nor an exit
  reason.
-/

namespace AdviserConstructor

namespace Backtest

/-- The parameters of `run_atr_order_block`. -/
structure AtrObParams where
  emaPeriod : ℕ := 50
  atrPeriod : ℕ := 14
  impulseAtr : ℚ := 3 / 2
  obBufferAtr : ℚ := 3 / 20
  tpLevels : List (ℚ × ℚ) := [(6 / 10, 3 / 10), (12 / 10, 4 / 10), (2, 3 / 10)]
  oneTradePerOb : Bool := true
  allocationUsdt : ℚ := 1000
  costs : CostParams := {}

/-! ## Averages -/

/-- `_calc_ema`. -/
def calcEma (series : ℕ → ℚ) (period : ℕ) : ℕ → ℚ
  | 0 => series 0
  | i + 1 =>
      let alpha : ℚ := 2 / (period + 1)
      (1 - alpha) * calcEma series period i + alpha * series (i + 1)

/-- The true range of a bar; the first bar has no close before it. -/
def trueRange (df : Frame) : ℕ → ℚ
  | 0 => (df.bar 0).high - (df.bar 0).low
  | i + 1 =>
      max (max ((df.bar (i + 1)).high - (df.bar (i + 1)).low)
          |(df.bar (i + 1)).high - (df.bar i).close|)
        |(df.bar (i + 1)).low - (df.bar i).close|

/-- `_calc_atr`. -/
def calcAtr (df : Frame) (period : ℕ) : ℕ → Num := rolling mean (trueRange df) period

/-! ## Order blocks -/

/-- Bar `i` is an impulse that falls. -/
def fallingImpulse (p : AtrObParams) (df : Frame) (i : ℕ) : Bool :=
  match calcAtr df p.atrPeriod i with
  | none => false
  | some atr =>
      decide (0 < atr) && decide (p.impulseAtr * atr < (df.bar i).high - (df.bar i).low) &&
        decide ((df.bar i).close < (df.bar i).openPrice)

/-- The low and the high of an order block. -/
structure BullBlock where
  low : ℚ
  high : ℚ
  deriving DecidableEq, Repr

/-- The order block that is written to the bars of the time of bar `j`, before any is carried
forward: the last one that was written counts. -/
def markAt (p : AtrObParams) (df : Frame) (j : ℕ) : Option BullBlock :=
  (((List.range' 2 (df.length - 4)).filter fun i =>
    fallingImpulse p df i && decide ((df.bar (i + 1)).time = (df.bar j).time)).getLast?).map
      fun i => { low := (df.bar i).low, high := (df.bar i).high }

/-- `ffill`: the order block of bar `j`. -/
def carriedBlock (p : AtrObParams) (df : Frame) : ℕ → Option BullBlock
  | 0 => markAt p df 0
  | j + 1 => (markAt p df (j + 1)).or (carriedBlock p df j)

/-! ## Entries -/

/-- A target of a position. -/
structure Target where
  take : ℚ
  fraction : ℚ
  hit : Bool := false
  deriving DecidableEq, Repr

/-- A position. -/
structure AtrPosition where
  entryI : ℕ
  entry : ℚ
  sl : ℚ
  targets : List Target
  remaining : ℚ := 1
  pnl : ℚ := 0
  deriving DecidableEq, Repr

/-- The entry rule on bar `i`, without a look at the position and at the blocks used: the block and
the position that it enters. -/
def entryRule (p : AtrObParams) (df : Frame) (i : ℕ) : Option (BullBlock × AtrPosition) :=
  match carriedBlock p df (i - 1), calcAtr df p.atrPeriod (i - 1) with
  | some block, some atr =>
      let close := (df.bar (i - 1)).close
      if block.low < close ∧ close < block.high ∧ calcEma df.closes p.emaPeriod (i - 1) < close then
        let entry := (df.bar i).openPrice
        some (block,
          { entryI := i
            entry := entry
            sl := block.low - p.obBufferAtr * atr
            targets := p.tpLevels.map fun level =>
              { take := entry + level.1 * atr, fraction := level.2 } })
      else none
  | _, _ => none

/-- The variables of the loop. -/
structure AtrObState where
  position : Option AtrPosition := none
  usedOb : List BullBlock := []
  trades : List TradeRow := []

/-- The trade of a position, with the columns that `run_atr_order_block` adds. -/
def atrTrade (p : AtrObParams) (df : Frame) (pos : AtrPosition) (i : ℕ) (exitType : RowExit) :
    TradeRow where
  entryTime := (df.bar pos.entryI).time
  exitTime := (df.bar i).time
  entry := pos.entry
  sl := some pos.sl
  allocationUsdt := some p.allocationUsdt
  pnlUsdt := pos.pnl * p.allocationUsdt
  finalPnl := some pos.pnl
  exitType := some exitType

/-- A target that the bar reaches for the first time. -/
def Target.isReached (high : ℚ) (t : Target) : Bool := !t.hit && decide (t.take ≤ high)

/-- The position behind the targets that a bar reaches. -/
def AtrPosition.reach (pos : AtrPosition) (high : ℚ) : AtrPosition :=
  let reached := pos.targets.filter (Target.isReached high)
  { pos with
    targets := pos.targets.map fun t => if t.isReached high then { t with hit := true } else t
    remaining := pos.remaining - (reached.map Target.fraction).sum
    pnl := pos.pnl +
      (reached.map fun t => (t.take - pos.entry) / pos.entry * t.fraction).sum }

def AtrPosition.stopped (pos : AtrPosition) : AtrPosition :=
  { pos with pnl := pos.pnl + (pos.sl - pos.entry) / pos.entry * pos.remaining }

def atrObBar (p : AtrObParams) (df : Frame) (st : AtrObState) (i : ℕ) : AtrObState :=
  match st.position with
  | none =>
      match entryRule p df i with
      | none => st
      | some (block, pos) =>
          if p.oneTradePerOb ∧ block ∈ st.usedOb then st
          else { st with position := some pos, usedOb := st.usedOb ++ [block] }
  | some pos =>
      if (df.bar i).low ≤ pos.sl then
        { st with position := none, trades := st.trades ++ [atrTrade p df pos.stopped i .sl] }
      else
        let after := pos.reach (df.bar i).high
        if after.targets.all Target.hit then
          { st with position := none, trades := st.trades ++ [atrTrade p df after i .tp] }
        else { st with position := some after }

/-- `atr_ob_backtest`. -/
def atrObBacktest (p : AtrObParams) (df : Frame) : AtrObState :=
  (List.range' 1 (df.length - 1)).foldl (atrObBar p df) {}

/-- `run_atr_order_block`. -/
def runAtrOrderBlock (p : AtrObParams) (df : Frame) : EngineResult :=
  finishEngine (atrObBacktest p df).trades (costModelFromParams p.costs) p.allocationUsdt

/-! ## The trades of the loop -/

/-- A trade that the loop has recorded. -/
def IsAtrTrade (p : AtrObParams) (df : Frame) (t : TradeRow) : Prop :=
  ∃ pos i exitType, t = atrTrade p df pos i exitType

/-- Every trade of a backtest closes a position. -/
theorem isAtrTrade_atrObBacktest (p : AtrObParams) (df : Frame) :
    ∀ t ∈ (atrObBacktest p df).trades, IsAtrTrade p df t := by
  have hbar : ∀ (st : AtrObState) (i : ℕ), (∀ t ∈ st.trades, IsAtrTrade p df t) →
      ∀ t ∈ (atrObBar p df st i).trades, IsAtrTrade p df t := by
    intro st i h t ht
    rw [atrObBar] at ht
    split at ht
    · split at ht
      · exact h t ht
      · split at ht
        · exact h t ht
        · exact h t ht
    · next pos hpos =>
      split at ht
      · rcases List.mem_append.mp ht with hold | hnew
        · exact h t hold
        · exact ⟨pos.stopped, i, .sl, List.mem_singleton.mp hnew⟩
      · simp only at ht
        split at ht
        · rcases List.mem_append.mp ht with hold | hnew
          · exact h t hold
          · exact ⟨pos.reach (df.bar i).high, i, .tp, List.mem_singleton.mp hnew⟩
        · exact h t ht
  refine List.foldlRecOn (motive := fun st => ∀ t ∈ AtrObState.trades st, IsAtrTrade p df t) _ _ ?_
    fun st h i _ => hbar st i h
  exact fun t ht => absurd ht List.not_mem_nil

end Backtest

end AdviserConstructor
