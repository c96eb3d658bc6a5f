import AdviserConstructor.Backtest.CostModel

/-!
# The intraday momentum engine

`app/services/backtesting/intraday_momentum.py`: a close beyond the Donchian channel of the bars
before it, on a high volume, enters on the next open, and the position is held to its stop, its
target, or the end of its time.

The ATR comes from a library and is given; the channel and the mean of the volume are rolling
windows.

* `isIntradayTrade_intradayMomentumBacktest`: every trade carries its quantity, and the loss at its
  stop as its risk, but no allocation.
-/

namespace AdviserConstructor

namespace Backtest

/-- The parameters of `run_intraday_momentum`. -/
structure IntradayParams where
  lookback : ℕ := 20
  atrPeriod : ℕ := 14
  atrMult : ℚ := 2
  rr : ℚ := 2
  volSma : ℕ := 20
  volMult : ℚ := 12 / 10
  timeExitBars : ℤ := 48
  side : Side := .long
  allocationUsdt : ℚ := 1000
  riskPerTradePct : ℚ := 1
  maxPositions : ℤ := 1
  entrySizeUsdt : Option ℚ := none
  costs : CostParams := {}

def IntradayParams.sizer (p : IntradayParams) : PositionSizer where
  accountBalance := p.allocationUsdt
  riskPerTrade := p.riskPerTradePct
  maxOpenPositions := p.maxPositions

/-- `donch_hi`. -/
def donchianHigh (df : Frame) (lookback : ℕ) : ℕ → Num :=
  shift (rolling greatest (fun i => (df.bar i).high) lookback)

/-- `donch_lo`. -/
def donchianLow (df : Frame) (lookback : ℕ) : ℕ → Num :=
  shift (rolling least (fun i => (df.bar i).low) lookback)

/-- The volume of a bar is above the mean of the last ones. -/
def highVolume (p : IntradayParams) (df : Frame) (i : ℕ) : Bool :=
  Num.lt ((rolling mean (fun j => (df.bar j).volume) p.volSma i).map (· * p.volMult))
    (some (df.bar i).volume)

/-- The close of a bar breaks out of the channel. -/
def breaksOut (p : IntradayParams) (df : Frame) (i : ℕ) : Bool :=
  match p.side with
  | .long => (donchianHigh df p.lookback i).lt (some (df.bar i).close) && highVolume p df i
  | .short => Num.lt (some (df.bar i).close) (donchianLow df p.lookback i) && highVolume p df i

/-- A position. -/
structure IntradayPosition where
  entryI : ℕ
  entry : ℚ
  sl : ℚ
  tp : ℚ
  qty : ℚ
  deriving DecidableEq, Repr

/-- The quantity of an entry; nothing is entered unless it is positive. -/
def intradayQty (p : IntradayParams) (entry sl : ℚ) : ℚ :=
  match p.entrySizeUsdt with
  | some size => if 0 < entry then min size p.allocationUsdt / entry else 0
  | none =>
      match p.sizer.calculatePositionSize entry (some sl) with
      | .allowed (some size) => size.quantity
      | _ => 0

/-- The position that a breakout on bar `i` enters on the next open. -/
def intradayEntry (p : IntradayParams) (df : Frame) (i : ℕ) (atr : ℚ) : Option IntradayPosition :=
  let entry := (df.bar (i + 1)).openPrice
  let sl := match p.side with
    | .long => entry - atr * p.atrMult
    | .short => entry + atr * p.atrMult
  let tp := match p.side with
    | .long => entry + (entry - sl) * p.rr
    | .short => entry - (sl - entry) * p.rr
  if breaksOut p df i && decide (0 < intradayQty p entry sl) then
    some { entryI := i + 1, entry := entry, sl := sl, tp := tp, qty := intradayQty p entry sl }
  else none

/-- How bar `i` ends a position, if it does. -/
def intradayExit (p : IntradayParams) (df : Frame) (pos : IntradayPosition) (i : ℕ) :
    Option (RowExit × ℚ) :=
  let bar := df.bar i
  let reached : Option (RowExit × ℚ) := match p.side with
    | .long =>
        if bar.low ≤ pos.sl then some (.stop, pos.sl)
        else if pos.tp ≤ bar.high then some (.take, pos.tp)
        else none
    | .short =>
        if pos.sl ≤ bar.high then some (.stop, pos.sl)
        else if bar.low ≤ pos.tp then some (.take, pos.tp)
        else none
  reached.or (if p.timeExitBars ≤ (i : ℤ) - pos.entryI then some (.time, bar.close) else none)

/-- The trade of a position, with the column that `run_intraday_momentum` adds. -/
def intradayTrade (p : IntradayParams) (df : Frame) (pos : IntradayPosition) (i : ℕ)
    (reason : RowExit) (price : ℚ) : TradeRow where
  side := some p.side
  entryTime := (df.bar pos.entryI).time
  exitTime := (df.bar i).time
  entry := pos.entry
  exit := some price
  sl := some pos.sl
  qty := some pos.qty
  riskUsdt := some (|pos.entry - pos.sl| * pos.qty)
  pnlUsdt := match p.side with
    | .long => (price - pos.entry) * pos.qty
    | .short => (pos.entry - price) * pos.qty
  exitReason := some reason

/-- The variables of the loop. -/
structure IntradayState where
  position : Option IntradayPosition := none
  trades : List TradeRow := []

def intradayBar (p : IntradayParams) (df : Frame) (atr : ℕ → Num) (st : IntradayState) (i : ℕ) :
    IntradayState :=
  match atr i with
  | none => st
  | some a =>
      if a ≤ 0 then st
      else
        match st.position with
        | none => { st with position := intradayEntry p df i a }
        | some pos =>
            match intradayExit p df pos i with
            | none => st
            | some (reason, price) =>
                { position := none
                  trades := st.trades ++ [intradayTrade p df pos i reason price] }

/-- `intraday_momentum_backtest`. -/
def intradayMomentumBacktest (p : IntradayParams) (df : Frame) (atr : ℕ → Num) : IntradayState :=
  let start := max (max p.lookback p.atrPeriod) p.volSma + 2
  (List.range' start (df.length - 1 - start)).foldl (intradayBar p df atr) {}

/-- `run_intraday_momentum`. -/
def runIntradayMomentum (p : IntradayParams) (df : Frame) (atr : ℕ → Num) : EngineResult :=
  finishEngine (intradayMomentumBacktest p df atr).trades (costModelFromParams p.costs)
    p.allocationUsdt

/-! ## The trades of the loop -/

/-- A trade that the loop has recorded. -/
def IsIntradayTrade (p : IntradayParams) (df : Frame) (t : TradeRow) : Prop :=
  ∃ pos i reason price, reason ≠ .openAtEnd ∧ t = intradayTrade p df pos i reason price

theorem intradayExit_ne_open {p : IntradayParams} {df : Frame} {pos : IntradayPosition} {i : ℕ}
    {reason : RowExit} {price : ℚ} (h : intradayExit p df pos i = some (reason, price)) :
    reason ≠ .openAtEnd := by
  rintro rfl
  simp only [intradayExit, Option.or_eq_some_iff] at h
  rcases h with h | ⟨_, h⟩
  · cases hside : p.side with
    | long =>
      rw [hside] at h
      simp only at h
      split_ifs at h
      · cases h
      · cases h
    | short =>
      rw [hside] at h
      simp only at h
      split_ifs at h
      · cases h
      · cases h
  · split_ifs at h
    cases h

/-- Every trade of a backtest closes a position. -/
theorem isIntradayTrade_intradayMomentumBacktest (p : IntradayParams) (df : Frame)
    (atr : ℕ → Num) : ∀ t ∈ (intradayMomentumBacktest p df atr).trades, IsIntradayTrade p df t := by
  have hbar : ∀ (st : IntradayState) (i : ℕ), (∀ t ∈ st.trades, IsIntradayTrade p df t) →
      ∀ t ∈ (intradayBar p df atr st i).trades, IsIntradayTrade p df t := by
    intro st i h t ht
    rw [intradayBar] at ht
    split at ht
    · exact h t ht
    · split at ht
      · exact h t ht
      · split at ht
        · exact h t ht
        · next pos hpos =>
          split at ht
          · exact h t ht
          · next reason price hexit =>
            rcases List.mem_append.mp ht with hold | hnew
            · exact h t hold
            · exact ⟨pos, i, reason, price, intradayExit_ne_open hexit, List.mem_singleton.mp hnew⟩
  refine List.foldlRecOn
    (motive := fun st => ∀ t ∈ IntradayState.trades st, IsIntradayTrade p df t) _ _ ?_
    fun st h i _ => hbar st i h
  exact fun t ht => absurd ht List.not_mem_nil

end Backtest

end AdviserConstructor
