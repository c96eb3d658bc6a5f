import AdviserConstructor.Backtest.Frame

/-!
# Stops of the VWAP builder

`app/services/backtesting/stop_logic.py`: where the stop of a trade that is entered on bar `idx`
lies, and the explanation that is stored with the trade.  A stop is a multiple of the ATR away from
the entry, or a buffer away from the extreme of the last bars, or from the last order block.

* `computeStopLoss_some`: a stop is a number where the ATR is one.
* `stopFor_congr`: it depends on no bar behind `idx`.
-/

namespace AdviserConstructor

namespace Backtest

/-- The ways to place a stop. -/
inductive StopMode where
  | atr | swing | orderBlock
  | unknown (mode : String)
  deriving DecidableEq, Repr

/-- The arguments of `compute_stop_loss` that do not depend on the bar. -/
structure StopParams where
  atrMult : ℚ := 3 / 2
  stopMode : StopMode := .atr
  swingLookback : ℤ := 20
  swingBufferAtr : ℚ := 3 / 10
  obImpulseAtr : ℚ := 3 / 2
  obBufferAtr : ℚ := 3 / 20
  obLookback : ℤ := 120

/-- An order block: the impulse bar `barI` and its extremes. -/
structure OrderBlock where
  obLow : ℚ
  obHigh : ℚ
  barI : ℕ
  deriving DecidableEq, Repr

/-- The explanation of a stop; a key that it does not have is missing. -/
structure StopExplain where
  mode : String
  fallback : Option String := none
  atr : Num := none
  atrMult : Option ℚ := none
  distance : Num := none
  lookback : Option ℤ := none
  swingLow : Option ℚ := none
  swingHigh : Option ℚ := none
  impulseAtr : Option ℚ := none
  obLow : Option ℚ := none
  obHigh : Option ℚ := none
  obBarI : Option ℕ := none
  bufferAtr : Option ℚ := none
  bufferAbs : Option ℚ := none
  baseLevel : Option ℚ := none
  formula : String
  note : Option String := none
  deriving DecidableEq, Repr

/-! ## Order blocks -/

/-- Bar `k` is an impulse bar against the direction `side`. -/
def isImpulse (df : Frame) (atr : ℕ → Num) (side : Side) (impulseAtr : ℚ) (k : ℕ) : Bool :=
  match atr k with
  | none => false
  | some a =>
      decide (0 < a) && decide (impulseAtr * a < (df.bar k).high - (df.bar k).low) &&
        match side with
        | .long => decide ((df.bar k).close < (df.bar k).openPrice)
        | .short => decide ((df.bar k).openPrice < (df.bar k).close)

/-- The bars from `idx - 1` down to the first of the look-back. -/
def blockBars (idx : ℕ) (lookback : ℤ) : List ℕ :=
  let start := idx - (max 5 lookback).toNat
  (List.range' start (idx - start)).reverse

/-- `find_last_order_block`. -/
def findLastOrderBlock (df : Frame) (atr : ℕ → Num) (idx : ℕ) (side : Side) (impulseAtr : ℚ)
    (lookback : ℤ) : Option OrderBlock :=
  ((blockBars idx lookback).find? (isImpulse df atr side impulseAtr)).map fun k =>
    { obLow := (df.bar k).low, obHigh := (df.bar k).high, barI := k }

theorem lt_of_mem_blockBars {idx k : ℕ} {lookback : ℤ} (h : k ∈ blockBars idx lookback) :
    k < idx := by
  rw [blockBars, List.mem_reverse, List.mem_range'_1] at h
  omega

theorem findLastOrderBlock_congr {df df' : Frame} {atr atr' : ℕ → Num} {idx : ℕ} {side : Side}
    {impulseAtr : ℚ} {lookback : ℤ} (hdf : ∀ i < idx, df.bar i = df'.bar i)
    (hatr : ∀ i < idx, atr i = atr' i) :
    findLastOrderBlock df atr idx side impulseAtr lookback =
      findLastOrderBlock df' atr' idx side impulseAtr lookback := by
  have himpulse : ∀ k ∈ blockBars idx lookback,
      isImpulse df atr side impulseAtr k = isImpulse df' atr' side impulseAtr k := by
    intro k hk
    have hlt := lt_of_mem_blockBars hk
    simp only [isImpulse, hdf k hlt, hatr k hlt]
  rw [findLastOrderBlock, List.find?_congr himpulse]
  refine Option.map_congr fun k hk => ?_
  rw [hdf k (lt_of_mem_blockBars (List.mem_of_find?_eq_some hk))]

/-! ## Stops -/

/-- The price `distance` away from `base`, on the losing side. -/
def beyond (side : Side) (base distance : ℚ) : ℚ :=
  match side with
  | .long => base - distance
  | .short => base + distance

def bySide (side : Side) (long short : String) : String :=
  match side with
  | .long => long
  | .short => short

def atrFormula (side : Side) : String :=
  bySide side "SL = Entry - ATR×mult" "SL = Entry + ATR×mult"

/-- The first bar of the window of a swing stop. -/
def swingStart (p : StopParams) (idx : ℕ) : ℕ := idx - (max 2 p.swingLookback).toNat

/-- `df.iloc[start : idx + 1]` of a swing stop. -/
def swingWindow (df : Frame) (p : StopParams) (idx : ℕ) : List Bar :=
  (List.range' (swingStart p idx) (idx + 1 - swingStart p idx)).map df.bar

def lowest : List Bar → ℚ
  | [] => 0
  | b :: bs => bs.foldl (fun acc x => min acc x.low) b.low

def highest : List Bar → ℚ
  | [] => 0
  | b :: bs => bs.foldl (fun acc x => max acc x.high) b.high

def swingLevel (df : Frame) (p : StopParams) (idx : ℕ) (side : Side) : ℚ :=
  match side with
  | .long => lowest (swingWindow df p idx)
  | .short => highest (swingWindow df p idx)

/-- The base level of a stop behind an order block. -/
def OrderBlock.level (block : OrderBlock) (side : Side) : ℚ :=
  match side with
  | .long => block.obLow
  | .short => block.obHigh

/-- The explanation of a swing stop whose buffer is `buffer`. -/
def swingExplain (df : Frame) (p : StopParams) (idx : ℕ) (side : Side) (atr : Num) (buffer : ℚ) :
    StopExplain where
  mode := "Swing"
  lookback := some (max 2 p.swingLookback)
  swingLow := some (lowest (swingWindow df p idx))
  swingHigh := some (highest (swingWindow df p idx))
  atr := atr
  bufferAtr := some p.swingBufferAtr
  bufferAbs := some buffer
  baseLevel := some (swingLevel df p idx side)
  formula := bySide side "SL = SwingLow - ATR×buffer" "SL = SwingHigh + ATR×buffer"

/-- The explanation of an ATR stop, in mode `mode`. -/
def atrExplain (p : StopParams) (side : Side) (atr : Num) (mode : String)
    (fallback note : Option String) : StopExplain where
  mode := mode
  fallback := fallback
  atr := atr
  atrMult := some p.atrMult
  distance := atr.map (· * p.atrMult)
  formula := atrFormula side
  note := note

/-- The note of a stop that was to lie behind an order block, where there is none. -/
def noBlockNote : String := "Order Block not found in lookback, fallback to ATR."

/-- The note of a stop in a mode that the code does not know. -/
def unknownModeNote (mode : String) : String :=
  "Unknown stop_mode='" ++ mode ++ "', fallback to ATR."

def atrStop (p : StopParams) (side : Side) (entry atr : ℚ) : ℚ :=
  beyond side entry (atr * p.atrMult)

def blockStop (p : StopParams) (side : Side) (atr : ℚ) (block : OrderBlock) : ℚ × StopExplain :=
  let buffer := p.obBufferAtr * atr
  (beyond side (block.level side) buffer,
    { mode := "Order Block (ATR-OB)"
      atr := some atr
      impulseAtr := some p.obImpulseAtr
      lookback := some p.obLookback
      obLow := some block.obLow
      obHigh := some block.obHigh
      obBarI := some block.barI
      bufferAtr := some p.obBufferAtr
      bufferAbs := some buffer
      baseLevel := some (block.level side)
      formula := bySide side "SL = OB.low - ATR×buffer" "SL = OB.high + ATR×buffer" })

/-- `compute_stop_loss` where the ATR of the bar is the number `a`. -/
def stopFor (df : Frame) (atr : ℕ → Num) (p : StopParams) (idx : ℕ) (side : Side) (entry a : ℚ) :
    ℚ × StopExplain :=
  match p.stopMode with
  | .atr => (atrStop p side entry a, atrExplain p side (some a) "ATR" none none)
  | .swing =>
      (beyond side (swingLevel df p idx side) (p.swingBufferAtr * a),
        swingExplain df p idx side (some a) (p.swingBufferAtr * a))
  | .orderBlock =>
      match findLastOrderBlock df atr idx side p.obImpulseAtr p.obLookback with
      | some block => blockStop p side a block
      | none =>
          (atrStop p side entry a,
            atrExplain p side (some a) "Order Block (ATR-OB)" (some "ATR") (some noBlockNote))
  | .unknown mode =>
      (atrStop p side entry a,
        atrExplain p side (some a) "ATR" none (some (unknownModeNote mode)))

/-- `compute_stop_loss`. -/
def computeStopLoss (df : Frame) (atr : ℕ → Num) (p : StopParams) (idx : ℕ) (side : Side)
    (entry : ℚ) : Num × StopExplain :=
  match atr idx with
  | some a =>
      (some (stopFor df atr p idx side entry a).1, (stopFor df atr p idx side entry a).2)
  | none =>
      match p.stopMode with
      | .atr => (none, atrExplain p side none "ATR" none none)
      | .swing =>
          (some (beyond side (swingLevel df p idx side) 0), swingExplain df p idx side none 0)
      | .orderBlock =>
          (none, atrExplain p side none "Order Block (ATR-OB)" (some "ATR") (some noBlockNote))
      | .unknown mode => (none, atrExplain p side none "ATR" none (some (unknownModeNote mode)))

/-- A stop is a number where the ATR is one. -/
theorem computeStopLoss_some {df : Frame} {atr : ℕ → Num} {p : StopParams} {idx : ℕ} {side : Side}
    {entry a : ℚ} (ha : atr idx = some a) :
    computeStopLoss df atr p idx side entry =
      (some (stopFor df atr p idx side entry a).1, (stopFor df atr p idx side entry a).2) := by
  rw [computeStopLoss, ha]

theorem swingWindow_congr {df df' : Frame} {p : StopParams} {idx : ℕ}
    (hdf : df.AgreeUpTo df' idx) : swingWindow df p idx = swingWindow df' p idx := by
  refine List.map_congr_left fun i hi => hdf i ?_
  rw [List.mem_range'_1] at hi
  omega

/-- **No look-ahead in the stop.**  The stop of a trade depends on no bar behind its entry. -/
theorem stopFor_congr {df df' : Frame} {atr atr' : ℕ → Num} {p : StopParams} {idx : ℕ} {side : Side}
    {entry a : ℚ} (hdf : df.AgreeUpTo df' idx) (hatr : ∀ i ≤ idx, atr i = atr' i) :
    stopFor df atr p idx side entry a = stopFor df' atr' p idx side entry a := by
  have hblock := @findLastOrderBlock_congr df df' atr atr' idx side p.obImpulseAtr p.obLookback
    (fun i hi => hdf i (Nat.le_of_lt hi)) fun i hi => hatr i (Nat.le_of_lt hi)
  rw [stopFor, stopFor]
  simp only [hblock, swingLevel, swingExplain, swingWindow_congr hdf]

end Backtest

end AdviserConstructor
