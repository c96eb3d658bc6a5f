import AdviserConstructor.Backtest.EngineCosts
import AdviserConstructor.Backtest.VwapSchedule

/-!
# The brackets of the VWAP builder

Whether the stop of a trade lies on the losing side of its entry, and its target on the winning one.
A stop that is measured by the ATR does, and so does a swing stop, whose window contains the bar of
the entry.  An order block lies on an older bar, whose range the price may have left by then: a stop
behind it may lie on the winning side, since the sizer asks for a distance and not for a direction.
The order-block engine, for comparison, enters only while the price is inside of the block.

* `losing_of_entryAt`: an entry whose stop is not behind a block that was left has it on the losing
  side.
* `coherent_of_losing`: what follows for the target and the profits.
* `coherentBrackets_iff`: when all trades of a run have coherent brackets.
-/

namespace AdviserConstructor

namespace Backtest

open JumpLoop

/-! ## Parameters and brackets -/

/-- The ranges of `VwapBacktestRequest`. -/
structure SimParams.InRange (p : SimParams) : Prop where
  rr : 1 / 2 ≤ p.rr ∧ p.rr ≤ 10
  atrMult : 1 / 10 ≤ p.atrMult ∧ p.atrMult ≤ 10
  cooldownBars : 0 ≤ p.cooldownBars ∧ p.cooldownBars ≤ 100
  accountBalance : 0 < p.accountBalance
  riskPerTrade : 0 < p.riskPerTrade ∧ p.riskPerTrade ≤ 10
  maxPositions : 1 ≤ p.maxPositions ∧ p.maxPositions ≤ 50
  maxPositionPct : 0 < p.maxPositionPct ∧ p.maxPositionPct ≤ 100
  stopMode : p.stopMode = .atr ∨ p.stopMode = .swing ∨ p.stopMode = .orderBlock
  swingLookback : 2 ≤ p.swingLookback ∧ p.swingLookback ≤ 500
  swingBufferAtr : 0 ≤ p.swingBufferAtr ∧ p.swingBufferAtr ≤ 10
  obImpulseAtr : 1 / 10 ≤ p.obImpulseAtr ∧ p.obImpulseAtr ≤ 10
  obBufferAtr : 0 ≤ p.obBufferAtr ∧ p.obBufferAtr ≤ 10
  obLookback : 5 ≤ p.obLookback ∧ p.obLookback ≤ 5000

/-- The price lies on the losing side of the entry. -/
def Losing (side : Side) (entry price : ℚ) : Prop :=
  match side with
  | .long => price < entry
  | .short => entry < price

/-- The price lies on the winning side of the entry. -/
def Winning (side : Side) (entry price : ℚ) : Prop :=
  match side with
  | .long => entry < price
  | .short => price < entry

/-- The stop lies on the losing side, the target on the winning one, no stop wins and no target
loses. -/
structure VwapTrade.Coherent (t : VwapTrade) : Prop where
  stop : Losing t.side t.entry t.sl
  target : Winning t.side t.entry t.tp
  pnl_of_stop : t.exitReason = .stop → t.pnlUsdt ≤ 0
  pnl_of_take : t.exitReason = .take → 0 ≤ t.pnlUsdt

/-- All trades have coherent brackets. -/
def CoherentBrackets (trades : List VwapTrade) : Prop := ∀ t ∈ trades, t.Coherent

/-- The bar qualifies an entry whose stop is behind an order block that the price has left on the
losing side, so that the stop lies on the winning side of the close. -/
def LeftBlock (df : Frame) (ind : Indicators) (enabled : List Indicator) (p : SimParams)
    (regime : Regime) (i : ℕ) : Prop :=
  ∃ atr side block, (ind i).atr = some atr ∧ 0 < atr ∧
    qualifiedSide df ind enabled regime i = some side ∧ p.stopMode = .orderBlock ∧
    findLastOrderBlock df ind.atrSeries i side p.obImpulseAtr p.obLookback = some block ∧
    Winning side (df.bar i).close (beyond side (block.level side) (p.obBufferAtr * atr))

/-! ## Sides of a price -/

section

variable {side : Side} {entry price base distance rr : ℚ}

theorem winning_or_losing (h : entry ≠ price) :
    Winning side entry price ∨ Losing side entry price := by
  cases side with
  | long => exact lt_or_gt_of_ne h
  | short => exact (lt_or_gt_of_ne h).symm

theorem not_losing_of_winning (h : Winning side entry price) : ¬Losing side entry price := by
  cases side with
  | long => exact lt_asymm h
  | short => exact lt_asymm h

theorem ne_of_winning (h : Winning side entry price) : entry ≠ price := by
  cases side with
  | long => exact ne_of_lt h
  | short => exact ne_of_gt h

theorem losing_beyond (h : 0 < distance) : Losing side entry (beyond side entry distance) := by
  cases side with
  | long => exact sub_lt_self entry h
  | short => exact lt_add_of_pos_right entry h

theorem not_winning_beyond (hbase : ¬Winning side entry base) (h : 0 ≤ distance) :
    ¬Winning side entry (beyond side base distance) := by
  cases side with
  | long => exact not_lt.mpr ((sub_le_self base h).trans (not_lt.mp hbase))
  | short => exact not_lt.mpr ((not_lt.mp hbase).trans (le_add_of_nonneg_right h))

theorem winning_targetFor (hrr : 0 < rr) (h : Losing side entry price) :
    Winning side entry (targetFor side entry price rr) := by
  cases side with
  | long => exact lt_add_of_pos_right entry (mul_pos (sub_pos.mpr h) hrr)
  | short => exact sub_lt_self entry (mul_pos (sub_pos.mpr h) hrr)

theorem unitPnl_neg_of_losing (h : Losing side entry price) : unitPnl side entry price < 0 := by
  cases side with
  | long => exact sub_neg.mpr h
  | short => exact sub_neg.mpr h

theorem unitPnl_pos_of_winning (h : Winning side entry price) : 0 < unitPnl side entry price := by
  cases side with
  | long => exact sub_pos.mpr h
  | short => exact sub_pos.mpr h

end

/-! ## Swing levels -/

theorem foldl_low_le (bars : List Bar) (least : ℚ) :
    bars.foldl (fun acc x => min acc x.low) least ≤ least ∧
      ∀ bar ∈ bars, bars.foldl (fun acc x => min acc x.low) least ≤ bar.low := by
  induction bars generalizing least with
  | nil => exact ⟨le_rfl, nofun⟩
  | cons first bars ih =>
    obtain ⟨hleast, hbars⟩ := ih (min least first.low)
    refine ⟨hleast.trans (min_le_left _ _), fun bar hbar => ?_⟩
    rcases List.mem_cons.mp hbar with rfl | hbar
    · exact hleast.trans (min_le_right _ _)
    · exact hbars bar hbar

theorem le_foldl_high (bars : List Bar) (greatest : ℚ) :
    greatest ≤ bars.foldl (fun acc x => max acc x.high) greatest ∧
      ∀ bar ∈ bars, bar.high ≤ bars.foldl (fun acc x => max acc x.high) greatest := by
  induction bars generalizing greatest with
  | nil => exact ⟨le_rfl, nofun⟩
  | cons first bars ih =>
    obtain ⟨hgreatest, hbars⟩ := ih (max greatest first.high)
    refine ⟨(le_max_left _ _).trans hgreatest, fun bar hbar => ?_⟩
    rcases List.mem_cons.mp hbar with rfl | hbar
    · exact (le_max_right _ _).trans hgreatest
    · exact hbars bar hbar

theorem lowest_le {bars : List Bar} {bar : Bar} (h : bar ∈ bars) : lowest bars ≤ bar.low := by
  cases bars with
  | nil => cases h
  | cons first bars =>
    obtain ⟨hfirst, hbars⟩ := foldl_low_le bars first.low
    rcases List.mem_cons.mp h with rfl | h
    · exact hfirst
    · exact hbars bar h

theorem le_highest {bars : List Bar} {bar : Bar} (h : bar ∈ bars) : bar.high ≤ highest bars := by
  cases bars with
  | nil => cases h
  | cons first bars =>
    obtain ⟨hfirst, hbars⟩ := le_foldl_high bars first.high
    rcases List.mem_cons.mp h with rfl | h
    · exact hfirst
    · exact hbars bar h

section

variable {df : Frame} {ind : Indicators} {enabled : List Indicator} {regime : Regime}
  {p : SimParams} {overlay : Option (List OverlayBar)} {i : ℕ}

theorem mem_swingWindow (q : StopParams) : df.bar i ∈ swingWindow df q i := by
  refine List.mem_map_of_mem (List.mem_range'_1.mpr ?_)
  rw [swingStart]
  omega

theorem not_winning_swingLevel (hdf : df.WellFormed) (hi : i < df.length) (q : StopParams)
    (side : Side) : ¬Winning side (df.bar i).close (swingLevel df q i side) := by
  have hbar := hdf _ (Frame.bar_mem hi)
  cases side with
  | long => exact not_lt.mpr ((lowest_le (mem_swingWindow q)).trans hbar.low_le_close)
  | short => exact not_lt.mpr (hbar.close_le_high.trans (le_highest (mem_swingWindow q)))

/-! ## The stop of an entry -/

/-- **The side of a stop.**  Unless its order block was left, the stop of an entry lies on the
losing side. -/
theorem losing_of_entryAt {e : Entry} (hdf : df.WellFormed) (hp : p.InRange) (hi : i < df.length)
    (h : entryAt df ind enabled p regime i = some e)
    (hblock : ¬LeftBlock df ind enabled p regime i) : Losing e.side e.entry e.sl := by
  obtain ⟨atr, hatr, hpos, hside, hentry, hsl, _, _, hsize⟩ := entryAt_spec h
  obtain ⟨_, hne, _⟩ := PositionSizer.calculatePositionSize_eq_allowed.mp hsize
  have hmult : 0 < p.atrMult := lt_of_lt_of_le (by norm_num) hp.atrMult.1
  have hdistance : 0 < atr * p.atrMult := mul_pos hpos hmult
  refine (winning_or_losing hne).resolve_left fun hwin => ?_
  rw [hsl, hentry] at hwin
  rcases hp.stopMode with hmode | hmode | hmode
  · simp only [stopFor, hmode] at hwin
    exact not_losing_of_winning hwin (losing_beyond hdistance)
  · simp only [stopFor, hmode] at hwin
    exact not_winning_beyond (not_winning_swingLevel hdf hi _ _)
      (mul_nonneg hp.swingBufferAtr.1 hpos.le) hwin
  · simp only [stopFor, hmode] at hwin
    cases hfound : findLastOrderBlock df ind.atrSeries i e.side p.obImpulseAtr p.obLookback with
    | none =>
      rw [hfound] at hwin
      exact not_losing_of_winning hwin (losing_beyond hdistance)
    | some block =>
      rw [hfound] at hwin
      exact hblock ⟨atr, e.side, block, hatr, hpos, hside, hmode, hfound, hwin⟩

theorem exists_entryAt {atr : ℚ} {side : Side} (hatr : (ind i).atr = some atr) (hpos : 0 < atr)
    (hside : qualifiedSide df ind enabled regime i = some side) (hmax : 0 < p.maxPositions)
    (hne : (df.bar i).close ≠
      (stopFor df ind.atrSeries p.toStopParams i side (df.bar i).close atr).1) :
    ∃ e, entryAt df ind enabled p regime i = some e ∧ e.entry = (df.bar i).close ∧
      e.sl = (stopFor df ind.atrSeries p.toStopParams i side (df.bar i).close atr).1 ∧
      e.side = side := by
  have hsnap : (snapshotAt df ind i).atr = some atr := hatr
  have hsize := PositionSizer.calculatePositionSize_eq_allowed.mpr
    ⟨show p.sizer.openTrades < p.sizer.maxOpenPositions from hmax, hne, rfl⟩
  rw [qualifiedSide] at hside
  simp only [entryAt, hsnap, if_neg (not_le.mpr hpos), hside, hsize]
  exact ⟨_, rfl, rfl, rfl, rfl⟩

theorem entryAt_of_leftBlock (hp : p.InRange) (h : LeftBlock df ind enabled p regime i) :
    ∃ e, entryAt df ind enabled p regime i = some e ∧ Winning e.side e.entry e.sl := by
  obtain ⟨atr, side, block, hatr, hpos, hside, hmode, hfound, hwin⟩ := h
  have hstop : (stopFor df ind.atrSeries p.toStopParams i side (df.bar i).close atr).1 =
      beyond side (block.level side) (p.obBufferAtr * atr) := by
    simp only [stopFor, hmode, hfound, blockStop]
  rw [← hstop] at hwin
  have hmax : 0 < p.maxPositions := by
    have := hp.maxPositions.1
    omega
  obtain ⟨e, he, hentry, hesl, heside⟩ := exists_entryAt hatr hpos hside hmax
    (ne_of_winning hwin)
  refine ⟨e, he, ?_⟩
  rw [hentry, hesl, heside]
  exact hwin

/-- A trade whose stop lies on the losing side has a coherent bracket. -/
theorem coherent_of_losing {e : Entry} {tags : Option AiTags} (hp : p.InRange)
    (hi : i + 1 < df.length) (h : entryAt df ind enabled p regime i = some e)
    (hlosing : Losing e.side e.entry e.sl) : (tradeOf df p i e tags).Coherent := by
  obtain ⟨hne, hsize⟩ := entryAt_size h
  have hquantity : 0 < e.size.quantity := by
    rw [hsize]
    exact quantityFor_pos hp.accountBalance hp.riskPerTrade.1 (abs_pos.mpr (sub_ne_zero.mpr hne))
  obtain ⟨_, _, _, _, _, _, htp, _⟩ := entryAt_spec h
  have hrr : 0 < p.rr := lt_of_lt_of_le (by norm_num) hp.rr.1
  have hwinning : Winning e.side e.entry e.tp := by
    rw [htp]
    exact winning_targetFor hrr hlosing
  have hexit := @exitFor_spec df e i hi
  refine ⟨hlosing, hwinning, fun hstop => ?_, fun htake => ?_⟩
  · show unitPnl e.side e.entry (exitFor df e i).price * e.size.quantity ≤ 0
    rw [hexit.price.1 hstop]
    exact (mul_neg_of_neg_of_pos (unitPnl_neg_of_losing hlosing) hquantity).le
  · show 0 ≤ unitPnl e.side e.entry (exitFor df e i).price * e.size.quantity
    rw [hexit.price.2 htake]
    exact (mul_pos (unitPnl_pos_of_winning hwinning) hquantity).le

/-- **The brackets of a run.**  All trades have coherent brackets exactly if no bar that the loop
looks at enters behind an order block that was left. -/
theorem coherentBrackets_iff (hdf : df.WellFormed) (hp : p.InRange) :
    CoherentBrackets (simulateTrades df ind enabled regime p overlay) ↔
      ∀ i ∈ visits (simulateBody df ind enabled regime p overlay) (df.length - 2) df.length 0,
        ¬LeftBlock df ind enabled p (activeRegime regime (overlayAt overlay i)) i := by
  constructor
  · intro hall i hi hleft
    obtain ⟨e, hentry, hwin⟩ := entryAt_of_leftBlock hp hleft
    have ht := hall _ (mem_run_iff.mpr ⟨i, hi, item_simulateBody_eq_some.mpr ⟨e, hentry, rfl⟩⟩)
    exact not_losing_of_winning hwin ht.stop
  · intro hsafe t ht
    obtain ⟨i, hi, hitem⟩ := mem_run_iff.mp ht
    obtain ⟨_, hlt⟩ := visits_bounds hi
    obtain ⟨e, hentry, rfl⟩ := item_simulateBody_eq_some.mp hitem
    exact coherent_of_losing hp (by omega) hentry
      (losing_of_entryAt hdf hp (by omega) hentry (hsafe i hi))

end

/-- Two enabled averages of 90 and an ATR of 1, from bar 1 on. -/
def risenIndicators (i : ℕ) : IndicatorRow :=
  if i = 0 then { atr := some 1 } else { atr := some 1, emaSlow := some 90, emaFast := some 90 }

/-- An impulse bar from `high` down to `low`, and three bars around 100. -/
def impulseFrame (high low : ℚ) : Frame :=
  [⟨0, high, high, low, low, 1⟩, ⟨1, 100, 101, 99, 100, 1⟩, ⟨2, 100, 101, 99, 100, 1⟩,
    ⟨3, 100, 101, 99, 100, 1⟩]

/-- The defaults, with stops behind order blocks. -/
def blockParams : SimParams := { stopMode := .orderBlock }

/-- The trades of the builder on the bars behind an impulse bar. -/
def impulseTrades (high low : ℚ) : List VwapTrade :=
  simulateTrades (impulseFrame high low) risenIndicators [.emaSlow, .emaFast] .flat blockParams none

theorem blockParams_inRange : blockParams.InRange := by
  constructor <;> simp only [blockParams] <;> norm_num

theorem wellFormed_impulseFrame {high low : ℚ} (h : low ≤ high) :
    (impulseFrame high low).WellFormed := by
  intro bar hbar
  simp only [impulseFrame, List.mem_cons, List.not_mem_nil, or_false] at hbar
  rcases hbar with rfl | rfl | rfl | rfl
  · exact ⟨h, le_rfl, le_rfl, h⟩
  all_goals constructor <;> norm_num

/-- A block below the price: the run enters a trade, and its bracket is coherent. -/
theorem coherentBrackets_blockBelow :
    impulseTrades 98 92 ≠ [] ∧ CoherentBrackets (impulseTrades 98 92) := by
  refine ⟨by decide +kernel, (coherentBrackets_iff (wellFormed_impulseFrame (by norm_num))
    blockParams_inRange).mpr fun i hi hleft => ?_⟩
  obtain ⟨atr, side, block, hatr, _, hside, _, hfound, hwin⟩ := hleft
  obtain ⟨_, hlt⟩ := visits_bounds hi
  have hi : i = 0 ∨ i = 1 := by
    change i < 2 at hlt
    omega
  rcases hi with rfl | rfl
  · have hnone : qualifiedSide (impulseFrame 98 92) risenIndicators [.emaSlow, .emaFast] .flat 0 =
        none := by
      decide +kernel
    cases hnone.symm.trans hside
  · have hlong : qualifiedSide (impulseFrame 98 92) risenIndicators [.emaSlow, .emaFast] .flat 1 =
        some .long := by
      decide +kernel
    cases hlong.symm.trans hside
    have hblock : findLastOrderBlock (impulseFrame 98 92) (Indicators.atrSeries risenIndicators) 1
        .long blockParams.obImpulseAtr blockParams.obLookback = some ⟨92, 98, 0⟩ := by
      decide +kernel
    cases hblock.symm.trans hfound
    cases (show some 1 = some atr from hatr)
    exact absurd hwin (not_lt.mpr (by decide +kernel))

/-- **A stop that wins.**  The price left the block before the entry, so the stop lies above a long
entry, and the next bar closes the trade there with a profit. -/
theorem not_coherentBrackets_blockAbove :
    ¬∀ (df : Frame) (ind : Indicators) (enabled : List Indicator) (regime : Regime) (p : SimParams)
      (overlay : Option (List OverlayBar)), df.WellFormed → (∀ bar ∈ df, 0 < bar.low) →
      p.InRange → CoherentBrackets (simulateTrades df ind enabled regime p overlay) := by
  intro hall
  have hcoherent : CoherentBrackets (impulseTrades 111 105) :=
    hall _ _ _ _ _ _ (wellFormed_impulseFrame (by norm_num)) (by decide +kernel)
      blockParams_inRange
  have hwins : ∃ t ∈ impulseTrades 111 105, t.exitReason = .stop ∧ 0 < t.pnlUsdt := by
    decide +kernel
  obtain ⟨t, ht, hreason, hpnl⟩ := hwins
  exact absurd ((hcoherent t ht).pnl_of_stop hreason) (not_le.mpr hpnl)

end Backtest

end AdviserConstructor
