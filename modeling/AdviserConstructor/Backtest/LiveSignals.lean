import AdviserConstructor.Backtest.AtrOrderBlock
import AdviserConstructor.Backtest.VwapBuilder

/-!
# Live signals

`app/services/live_signals.py`: the entry rules of two engines are written once more, for the last
closed bar of a frame whose last bar is still forming.

The order-block signal looks at the block that was marked on the bar before and carries no older one
forward, takes the bounds of the block for a part of it, and measures stop and target by the ATR of
the bar of the signal, where the engine takes that of the bar before.  The signal of the builder
ignores the preset, and asks neither for an ATR nor for an allowed size.

* `atrObSignal_agrees_iff`: when the order-block signal agrees with the entry rule of the engine.
* `builderSignal_agrees_iff`: when the signal of the builder agrees with the body of the simulation.
* `atrObSignal_olderBlock`, `builderSignal_preset`: a block that is older than a bar, and a preset,
  are overlooked.
-/

namespace AdviserConstructor

namespace Backtest

/-- `_safe_last_closed_index`, `-1` where there is none. -/
def safeLastClosedIndex (df : Frame) : Option ℕ :=
  if df.length < 3 then none else some (df.length - 2)

/-- An answer whose `has_signal` is false. -/
structure NoSignal where
  barTime : Option ℤ := none
  reasons : List String := []
  deriving DecidableEq, Repr

/-! ## The order-block signal -/

/-- A signal of `compute_atr_ob_signal`, without the texts of its reasons; the last four fields
explain the stop. -/
structure AtrObSignal where
  entry : ℚ
  sl : ℚ
  tp : ℚ
  barTime : ℤ
  positionValue : ℚ
  obLow : ℚ
  obHigh : ℚ
  atr : ℚ
  bufferAtr : ℚ
  deriving DecidableEq, Repr

/-- The signal on bar `idx` for an order block. -/
def atrObSignalOf (p : AtrObParams) (df : Frame) (idx : ℕ) (block : BullBlock) (atr : ℚ) :
    AtrObSignal where
  entry := (df.bar idx).openPrice
  sl := block.low - p.obBufferAtr * atr
  tp := (df.bar idx).openPrice + 6 / 10 * atr
  barTime := (df.bar idx).time
  positionValue := p.allocationUsdt
  obLow := block.low
  obHigh := block.high
  atr := atr
  bufferAtr := p.obBufferAtr

/-- `compute_atr_ob_signal`. -/
def computeAtrObSignal (p : AtrObParams) (df : Frame) : Except NoSignal AtrObSignal :=
  match safeLastClosedIndex df with
  | none => .error { reasons := ["Not enough bars"] }
  | some idx =>
      if idx < 2 then .error { reasons := ["Not enough bars"] }
      else
        let barTime := (df.bar idx).time
        match markAt p df (idx - 1) with
        | none => .error { barTime := some barTime }
        | some block =>
            let prevClose := (df.bar (idx - 1)).close
            if ¬(block.low ≤ prevClose ∧ prevClose ≤ block.high) then
              .error { barTime := some barTime }
            else if prevClose ≤ calcEma df.closes p.emaPeriod (idx - 1) then
              .error { barTime := some barTime }
            else
              match (calcAtr df p.atrPeriod idx).filter fun atr => decide (0 < atr) with
              | none => .error { barTime := some barTime, reasons := ["ATR missing"] }
              | some atr => .ok (atrObSignalOf p df idx block atr)

/-- What a signal is compared by: entry, stop and target. -/
def AtrObSignal.levels (signal : AtrObSignal) : ℚ × ℚ × Option ℚ :=
  (signal.entry, signal.sl, some signal.tp)

/-- What an entry of the engine is compared by: entry, stop and first target. -/
def AtrPosition.levels (pos : AtrPosition) : ℚ × ℚ × Option ℚ :=
  (pos.entry, pos.sl, pos.targets.head?.map Target.take)

/-- The signal agrees with the entry rule on the last closed bar, for an engine that holds no
position and has not used the block. -/
def AtrObSignalAgrees (p : AtrObParams) (df : Frame) : Prop :=
  (computeAtrObSignal p df).toOption.map AtrObSignal.levels =
    (safeLastClosedIndex df).bind fun t => (entryRule p df t).map fun x => x.2.levels

section

variable {p : AtrObParams} {df : Frame}

/-- The block of the engine on bar `j` is one that its entry rule accepts. -/
def EngineAccepts (p : AtrObParams) (df : Frame) (j : ℕ) (block : BullBlock) : Prop :=
  block.low < (df.bar j).close ∧ (df.bar j).close < block.high ∧ calcAtr df p.atrPeriod j ≠ none

/-- The block was marked on bar `j` itself, and the levels that are measured by the two ATR values
come out alike. -/
structure SameLevels (p : AtrObParams) (df : Frame) (j : ℕ) : Prop where
  fresh : markAt p df j ≠ none
  levels : ∃ atr prev first, calcAtr df p.atrPeriod (j + 1) = some atr ∧ 0 < atr ∧
    calcAtr df p.atrPeriod j = some prev ∧ p.obBufferAtr * atr = p.obBufferAtr * prev ∧
    p.tpLevels.head? = some first ∧ 6 / 10 * atr = first.1 * prev

/-- The live rule overlooks the block on bar `j`, or refuses it. -/
def LiveRefuses (p : AtrObParams) (df : Frame) (j : ℕ) (block : BullBlock) : Prop :=
  markAt p df j = none ∨ (df.bar j).close < block.low ∨ block.high < (df.bar j).close ∨
    ∀ atr, calcAtr df p.atrPeriod (j + 1) = some atr → atr ≤ 0

/-- When the signal agrees with the engine, of whose bars `j` is the last but two: the close of the
bar is not above the moving average, or there is no block, or both accept the block and measure
alike, or both refuse it. -/
def AtrObSignalSafe (p : AtrObParams) (df : Frame) : Prop :=
  ∀ block, calcEma df.closes p.emaPeriod (df.length - 3) < (df.bar (df.length - 3)).close →
    carriedBlock p df (df.length - 3) = some block →
      (EngineAccepts p df (df.length - 3) block ∧ SameLevels p df (df.length - 3)) ∨
        (¬EngineAccepts p df (df.length - 3) block ∧ LiveRefuses p df (df.length - 3) block)

theorem markAt_of_short (h : df.length < 5) (j : ℕ) : markAt p df j = none := by
  rw [markAt, show df.length - 4 = 0 by omega]
  rfl

theorem carriedBlock_of_short (h : df.length < 5) (j : ℕ) : carriedBlock p df j = none := by
  induction j with
  | zero => exact markAt_of_short h 0
  | succ j ih => rw [carriedBlock, markAt_of_short h, ih, Option.or_none]

variable {block : BullBlock} {j : ℕ}

theorem carriedBlock_of_markAt (h : markAt p df j = some block) :
    carriedBlock p df j = some block := by
  cases j with
  | zero => exact h
  | succ j => rw [carriedBlock, h, Option.some_or]

theorem entryRule_succ_eq_some {x : BullBlock × AtrPosition} :
    entryRule p df (j + 1) = some x ↔
      ∃ block prev, carriedBlock p df j = some block ∧ calcAtr df p.atrPeriod j = some prev ∧
        block.low < (df.bar j).close ∧ (df.bar j).close < block.high ∧
        calcEma df.closes p.emaPeriod j < (df.bar j).close ∧
        x = (block,
          { entryI := j + 1
            entry := (df.bar (j + 1)).openPrice
            sl := block.low - p.obBufferAtr * prev
            targets := p.tpLevels.map fun level =>
              { take := (df.bar (j + 1)).openPrice + level.1 * prev, fraction := level.2 } }) := by
  rw [entryRule, Nat.add_sub_cancel]
  cases hblock : carriedBlock p df j with
  | none => exact ⟨nofun, by rintro ⟨_, _, h, _⟩; cases h⟩
  | some block =>
    cases hprev : calcAtr df p.atrPeriod j with
    | none => exact ⟨nofun, by rintro ⟨_, _, _, h, _⟩; cases h⟩
    | some prev =>
      simp only [Option.ite_none_right_eq_some, Option.some_inj]
      constructor
      · rintro ⟨⟨hlow, hhigh, hema⟩, rfl⟩
        exact ⟨block, prev, rfl, rfl, hlow, hhigh, hema, rfl⟩
      · rintro ⟨_, _, rfl, rfl, hlow, hhigh, hema, rfl⟩
        exact ⟨⟨hlow, hhigh, hema⟩, rfl⟩

theorem computeAtrObSignal_eq_ok {signal : AtrObSignal} (hlength : df.length = j + 3) :
    computeAtrObSignal p df = .ok signal ↔
      ∃ block atr, markAt p df j = some block ∧ calcAtr df p.atrPeriod (j + 1) = some atr ∧
        0 < atr ∧ block.low ≤ (df.bar j).close ∧ (df.bar j).close ≤ block.high ∧
        calcEma df.closes p.emaPeriod j < (df.bar j).close ∧
        signal = atrObSignalOf p df (j + 1) block atr := by
  have hidx : safeLastClosedIndex df = some (j + 1) := by
    rw [safeLastClosedIndex, hlength]
    rfl
  rw [computeAtrObSignal, hidx]
  simp only [Nat.add_sub_cancel]
  by_cases hearly : j + 1 < 2
  · rw [if_pos hearly, markAt_of_short (by omega)]
    exact ⟨nofun, by rintro ⟨_, _, h, _⟩; cases h⟩
  · rw [if_neg hearly]
    cases hmark : markAt p df j with
    | none => exact ⟨nofun, by rintro ⟨_, _, h, _⟩; cases h⟩
    | some block =>
      simp only
      by_cases hzone : block.low ≤ (df.bar j).close ∧ (df.bar j).close ≤ block.high
      · rw [if_neg (not_not.mpr hzone)]
        by_cases hema : (df.bar j).close ≤ calcEma df.closes p.emaPeriod j
        · rw [if_pos hema]
          refine ⟨nofun, ?_⟩
          rintro ⟨_, _, _, _, _, _, _, h, _⟩
          exact absurd hema (not_le.mpr h)
        · rw [if_neg hema]
          cases hatr : calcAtr df p.atrPeriod (j + 1) with
          | none => exact ⟨nofun, by rintro ⟨_, _, _, h, _⟩; cases h⟩
          | some atr =>
            by_cases hpos : 0 < atr
            · rw [Option.filter_some, if_pos (decide_eq_true hpos)]
              simp only [Except.ok.injEq]
              constructor
              · rintro rfl
                exact ⟨block, atr, rfl, rfl, hpos, hzone.1, hzone.2, not_le.mp hema, rfl⟩
              · rintro ⟨_, _, ⟨⟩, ⟨⟩, _, _, _, _, rfl⟩
                rfl
            · rw [Option.filter_some, if_neg (by rw [decide_eq_true_eq]; exact hpos)]
              refine ⟨nofun, ?_⟩
              rintro ⟨_, _, _, ⟨⟩, h, _⟩
              exact absurd h hpos
      · rw [if_pos hzone]
        refine ⟨nofun, ?_⟩
        rintro ⟨_, _, ⟨⟩, _, _, hlow, hhigh, _⟩
        exact absurd ⟨hlow, hhigh⟩ hzone

theorem levels_of_engineAccepts (hema : calcEma df.closes p.emaPeriod j < (df.bar j).close)
    (hblock : carriedBlock p df j = some block) (h : EngineAccepts p df j block) :
    ∃ prev, calcAtr df p.atrPeriod j = some prev ∧
      (entryRule p df (j + 1)).map (fun x => x.2.levels) =
        some ((df.bar (j + 1)).openPrice, block.low - p.obBufferAtr * prev,
          p.tpLevels.head?.map fun level => (df.bar (j + 1)).openPrice + level.1 * prev) := by
  obtain ⟨hlow, hhigh, hatr⟩ := h
  obtain ⟨prev, hprev⟩ := Option.ne_none_iff_exists'.mp hatr
  refine ⟨prev, hprev, ?_⟩
  rw [entryRule_succ_eq_some.mpr ⟨block, prev, hblock, hprev, hlow, hhigh, hema, rfl⟩]
  simp only [Option.map_some, AtrPosition.levels, List.head?_map, Option.map_map]
  rfl

theorem entryRule_of_not_engineAccepts (hblock : carriedBlock p df j = some block)
    (h : ¬EngineAccepts p df j block) : entryRule p df (j + 1) = none := by
  refine Option.eq_none_iff_forall_ne_some.mpr fun x hx => h ?_
  obtain ⟨_, prev, hsome, hprev, hlow, hhigh, _, _⟩ := entryRule_succ_eq_some.mp hx
  obtain rfl := Option.some.inj (hblock.symm.trans hsome)
  exact ⟨hlow, hhigh, by rw [hprev]; nofun⟩

theorem levels_of_not_liveRefuses (hlength : df.length = j + 3)
    (hema : calcEma df.closes p.emaPeriod j < (df.bar j).close)
    (hblock : carriedBlock p df j = some block) (h : ¬LiveRefuses p df j block) :
    ∃ atr, calcAtr df p.atrPeriod (j + 1) = some atr ∧ 0 < atr ∧ markAt p df j ≠ none ∧
      (computeAtrObSignal p df).toOption.map AtrObSignal.levels =
        some ((df.bar (j + 1)).openPrice, block.low - p.obBufferAtr * atr,
          some ((df.bar (j + 1)).openPrice + 6 / 10 * atr)) := by
  rw [LiveRefuses] at h
  push Not at h
  obtain ⟨hmark, hlow, hhigh, atr, hatr, hpos⟩ := h
  refine ⟨atr, hatr, hpos, hmark, ?_⟩
  obtain ⟨marked, hmarked⟩ := Option.ne_none_iff_exists'.mp hmark
  obtain rfl := Option.some.inj (hblock.symm.trans (carriedBlock_of_markAt hmarked))
  rw [(computeAtrObSignal_eq_ok hlength).mpr
    ⟨_, atr, hmarked, hatr, hpos, hlow, hhigh, hema, rfl⟩]
  rfl

theorem toOption_of_liveRefuses (hlength : df.length = j + 3)
    (hblock : carriedBlock p df j = some block) (h : LiveRefuses p df j block) :
    (computeAtrObSignal p df).toOption = none := by
  cases hsignal : computeAtrObSignal p df with
  | error _ => rfl
  | ok signal =>
    obtain ⟨marked, atr, hmarked, hatr, hpos, hlow, hhigh, _⟩ :=
      (computeAtrObSignal_eq_ok hlength).mp hsignal
    obtain rfl := Option.some.inj (hblock.symm.trans (carriedBlock_of_markAt hmarked))
    rcases h with hnone | hbelow | habove | hflat
    · rw [hmarked] at hnone
      cases hnone
    · exact absurd hlow (not_le.mpr hbelow)
    · exact absurd hhigh (not_le.mpr habove)
    · exact absurd hpos (not_lt.mpr (hflat atr hatr))

theorem SameLevels.not_liveRefuses (h : SameLevels p df j) (haccepts : EngineAccepts p df j block) :
    ¬LiveRefuses p df j block := by
  obtain ⟨hfresh, atr, _, _, hatr, hpos, _⟩ := h
  rintro (hnone | hbelow | habove | hflat)
  · exact hfresh hnone
  · exact lt_asymm hbelow haccepts.1
  · exact lt_asymm habove haccepts.2.1
  · exact absurd hpos (not_lt.mpr (hflat atr hatr))

/-- **The order-block signal** agrees with the entry rule of the engine exactly if both accept the
block and measure alike, or both refuse it. -/
theorem atrObSignal_agrees_iff (p : AtrObParams) (df : Frame) :
    AtrObSignalAgrees p df ↔ AtrObSignalSafe p df := by
  by_cases hshort : df.length < 3
  · -- there is no closed bar to look at, and there is no block
    have hidx : safeLastClosedIndex df = none := if_pos hshort
    rw [AtrObSignalAgrees, computeAtrObSignal, hidx]
    refine ⟨fun _ block _ hblock => ?_, fun _ => rfl⟩
    rw [carriedBlock_of_short (by omega)] at hblock
    cases hblock
  · obtain ⟨j, hlength⟩ : ∃ j, df.length = j + 3 := ⟨df.length - 3, by omega⟩
    have hidx : safeLastClosedIndex df = some (j + 1) := by
      rw [safeLastClosedIndex, hlength]
      rfl
    rw [AtrObSignalAgrees, AtrObSignalSafe, hidx, Option.bind_some,
      show df.length - 3 = j by omega]
    by_cases hema : calcEma df.closes p.emaPeriod j < (df.bar j).close
    · cases hblock : carriedBlock p df j with
      | none =>
        have hlive : (computeAtrObSignal p df).toOption = none := by
          cases hsignal : computeAtrObSignal p df with
          | error _ => rfl
          | ok signal =>
            obtain ⟨_, _, hmarked, _⟩ := (computeAtrObSignal_eq_ok hlength).mp hsignal
            rw [carriedBlock_of_markAt hmarked] at hblock
            cases hblock
        have hengine : entryRule p df (j + 1) = none := by
          refine Option.eq_none_iff_forall_ne_some.mpr fun x hx => ?_
          obtain ⟨_, _, hsome, _⟩ := entryRule_succ_eq_some.mp hx
          rw [hblock] at hsome
          cases hsome
        rw [hlive, hengine]
        exact ⟨fun _ _ _ => nofun, fun _ => rfl⟩
      | some block =>
        have hsafe : (∀ b, calcEma df.closes p.emaPeriod j < (df.bar j).close →
            some block = some b → (EngineAccepts p df j b ∧ SameLevels p df j) ∨
              (¬EngineAccepts p df j b ∧ LiveRefuses p df j b)) ↔
            (EngineAccepts p df j block ∧ SameLevels p df j) ∨
              (¬EngineAccepts p df j block ∧ LiveRefuses p df j block) := by
          refine ⟨fun h => h block hema rfl, ?_⟩
          rintro h _ _ ⟨⟩
          exact h
        rw [hsafe]
        by_cases haccepts : EngineAccepts p df j block
        · obtain ⟨prev, hprev, hengine⟩ := levels_of_engineAccepts hema hblock haccepts
          rw [hengine]
          by_cases hrefuses : LiveRefuses p df j block
          · rw [toOption_of_liveRefuses hlength hblock hrefuses]
            refine ⟨nofun, ?_⟩
            rintro (⟨_, hsame⟩ | ⟨hnot, _⟩)
            · exact absurd hrefuses (hsame.not_liveRefuses haccepts)
            · exact absurd haccepts hnot
          · obtain ⟨atr, hatr, hpos, hmark, hlive⟩ :=
              levels_of_not_liveRefuses hlength hema hblock hrefuses
            rw [hlive]
            constructor
            · intro heq
              obtain ⟨-, hlevels⟩ := Prod.mk.inj (Option.some.inj heq)
              obtain ⟨hsl, htp⟩ := Prod.mk.inj hlevels
              obtain ⟨first, hfirst, htp⟩ := Option.map_eq_some_iff.mp htp.symm
              exact .inl ⟨haccepts, hmark, atr, prev, first, hatr, hpos, hprev,
                sub_right_injective hsl, hfirst, (add_left_cancel htp).symm⟩
            · rintro (⟨_, hsame⟩ | ⟨hnot, _⟩)
              · obtain ⟨_, atr', prev', first, hatr', _, hprev', hsl, hfirst, htp⟩ := hsame
                obtain rfl := Option.some.inj (hatr.symm.trans hatr')
                obtain rfl := Option.some.inj (hprev.symm.trans hprev')
                rw [hsl, htp, hfirst]
                rfl
              · exact absurd haccepts hnot
        · rw [entryRule_of_not_engineAccepts hblock haccepts]
          by_cases hrefuses : LiveRefuses p df j block
          · rw [toOption_of_liveRefuses hlength hblock hrefuses]
            exact ⟨fun _ => .inr ⟨haccepts, hrefuses⟩, fun _ => rfl⟩
          · obtain ⟨atr, _, _, _, hlive⟩ :=
              levels_of_not_liveRefuses hlength hema hblock hrefuses
            rw [hlive]
            refine ⟨nofun, ?_⟩
            rintro (⟨haccept, _⟩ | ⟨_, hrefuse⟩)
            · exact absurd haccept haccepts
            · exact absurd hrefuse hrefuses
    · -- below the moving average neither enters
      have hlive : (computeAtrObSignal p df).toOption = none := by
        cases hsignal : computeAtrObSignal p df with
        | error _ => rfl
        | ok signal =>
          obtain ⟨_, _, _, _, _, _, _, habove, _⟩ := (computeAtrObSignal_eq_ok hlength).mp hsignal
          exact absurd habove hema
      have hengine : entryRule p df (j + 1) = none := by
        refine Option.eq_none_iff_forall_ne_some.mpr fun x hx => ?_
        obtain ⟨_, _, _, _, _, _, habove, _⟩ := entryRule_succ_eq_some.mp hx
        exact hema habove
      rw [hlive, hengine]
      exact ⟨fun _ _ habove => absurd habove hema, fun _ => rfl⟩

/-- A frame whose bar 5 falls and is the block of the bars behind it; the last closed bar is bar
8. -/
def olderBlockFrame : Frame :=
  [⟨0, 100, 101, 99, 100, 1⟩, ⟨1, 100, 101, 99, 100, 1⟩, ⟨2, 100, 101, 99, 100, 1⟩,
    ⟨3, 100, 101, 99, 100, 1⟩, ⟨4, 100, 101, 99, 100, 1⟩, ⟨5, 104, 106, 94, 95, 1⟩,
    ⟨6, 96, 99, 95, 98, 1⟩, ⟨7, 98, 102, 97, 101, 1⟩, ⟨8, 101, 103, 100, 102, 1⟩,
    ⟨9, 102, 103, 101, 102, 1⟩]

/-- A block that was marked two bars before the signal is overlooked. -/
theorem atrObSignal_olderBlock : ¬∀ (p : AtrObParams) (df : Frame), AtrObSignalAgrees p df := by
  intro h
  have hagrees := h { emaPeriod := 5, atrPeriod := 5 } olderBlockFrame
  revert hagrees
  rw [AtrObSignalAgrees]
  decide +kernel

end

/-! ## The signal of the builder -/

/-- The side of a signal, as the live path chooses it. -/
def liveSide (longOk shortOk : Bool) (regime : Regime) : Option Side :=
  if longOk && !shortOk then some .long
  else if shortOk && !longOk then some .short
  else if longOk && shortOk then if regime ≠ .bear then some .long else some .short
  else none

theorem liveSide_eq_chooseSide (longOk shortOk : Bool) (regime : Regime) :
    liveSide longOk shortOk regime = chooseSide longOk shortOk regime := by
  cases longOk with
  | false => cases shortOk <;> rfl
  | true =>
    cases shortOk with
    | false => rfl
    | true =>
      rw [liveSide, chooseSide]
      by_cases hbear : regime = .bear
      · rw [hbear]
        rfl
      · simp [hbear]

/-- A signal of `compute_builder_signal`; stop and target may be `NaN`. -/
structure BuilderSignal where
  side : Side
  entry : ℚ
  sl : Num
  tp : Num
  barTime : ℤ
  reasons : List String
  sizing : Sizing
  slExplain : StopExplain
  deriving DecidableEq, Repr

/-- `compute_builder_signal`. -/
def computeBuilderSignal (df : Frame) (ind : Indicators) (enabled : List Indicator)
    (regime : Regime) (p : SimParams) : Except NoSignal BuilderSignal :=
  match safeLastClosedIndex df with
  | none => .error { reasons := ["Not enough bars"] }
  | some idx =>
      let snap := snapshotAt df ind idx
      let long := longConditions snap enabled regime
      let short := shortConditions snap enabled regime
      match liveSide long.1 short.1 regime with
      | none => .error { barTime := some (df.bar idx).time }
      | some side =>
          let entry := (df.bar idx).close
          let stop := computeStopLoss df ind.atrSeries p.toStopParams idx side entry
          .ok
            { side := side
              entry := entry
              sl := stop.1
              tp := stop.1.map fun sl => targetFor side entry sl p.rr
              barTime := (df.bar idx).time
              reasons := match side with
                | .long => long.2
                | .short => short.2
              sizing := p.sizer.calculatePositionSize entry stop.1
              slExplain := stop.2 }

/-- The quantity of a sizing, if it has one. -/
def Sizing.quantity : Sizing → Num
  | .allowed (some size) => some size.quantity
  | _ => none

/-- What a signal is compared by: side, entry, stop, target and quantity. -/
def BuilderSignal.order (signal : BuilderSignal) : Side × ℚ × Num × Num × Num :=
  (signal.side, signal.entry, signal.sl, signal.tp, signal.sizing.quantity)

/-- What an entry of the simulation is compared by. -/
def Entry.order (e : Entry) : Side × ℚ × Num × Num × Num :=
  (e.side, e.entry, some e.sl, some e.tp, some e.size.quantity)

section

variable {df : Frame} {ind : Indicators} {enabled : List Indicator} {preset : Preset}
  {regime : Regime} {p : SimParams} {t : ℕ}

/-- The signal agrees with the body of the simulation on the last closed bar. -/
def BuilderSignalAgrees (df : Frame) (ind : Indicators) (enabled : List Indicator)
    (preset : Preset) (regime : Regime) (p : SimParams) : Prop :=
  (computeBuilderSignal df ind enabled regime p).toOption.map BuilderSignal.order =
    (safeLastClosedIndex df).bind fun t =>
      (simulateBody df ind (resolveEnabledIndicators enabled preset) regime p none t).item.map
        fun trade => trade.toEntry.order

/-- The side that the enabled indicators qualify on bar `t`. -/
def qualifiedSide (df : Frame) (ind : Indicators) (enabled : List Indicator) (regime : Regime)
    (t : ℕ) : Option Side :=
  chooseSide (longConditions (snapshotAt df ind t) enabled regime).1
    (shortConditions (snapshotAt df ind t) enabled regime).1 regime

/-- An entry on bar `t` can be sized: its ATR is a positive number, a position is allowed at all,
and the stop lies away from the entry. -/
def CanSize (df : Frame) (ind : Indicators) (p : SimParams) (t : ℕ) (side : Side) : Prop :=
  ∃ atr, (ind t).atr = some atr ∧ 0 < atr ∧ 0 < p.maxPositions ∧
    (df.bar t).close ≠
      (stopFor df ind.atrSeries p.toStopParams t side (df.bar t).close atr).1

/-- When the signal agrees with the simulation on the last closed bar: a preset that is not
overridden enters nothing there, and whatever side is qualified otherwise can be sized. -/
def BuilderSignalSafe (df : Frame) (ind : Indicators) (enabled : List Indicator) (preset : Preset)
    (regime : Regime) (p : SimParams) : Prop :=
  ∀ t, safeLastClosedIndex df = some t →
    if enabled = [] ∧ preset ≠ .custom then
      ∀ side, qualifiedSide df ind (applyPreset preset) regime t = some side →
        ¬CanSize df ind p t side
    else
      ∀ side, qualifiedSide df ind enabled regime t = some side → CanSize df ind p t side

theorem order_simulateBody :
    (simulateBody df ind enabled regime p none t).item.map (fun trade => trade.toEntry.order) =
      (entryAt df ind enabled p regime t).map Entry.order := by
  have hactive : activeRegime regime (overlayAt none t) = regime := rfl
  rw [simulateBody, hactive]
  cases entryAt df ind enabled p regime t with
  | none => rfl
  | some e => rfl

theorem entryAt_eq_some {e : Entry} (h : entryAt df ind enabled p regime t = some e) :
    ∃ side, qualifiedSide df ind enabled regime t = some side ∧ CanSize df ind p t side := by
  simp only [entryAt] at h
  split at h
  · cases h
  · next atr hatr =>
    split at h
    · cases h
    · next hpos =>
      split at h
      · cases h
      · next side hside =>
        split at h
        · next size hsize =>
          obtain ⟨hopen, hne, _⟩ := PositionSizer.calculatePositionSize_eq_allowed.mp hsize
          exact ⟨side, hside, atr, hatr, not_le.mp hpos, hopen, hne⟩
        · cases h

theorem order_of_canSize {side : Side} (hidx : safeLastClosedIndex df = some t)
    (hside : qualifiedSide df ind enabled regime t = some side) (h : CanSize df ind p t side) :
    (entryAt df ind enabled p regime t).map Entry.order ≠ none ∧
      (computeBuilderSignal df ind enabled regime p).toOption.map BuilderSignal.order =
        (entryAt df ind enabled p regime t).map Entry.order := by
  obtain ⟨atr, hatr, hpos, hopen, hne⟩ := h
  have hsize := PositionSizer.calculatePositionSize_eq_allowed.mpr
    ⟨(show p.sizer.openTrades < p.sizer.maxOpenPositions from hopen), hne, rfl⟩
  have hstop :=
    @computeStopLoss_some df ind.atrSeries p.toStopParams t side (df.bar t).close atr hatr
  have hsnap : (snapshotAt df ind t).atr = some atr := hatr
  have hentry : (entryAt df ind enabled p regime t).map Entry.order =
      some (side, (df.bar t).close,
        some (stopFor df ind.atrSeries p.toStopParams t side (df.bar t).close atr).1,
        some (targetFor side (df.bar t).close
          (stopFor df ind.atrSeries p.toStopParams t side (df.bar t).close atr).1 p.rr),
        some (p.sizer.quantityFor (df.bar t).close |(df.bar t).close -
          (stopFor df ind.atrSeries p.toStopParams t side (df.bar t).close atr).1|)) := by
    rw [qualifiedSide] at hside
    simp only [entryAt, hsnap, if_neg (not_le.mpr hpos), hside, hsize]
    rfl
  rw [hentry]
  refine ⟨Option.some_ne_none _, ?_⟩
  rw [qualifiedSide] at hside
  simp only [computeBuilderSignal, hidx, liveSide_eq_chooseSide, hside, hstop, hsize]
  rfl

theorem toOption_of_qualifiedSide_none (hidx : safeLastClosedIndex df = some t)
    (h : qualifiedSide df ind enabled regime t = none) :
    (computeBuilderSignal df ind enabled regime p).toOption = none := by
  rw [qualifiedSide] at h
  simp only [computeBuilderSignal, hidx, liveSide_eq_chooseSide, h]
  rfl

theorem toOption_of_qualifiedSide {side : Side} (hidx : safeLastClosedIndex df = some t)
    (h : qualifiedSide df ind enabled regime t = some side) :
    (computeBuilderSignal df ind enabled regime p).toOption ≠ none := by
  rw [qualifiedSide] at h
  simp only [computeBuilderSignal, hidx, liveSide_eq_chooseSide, h]
  nofun

theorem qualifiedSide_nil : qualifiedSide df ind [] regime t = none := by
  have hask : ∀ checks : List Check, (askEnabled checks []).1 = false := by
    intro checks
    have hnone : (checks.filter fun c => decide (c.indicator ∈ ([] : List Indicator))) = [] :=
      List.filter_eq_nil_iff.mpr fun c _ => by simp
    rw [askEnabled, hnone]
    rfl
  have hlong : (longConditions (snapshotAt df ind t) [] regime).1 = false := by
    rw [longConditions]
    split
    · rfl
    · exact hask _
  have hshort : (shortConditions (snapshotAt df ind t) [] regime).1 = false := by
    rw [shortConditions]
    split
    · rfl
    · exact hask _
  rw [qualifiedSide, hlong, hshort]
  rfl

/-- **The signal of the builder** agrees with the simulation exactly if no preset is overlooked that
enters, and no side is reported that the simulation cannot size. -/
theorem builderSignal_agrees_iff (df : Frame) (ind : Indicators) (enabled : List Indicator)
    (preset : Preset) (regime : Regime) (p : SimParams) :
    BuilderSignalAgrees df ind enabled preset regime p ↔
      BuilderSignalSafe df ind enabled preset regime p := by
  cases hidx : safeLastClosedIndex df with
  | none =>
    rw [BuilderSignalAgrees, BuilderSignalSafe, computeBuilderSignal, hidx]
    exact ⟨fun _ _ => nofun, fun _ => rfl⟩
  | some t =>
    rw [BuilderSignalAgrees, hidx, Option.bind_some, order_simulateBody]
    by_cases hpreset : enabled = [] ∧ preset ≠ .custom
    · -- the live path does not know the preset
      have hlive := @toOption_of_qualifiedSide_none df ind enabled regime p t hidx
        (by rw [hpreset.1]; exact qualifiedSide_nil)
      have hresolve : resolveEnabledIndicators enabled preset = applyPreset preset := by
        rw [resolveEnabledIndicators, if_neg (not_not.mpr hpreset.1)]
      rw [hlive, hresolve]
      constructor
      · intro heq other hother
        obtain rfl := Option.some.inj (hidx.symm.trans hother)
        rw [if_pos hpreset]
        exact fun side hside hsize => (order_of_canSize hidx hside hsize).1 heq.symm
      · intro h
        have h := h t hidx
        rw [if_pos hpreset] at h
        cases hentry : entryAt df ind (applyPreset preset) p regime t with
        | none => rfl
        | some e =>
          obtain ⟨side, hside, hsize⟩ := entryAt_eq_some hentry
          exact absurd hsize (h side hside)
    · have hresolve : resolveEnabledIndicators enabled preset = enabled := by
        by_cases hnil : enabled = []
        · have hcustom : preset = .custom := by
            by_contra h
            exact hpreset ⟨hnil, h⟩
          rw [hcustom, hnil]
          rfl
        · exact if_pos hnil
      rw [hresolve]
      constructor
      · intro heq other hother
        obtain rfl := Option.some.inj (hidx.symm.trans hother)
        rw [if_neg hpreset]
        intro side hside
        have hsome := @toOption_of_qualifiedSide df ind enabled regime p t side hidx hside
        cases hentry : entryAt df ind enabled p regime t with
        | none =>
          rw [hentry, Option.map_none, Option.map_eq_none_iff] at heq
          exact absurd heq hsome
        | some e =>
          obtain ⟨other, hother, hsize⟩ := entryAt_eq_some hentry
          obtain rfl := Option.some.inj (hside.symm.trans hother)
          exact hsize
      · intro h
        have h := h t hidx
        rw [if_neg hpreset] at h
        cases hside : qualifiedSide df ind enabled regime t with
        | none =>
          rw [toOption_of_qualifiedSide_none hidx hside]
          cases hentry : entryAt df ind enabled p regime t with
          | none => rfl
          | some e =>
            obtain ⟨side, hsome, _⟩ := entryAt_eq_some hentry
            rw [hside] at hsome
            cases hsome
        | some side => exact (order_of_canSize hidx hside (h side hside)).2

/-- A preset that is not overridden is overlooked, and a side is reported that has no ATR. -/
theorem builderSignal_preset :
    (¬∀ (df : Frame) (ind : Indicators) (enabled : List Indicator) (preset : Preset)
      (regime : Regime) (p : SimParams),
      BuilderSignalAgrees df ind enabled preset regime p) ∧
      ¬BuilderSignalAgrees (takeFrame 104)
        (fun _ => { vwap := some 99, macdHist := some 1 }) [.vwap, .macd] .custom .flat {} := by
  have hpreset : ¬BuilderSignalAgrees (takeFrame 104)
      (fun _ => { atr := some 1, vwap := some 99, macdHist := some 1 }) [] .breakdown .flat {} := by
    rw [BuilderSignalAgrees]
    decide +kernel
  refine ⟨fun h => hpreset (h _ _ _ _ _ _), ?_⟩
  rw [BuilderSignalAgrees]
  decide +kernel

end

end Backtest

end AdviserConstructor
