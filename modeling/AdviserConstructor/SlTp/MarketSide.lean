import AdviserConstructor.SlTp.Pipeline

/-!
# Which side of the market a proposed stop is on

`SLAdjustmentPipeline.evaluate` of `app/services/sl_tp/pipeline.py` against the price of the tick.
A stop protects a long position from below the market and a short one from above; on the other
side the exchange would trigger it at once.

The three sources measure from the peak that the position has tracked, from the entry price and
from the entry price by a multiple of the average true range.  None of them compares its stop
with the current price, and only the peak follows it.

* `callbackStop`, `atrStop`: what trailing and volatility propose; breakeven proposes the entry.
* `onMarketSide_iff`: the pipeline proposes stops on the protective side of the market exactly
  when none of the sources that fire has been overtaken by the market, and one of the stops of a
  long position is positive.
* `exists_candidate_iff`: the prices of the candidates are those of the sources that fire.
-/

namespace AdviserConstructor

/-! ## What the sources propose -/

/-- `new_sl` of the trailing source. -/
def callbackStop (position : PositionContext) (currentPrice : ℚ) : ℚ :=
  match position.side with
  | .short =>
      min (trackedOr position.trailingLowestPrice position.entryPrice) currentPrice *
        (1 + position.trailingCallbackRate.getD 0 / 100)
  | _ =>
      max (trackedOr position.trailingHighestPrice position.entryPrice) currentPrice *
        (1 - position.trailingCallbackRate.getD 0 / 100)

/-- `new_sl` of the volatility source. -/
def atrStop (position : PositionContext) (atr : Option ℚ) : ℚ :=
  match position.side with
  | .short => position.entryPrice + atr.getD 0 * position.volatilityAtrMultiplier
  | _ => position.entryPrice - atr.getD 0 * position.volatilityAtrMultiplier

section Sources

variable {position : PositionContext} {currentPrice : ℚ} {atr : Option ℚ}
  {result : SLAdjustmentResult}

theorem evaluateTrailing_eq (h : evaluateTrailing position currentPrice = some result) :
    0 < position.trailingCallbackRate.getD 0 ∧
      result.newSlPrice = callbackStop position currentPrice := by
  unfold evaluateTrailing at h
  split at h
  · cases h
  · cases hrate : position.trailingCallbackRate with
    | none => simp only [hrate, reduceCtorEq] at h
    | some rate =>
        simp only [hrate] at h
        by_cases hnonpos : rate ≤ 0
        · rw [if_pos hnonpos] at h
          cases h
        · rw [if_neg hnonpos] at h
          refine ⟨not_le.mp hnonpos, ?_⟩
          unfold callbackStop
          rw [hrate]
          cases hside : position.side with
          | long =>
              simp only [hside] at h
              split at h
              · cases h
              · cases h
                rfl
          | short =>
              simp only [hside] at h
              split at h
              · cases h
              · cases h
                rfl
          | both => simp only [hside, reduceCtorEq] at h

theorem evaluateVolatility_eq (h : evaluateVolatility position atr = some result) :
    result.newSlPrice = atrStop position atr := by
  unfold evaluateVolatility at h
  split at h
  · cases h
  · cases hatr : atr with
    | none => simp only [hatr, reduceCtorEq] at h
    | some value =>
        simp only [hatr] at h
        unfold atrStop
        cases hside : position.side with
        | long =>
            simp only [hside] at h
            split at h
            · cases h
            · cases h
              rfl
        | short =>
            simp only [hside] at h
            split at h
            · cases h
            · cases h
              rfl
        | both => simp only [hside, reduceCtorEq] at h

/-! ## The sources that fire -/

def TrailingFires (position : PositionContext) (currentPrice : ℚ) : Prop :=
  "trailing" ∈ position.adjustmentPriority ∧
    (evaluateTrailing position currentPrice).isSome = true

def BreakevenFires (position : PositionContext) (currentPrice : ℚ) : Prop :=
  "breakeven" ∈ position.adjustmentPriority ∧
    (evaluateBreakeven position currentPrice).isSome = true

def VolatilityFires (position : PositionContext) (atr : Option ℚ) : Prop :=
  "volatility" ∈ position.adjustmentPriority ∧ (evaluateVolatility position atr).isSome = true

instance (position : PositionContext) (currentPrice : ℚ) :
    Decidable (TrailingFires position currentPrice) := inferInstanceAs (Decidable (_ ∧ _))

instance (position : PositionContext) (currentPrice : ℚ) :
    Decidable (BreakevenFires position currentPrice) := inferInstanceAs (Decidable (_ ∧ _))

instance (position : PositionContext) (atr : Option ℚ) :
    Decidable (VolatilityFires position atr) := inferInstanceAs (Decidable (_ ∧ _))

/-- **The prices of the candidates** are those of the sources that fire. -/
theorem exists_candidate_iff {p : ℚ → Prop} :
    (∃ candidate ∈ pipelineCandidates position currentPrice atr, p candidate.newSlPrice) ↔
      (TrailingFires position currentPrice ∧ p (callbackStop position currentPrice)) ∨
      (BreakevenFires position currentPrice ∧ p position.entryPrice) ∨
      (VolatilityFires position atr ∧ p (atrStop position atr)) := by
  constructor
  · rintro ⟨candidate, hmem, hp⟩
    rcases mem_pipelineCandidates_iff.mp hmem with ⟨hm, ht⟩ | ⟨hm, hb⟩ | ⟨hm, hv⟩
    · exact .inl ⟨⟨hm, Option.isSome_of_eq_some ht⟩, (evaluateTrailing_eq ht).2 ▸ hp⟩
    · exact .inr (.inl ⟨⟨hm, Option.isSome_of_eq_some hb⟩,
        evaluateBreakeven_newSlPrice hb ▸ hp⟩)
    · exact .inr (.inr ⟨⟨hm, Option.isSome_of_eq_some hv⟩, evaluateVolatility_eq hv ▸ hp⟩)
  · rintro (⟨⟨hm, hfires⟩, hp⟩ | ⟨⟨hm, hfires⟩, hp⟩ | ⟨⟨hm, hfires⟩, hp⟩)
    · obtain ⟨candidate, ht⟩ := Option.isSome_iff_exists.mp hfires
      exact ⟨candidate, mem_pipelineCandidates_iff.mpr (.inl ⟨hm, ht⟩),
        (evaluateTrailing_eq ht).2 ▸ hp⟩
    · obtain ⟨candidate, hb⟩ := Option.isSome_iff_exists.mp hfires
      exact ⟨candidate, mem_pipelineCandidates_iff.mpr (.inr (.inl ⟨hm, hb⟩)),
        evaluateBreakeven_newSlPrice hb ▸ hp⟩
    · obtain ⟨candidate, hv⟩ := Option.isSome_iff_exists.mp hfires
      exact ⟨candidate, mem_pipelineCandidates_iff.mpr (.inr (.inr ⟨hm, hv⟩)),
        evaluateVolatility_eq hv ▸ hp⟩

end Sources

/-! ## The market -/

/-- The market has overtaken the stop of a source that fires: the price has come back by the
callback from the tracked extreme, to the entry price, or by less than the distance that the
average true range asks for. -/
def Overtaken (position : PositionContext) (currentPrice : ℚ) (atr : Option ℚ) : Prop :=
  match position.side with
  | .long =>
      let peak := trackedOr position.trailingHighestPrice position.entryPrice
      (TrailingFires position currentPrice ∧ currentPrice ≤ peak ∧
        currentPrice ≤ peak * (1 - position.trailingCallbackRate.getD 0 / 100)) ∨
      (BreakevenFires position currentPrice ∧ currentPrice ≤ position.entryPrice) ∨
      (VolatilityFires position atr ∧
        currentPrice ≤ position.entryPrice - atr.getD 0 * position.volatilityAtrMultiplier)
  | .short =>
      let trough := trackedOr position.trailingLowestPrice position.entryPrice
      (TrailingFires position currentPrice ∧ trough ≤ currentPrice ∧
        trough * (1 + position.trailingCallbackRate.getD 0 / 100) ≤ currentPrice) ∨
      (BreakevenFires position currentPrice ∧ position.entryPrice ≤ currentPrice) ∨
      (VolatilityFires position atr ∧
        position.entryPrice + atr.getD 0 * position.volatilityAtrMultiplier ≤ currentPrice)
  | .both => False

/-- A long position for which sources fire, each with a stop at or below zero: a callback of the
whole price, an entry price that is not positive, or a distance beyond the entry price. -/
def NothingPositive (position : PositionContext) (currentPrice : ℚ) (atr : Option ℚ) : Prop :=
  position.side = .long ∧
    (TrailingFires position currentPrice ∨ BreakevenFires position currentPrice ∨
      VolatilityFires position atr) ∧
    (TrailingFires position currentPrice → 100 ≤ position.trailingCallbackRate.getD 0) ∧
    (BreakevenFires position currentPrice → position.entryPrice ≤ 0) ∧
    (VolatilityFires position atr →
      position.entryPrice ≤ atr.getD 0 * position.volatilityAtrMultiplier)

/-- A stop on the protective side of the market. -/
def OnMarketSide (side : PositionSide) (currentPrice stop : ℚ) : Prop :=
  match side with
  | .long => 0 < stop ∧ stop < currentPrice
  | .short => 0 < stop ∧ currentPrice < stop
  | .both => True

instance (side : PositionSide) (currentPrice stop : ℚ) :
    Decidable (OnMarketSide side currentPrice stop) := by
  unfold OnMarketSide
  split <;> infer_instance

section Market

variable {position : PositionContext} {currentPrice : ℚ} {atr : Option ℚ}

theorem long_onMarketSide_iff (hside : position.side = .long) :
    (∀ result ∈ evaluatePipeline position currentPrice atr,
        OnMarketSide position.side currentPrice result.newSlPrice) ↔
      (¬∃ candidate ∈ pipelineCandidates position currentPrice atr,
        currentPrice ≤ candidate.newSlPrice) ∧
      ((∃ candidate ∈ pipelineCandidates position currentPrice atr, True) →
        ∃ candidate ∈ pipelineCandidates position currentPrice atr, 0 < candidate.newSlPrice) := by
  have hbest : ∀ {best}, evaluatePipeline position currentPrice atr = some best →
      best ∈ pipelineCandidates position currentPrice atr ∧
        ∀ other ∈ pipelineCandidates position currentPrice atr,
          other.newSlPrice ≤ best.newSlPrice := by
    intro best h
    obtain ⟨hmem, hmax⟩ := evaluatePipeline_best h
    rw [hside] at hmax
    exact ⟨hmem, fun other hother => not_lt.mp (hmax other hother)⟩
  rw [hside]
  constructor
  · intro hall
    refine ⟨?_, ?_⟩
    · rintro ⟨candidate, hmem, hovertaken⟩
      obtain ⟨best, h⟩ := evaluatePipeline_isSome hmem
      have hlt := (hall best h).2
      exact absurd (hovertaken.trans ((hbest h).2 candidate hmem)) (not_le.mpr hlt)
    · rintro ⟨candidate, hmem, -⟩
      obtain ⟨best, h⟩ := evaluatePipeline_isSome hmem
      exact ⟨best, (hbest h).1, (hall best h).1⟩
  · rintro ⟨hbehind, hpositive⟩ best h
    obtain ⟨hmem, hmax⟩ := hbest h
    obtain ⟨candidate, hcandidate, hpos⟩ := hpositive ⟨best, hmem, trivial⟩
    exact ⟨lt_of_lt_of_le hpos (hmax candidate hcandidate),
      not_le.mp fun hle => hbehind ⟨best, hmem, hle⟩⟩

theorem short_onMarketSide_iff (hside : position.side = .short) (hprice : 0 < currentPrice) :
    (∀ result ∈ evaluatePipeline position currentPrice atr,
        OnMarketSide position.side currentPrice result.newSlPrice) ↔
      ¬∃ candidate ∈ pipelineCandidates position currentPrice atr,
        candidate.newSlPrice ≤ currentPrice := by
  rw [hside]
  constructor
  · rintro hall ⟨candidate, hmem, hovertaken⟩
    obtain ⟨best, h⟩ := evaluatePipeline_isSome hmem
    have hmin := (evaluatePipeline_best h).2 candidate hmem
    rw [hside] at hmin
    exact absurd ((not_lt.mp hmin).trans hovertaken) (not_le.mpr (hall best h).2)
  · intro hbehind best h
    have hlt : currentPrice < best.newSlPrice :=
      not_le.mp fun hle => hbehind ⟨best, (evaluatePipeline_best h).1, hle⟩
    exact ⟨hprice.trans hlt, hlt⟩

theorem TrailingFires.rate_pos (h : TrailingFires position currentPrice) :
    0 < position.trailingCallbackRate.getD 0 := by
  obtain ⟨result, hresult⟩ := Option.isSome_iff_exists.mp h.2
  exact (evaluateTrailing_eq hresult).1

theorem le_callbackStop_iff (hside : position.side = .long) (hprice : 0 < currentPrice)
    (hfires : TrailingFires position currentPrice) :
    currentPrice ≤ callbackStop position currentPrice ↔
      currentPrice ≤ trackedOr position.trailingHighestPrice position.entryPrice ∧
      currentPrice ≤ trackedOr position.trailingHighestPrice position.entryPrice *
        (1 - position.trailingCallbackRate.getD 0 / 100) := by
  have hrate := hfires.rate_pos
  unfold callbackStop
  rw [hside]
  rcases le_total currentPrice (trackedOr position.trailingHighestPrice position.entryPrice)
    with hle | hle
  · rw [max_eq_left hle]
    exact ⟨fun h => ⟨hle, h⟩, And.right⟩
  · rw [max_eq_right hle]
    have hbelow : currentPrice * (1 - position.trailingCallbackRate.getD 0 / 100) <
        currentPrice := mul_lt_of_lt_one_right hprice (by linarith)
    constructor
    · intro h
      exact absurd h (not_le.mpr hbelow)
    · rintro ⟨hpeak, h⟩
      rw [← le_antisymm hpeak hle] at h
      exact absurd h (not_le.mpr hbelow)

theorem callbackStop_le_iff (hside : position.side = .short) (hprice : 0 < currentPrice)
    (hfires : TrailingFires position currentPrice) :
    callbackStop position currentPrice ≤ currentPrice ↔
      trackedOr position.trailingLowestPrice position.entryPrice ≤ currentPrice ∧
      trackedOr position.trailingLowestPrice position.entryPrice *
        (1 + position.trailingCallbackRate.getD 0 / 100) ≤ currentPrice := by
  have hrate := hfires.rate_pos
  unfold callbackStop
  rw [hside]
  rcases le_total (trackedOr position.trailingLowestPrice position.entryPrice) currentPrice
    with hle | hle
  · rw [min_eq_left hle]
    exact ⟨fun h => ⟨hle, h⟩, And.right⟩
  · rw [min_eq_right hle]
    have habove : currentPrice <
        currentPrice * (1 + position.trailingCallbackRate.getD 0 / 100) :=
      lt_mul_of_one_lt_right hprice (by linarith)
    constructor
    · intro h
      exact absurd h (not_le.mpr habove)
    · rintro ⟨htrough, h⟩
      rw [le_antisymm htrough hle] at h
      exact absurd h (not_le.mpr habove)

theorem callbackStop_pos_iff (hside : position.side = .long) (hprice : 0 < currentPrice) :
    0 < callbackStop position currentPrice ↔ position.trailingCallbackRate.getD 0 < 100 := by
  unfold callbackStop
  rw [hside]
  have hpeak : 0 < max (trackedOr position.trailingHighestPrice position.entryPrice)
      currentPrice := lt_max_of_lt_right hprice
  rw [mul_pos_iff_of_pos_left hpeak]
  constructor
  · intro h
    linarith
  · intro h
    linarith

/-- **The pipeline proposes stops on the protective side of the market** exactly when the market
has overtaken none of the sources that fire and, for a long position, one of their stops is
positive. -/
theorem onMarketSide_iff (position : PositionContext) (currentPrice : ℚ) (atr : Option ℚ)
    (hprice : 0 < currentPrice) :
    (∀ result ∈ evaluatePipeline position currentPrice atr,
        OnMarketSide position.side currentPrice result.newSlPrice) ↔
      ¬Overtaken position currentPrice atr ∧ ¬NothingPositive position currentPrice atr := by
  cases hside : position.side with
  | long =>
      rw [← hside, long_onMarketSide_iff hside]
      have hovertaken : (∃ candidate ∈ pipelineCandidates position currentPrice atr,
          currentPrice ≤ candidate.newSlPrice) ↔ Overtaken position currentPrice atr := by
        rw [exists_candidate_iff, Overtaken, hside]
        refine or_congr (and_congr_right fun hfires => ?_) (or_congr Iff.rfl ?_)
        · exact le_callbackStop_iff hside hprice hfires
        · rw [atrStop, hside]
      have hpositive : ((∃ candidate ∈ pipelineCandidates position currentPrice atr, True) →
          ∃ candidate ∈ pipelineCandidates position currentPrice atr,
            0 < candidate.newSlPrice) ↔ ¬NothingPositive position currentPrice atr := by
        rw [@exists_candidate_iff _ _ _ fun _ => True, exists_candidate_iff, NothingPositive,
          callbackStop_pos_iff hside hprice, atrStop, hside]
        simp only [and_true, true_and, sub_pos]
        constructor
        · rintro hsome ⟨hfires, htrailing, hbreakeven, hvolatility⟩
          rcases hsome hfires with ⟨ht, hpos⟩ | ⟨hb, hpos⟩ | ⟨hv, hpos⟩
          · exact absurd (htrailing ht) (not_le.mpr hpos)
          · exact absurd (hbreakeven hb) (not_le.mpr hpos)
          · exact absurd (hvolatility hv) (not_le.mpr hpos)
        · intro hnot hfires
          by_contra hnone
          obtain ⟨ht, hb, hv⟩ := not_or.mp hnone |>.imp_right not_or.mp
          exact hnot ⟨hfires, fun h => not_lt.mp fun hpos => ht ⟨h, hpos⟩,
            fun h => not_lt.mp fun hpos => hb ⟨h, hpos⟩,
            fun h => not_lt.mp fun hpos => hv ⟨h, hpos⟩⟩
      rw [hovertaken, hpositive]
  | short =>
      rw [← hside, short_onMarketSide_iff hside hprice]
      have hpositive : ¬NothingPositive position currentPrice atr := by
        rintro ⟨hlong, -⟩
        rw [hside] at hlong
        cases hlong
      rw [and_iff_left hpositive]
      refine not_congr ((@exists_candidate_iff position currentPrice atr
        fun stop => stop ≤ currentPrice).trans ?_)
      rw [Overtaken, hside]
      refine or_congr (and_congr_right fun hfires => ?_) (or_congr Iff.rfl ?_)
      · exact callbackStop_le_iff hside hprice hfires
      · rw [atrStop, hside]
  | both =>
      have hneither : ¬Overtaken position currentPrice atr ∧
          ¬NothingPositive position currentPrice atr := by
        refine ⟨?_, ?_⟩
        · rw [Overtaken, hside]
          exact id
        · rintro ⟨hlong, -⟩
          rw [hside] at hlong
          cases hlong
      exact ⟨fun _ => hneither, fun _ _ _ => trivial⟩

/-- A long position entered at 100, whose price is at 92 and whose average true range is 2: the
range asks for a stop at 96, above the market. -/
def fallenLong : PositionContext where
  side := .long
  entryPrice := 100
  currentQuantity := 1
  currentSlPrice := 85
  volatilitySlEnabled := true
  volatilityAtrMultiplier := 2

/-- At a price of 99 the same stop protects the position. -/
theorem onMarketSide_aboveStop :
    ∃ result, evaluatePipeline fallenLong 99 (some 2) = some result ∧
      OnMarketSide .long 99 result.newSlPrice := by
  have hside := (onMarketSide_iff fallenLong 99 (some 2) (by decide +kernel)).mpr
    ⟨by rintro (⟨h, -⟩ | ⟨h, -⟩ | ⟨-, h⟩) <;> revert h <;> decide +kernel,
      by rintro ⟨-, -, -, -, h⟩; revert h; decide +kernel⟩
  obtain ⟨result, hresult⟩ : ∃ result, evaluatePipeline fallenLong 99 (some 2) = some result :=
    Option.isSome_iff_exists.mp (by decide +kernel)
  exact ⟨result, hresult, hside result hresult⟩

/-- At a price of 92 it would trigger at once. -/
theorem atrStop_aboveMarket :
    ¬∀ result ∈ evaluatePipeline fallenLong 92 (some 2),
      OnMarketSide fallenLong.side 92 result.newSlPrice := by
  decide +kernel

end Market

end AdviserConstructor
