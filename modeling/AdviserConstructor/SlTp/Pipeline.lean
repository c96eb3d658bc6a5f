import Mathlib.Data.List.MinMax
import Mathlib.Tactic.Linarith
import Mathlib.Algebra.Order.Field.Rat
import AdviserConstructor.Position.Context

/-!
# The stop-loss adjustment pipeline

The three sources of `app/services/sl_tp/` (`trailing.py`, `breakeven.py`, `volatility.py`) and
the pipeline of `pipeline.py`, which asks the sources that a position lists and takes the most
protective candidate.

Trailing and volatility propose a price only if it is more protective than the current stop.
Breakeven proposes the entry price and does not look where the stop is.

* `evaluate_protective_iff`: what the pipeline returns is strictly more protective than the
  current stop unless `BreakevenRegresses`, that is unless breakeven is due at an entry price
  that is no improvement and neither of the others fires.
-/

namespace AdviserConstructor

/-- One entry of `update_tracking`: a field of the position with its new value. -/
inductive TrackingUpdate where
  | trailingHighestPrice (value : ℚ)
  | trailingLowestPrice (value : ℚ)
  | breakevenActivated (value : Bool)
  | volatilityLastAtr (value : ℚ)
  deriving DecidableEq, Repr

/-- `SLAdjustmentResult`. -/
structure SLAdjustmentResult where
  newSlPrice : ℚ
  reason : String
  isValid : Bool := true
  updateTracking : List TrackingUpdate
  deriving DecidableEq, Repr

/-! ## The sources -/

/-- `price or entry_price`: a missing price and zero are both false. -/
def trackedOr (price : Option ℚ) (entryPrice : ℚ) : ℚ :=
  match price with
  | some x => if x ≠ 0 then x else entryPrice
  | none => entryPrice

/-- `evaluate_trailing`. -/
def evaluateTrailing (position : PositionContext) (currentPrice : ℚ) :
    Option SLAdjustmentResult :=
  if !position.trailingEnabled then none
  else
    match position.trailingCallbackRate with
    | none => none
    | some callbackRate =>
        if callbackRate ≤ 0 then none
        else
          match position.side with
          | .long =>
              let newHigh :=
                max (trackedOr position.trailingHighestPrice position.entryPrice) currentPrice
              let newSl := newHigh * (1 - callbackRate / 100)
              if newSl ≤ position.currentSlPrice then none
              else
                some
                  { newSlPrice := newSl
                    reason := "trailing"
                    updateTracking := [.trailingHighestPrice newHigh] }
          | .short =>
              let newLow :=
                min (trackedOr position.trailingLowestPrice position.entryPrice) currentPrice
              let newSl := newLow * (1 + callbackRate / 100)
              if position.currentSlPrice ≤ newSl then none
              else
                some
                  { newSlPrice := newSl
                    reason := "trailing"
                    updateTracking := [.trailingLowestPrice newLow] }
          | .both => none

/-- The price has moved by `breakeven_trigger_rr` times the risk. -/
def breakevenReached (position : PositionContext) (currentPrice : ℚ) : Bool :=
  let requiredMove :=
    |position.entryPrice - position.currentSlPrice| * position.breakevenTriggerRr
  match position.side with
  | .long => position.entryPrice + requiredMove ≤ currentPrice
  | .short => currentPrice ≤ position.entryPrice - requiredMove
  | .both => false

/-- `evaluate_breakeven`. -/
def evaluateBreakeven (position : PositionContext) (currentPrice : ℚ) :
    Option SLAdjustmentResult :=
  if !position.breakevenEnabled || position.breakevenActivated then none
  else if breakevenReached position currentPrice then
    some
      { newSlPrice := position.entryPrice
        reason := "breakeven"
        updateTracking := [.breakevenActivated true] }
  else none

/-- `evaluate_volatility`. -/
def evaluateVolatility (position : PositionContext) (currentAtr : Option ℚ) :
    Option SLAdjustmentResult :=
  if !position.volatilitySlEnabled then none
  else
    match currentAtr with
    | none => none
    | some atr =>
        let distance := atr * position.volatilityAtrMultiplier
        match position.side with
        | .long =>
            let newSl := position.entryPrice - distance
            if newSl ≤ position.currentSlPrice then none
            else
              some
                { newSlPrice := newSl
                  reason := "volatility"
                  updateTracking := [.volatilityLastAtr atr] }
        | .short =>
            let newSl := position.entryPrice + distance
            if position.currentSlPrice ≤ newSl then none
            else
              some
                { newSlPrice := newSl
                  reason := "volatility"
                  updateTracking := [.volatilityLastAtr atr] }
        | .both => none

/-- `_evaluate_source`. -/
def evaluateSource (position : PositionContext) (source : String) (currentPrice : ℚ)
    (atr : Option ℚ) : Option SLAdjustmentResult :=
  if source = "watcher" then none
  else if source = "trailing" then evaluateTrailing position currentPrice
  else if source = "breakeven" then evaluateBreakeven position currentPrice
  else if source = "volatility" then evaluateVolatility position atr
  else none

/-- The valid results of the listed sources, in the order of the list. -/
def pipelineCandidates (position : PositionContext) (currentPrice : ℚ) (atr : Option ℚ) :
    List SLAdjustmentResult :=
  (position.adjustmentPriority.filterMap fun source =>
    evaluateSource position source currentPrice atr).filter fun result => result.isValid

/-- `SLAdjustmentPipeline.evaluate`: the first candidate with the most protective price. -/
def evaluatePipeline (position : PositionContext) (currentPrice : ℚ) (atr : Option ℚ) :
    Option SLAdjustmentResult :=
  let candidates := pipelineCandidates position currentPrice atr
  if position.side = .short then candidates.argmin SLAdjustmentResult.newSlPrice
  else candidates.argmax SLAdjustmentResult.newSlPrice

/-! ## Protection -/

/-- `new` is a strictly more protective stop than `old`. -/
def MoreProtective (side : PositionSide) (new old : ℚ) : Prop :=
  match side with
  | .short => new < old
  | _ => old < new

instance (side : PositionSide) (new old : ℚ) : Decidable (MoreProtective side new old) := by
  unfold MoreProtective
  split <;> infer_instance

variable {currentPrice : ℚ} {position : PositionContext} {result : SLAdjustmentResult}

theorem evaluateTrailing_protective (h : evaluateTrailing position currentPrice = some result) :
    MoreProtective position.side result.newSlPrice position.currentSlPrice := by
  unfold evaluateTrailing at h
  split at h
  · cases h
  · split at h
    · cases h
    · split at h
      · cases h
      · cases hside : position.side with
        | long =>
          simp only [hside] at h
          split at h
          · cases h
          · next hnot =>
            cases h
            exact not_le.mp hnot
        | short =>
          simp only [hside] at h
          split at h
          · cases h
          · next hnot =>
            cases h
            exact not_le.mp hnot
        | both =>
          simp only [hside] at h
          cases h

variable {atr : Option ℚ}

theorem evaluateVolatility_protective (h : evaluateVolatility position atr = some result) :
    MoreProtective position.side result.newSlPrice position.currentSlPrice := by
  unfold evaluateVolatility at h
  split at h
  · cases h
  · split at h
    · cases h
    · cases hside : position.side with
      | long =>
        simp only [hside] at h
        split at h
        · cases h
        · next hnot =>
          cases h
          exact not_le.mp hnot
      | short =>
        simp only [hside] at h
        split at h
        · cases h
        · next hnot =>
          cases h
          exact not_le.mp hnot
      | both =>
        simp only [hside] at h
        cases h

theorem evaluateBreakeven_newSlPrice (h : evaluateBreakeven position currentPrice = some result) :
    result.newSlPrice = position.entryPrice := by
  unfold evaluateBreakeven at h
  split at h
  · cases h
  · split at h
    · cases h
      rfl
    · cases h

theorem evaluateSource_isValid {source : String}
    (h : evaluateSource position source currentPrice atr = some result) :
    result.isValid = true := by
  unfold evaluateSource at h
  split_ifs at h with hwatcher htrailing hbreakeven hvolatility
  · unfold evaluateTrailing at h
    grind
  · unfold evaluateBreakeven at h
    grind
  · unfold evaluateVolatility at h
    grind

theorem mem_pipelineCandidates :
    result ∈ pipelineCandidates position currentPrice atr ↔
      ∃ source ∈ position.adjustmentPriority,
        evaluateSource position source currentPrice atr = some result := by
  simp only [pipelineCandidates, List.mem_filter, List.mem_filterMap, and_iff_left_iff_imp]
  rintro ⟨source, -, h⟩
  exact evaluateSource_isValid h

theorem mem_pipelineCandidates_iff :
    result ∈ pipelineCandidates position currentPrice atr ↔
      ("trailing" ∈ position.adjustmentPriority ∧
        evaluateTrailing position currentPrice = some result) ∨
      ("breakeven" ∈ position.adjustmentPriority ∧
        evaluateBreakeven position currentPrice = some result) ∨
      ("volatility" ∈ position.adjustmentPriority ∧
        evaluateVolatility position atr = some result) := by
  rw [mem_pipelineCandidates]
  constructor
  · rintro ⟨source, hmem, h⟩
    unfold evaluateSource at h
    split_ifs at h with hwatcher htrailing hbreakeven hvolatility
    · exact Or.inl ⟨htrailing ▸ hmem, h⟩
    · exact Or.inr (Or.inl ⟨hbreakeven ▸ hmem, h⟩)
    · exact Or.inr (Or.inr ⟨hvolatility ▸ hmem, h⟩)
  · rintro (⟨hmem, h⟩ | ⟨hmem, h⟩ | ⟨hmem, h⟩)
    · exact ⟨"trailing", hmem, by simpa [evaluateSource] using h⟩
    · exact ⟨"breakeven", hmem, by simpa [evaluateSource] using h⟩
    · exact ⟨"volatility", hmem, by simpa [evaluateSource] using h⟩

theorem evaluatePipeline_best (h : evaluatePipeline position currentPrice atr = some result) :
    result ∈ pipelineCandidates position currentPrice atr ∧
      ∀ other ∈ pipelineCandidates position currentPrice atr,
        ¬MoreProtective position.side other.newSlPrice result.newSlPrice := by
  unfold evaluatePipeline at h
  split at h
  · next hside =>
    refine ⟨List.argmin_mem h, fun other hother => ?_⟩
    rw [hside]
    exact not_lt.mpr (List.le_of_mem_argmin hother h)
  · next hside =>
    refine ⟨List.argmax_mem h, fun other hother => ?_⟩
    have hle := List.le_of_mem_argmax hother h
    cases hs : position.side with
    | short => exact absurd hs hside
    | long => exact not_lt.mpr hle
    | both => exact not_lt.mpr hle

theorem evaluatePipeline_isSome (h : result ∈ pipelineCandidates position currentPrice atr) :
    ∃ best, evaluatePipeline position currentPrice atr = some best := by
  unfold evaluatePipeline
  have hne : pipelineCandidates position currentPrice atr ≠ [] := List.ne_nil_of_mem h
  split
  · exact Option.ne_none_iff_exists'.mp fun hnone => hne (List.argmin_eq_none.mp hnone)
  · exact Option.ne_none_iff_exists'.mp fun hnone => hne (List.argmax_eq_none.mp hnone)

theorem MoreProtective.of_not {side : PositionSide} {new best old : ℚ}
    (hnew : MoreProtective side new old) (hbest : ¬MoreProtective side new best) :
    MoreProtective side best old := by
  cases side with
  | short => exact lt_of_le_of_lt (not_lt.mp hbest) hnew
  | long => exact lt_of_lt_of_le hnew (not_lt.mp hbest)
  | both => exact lt_of_lt_of_le hnew (not_lt.mp hbest)

/-- Breakeven is due at an entry price that is no improvement, and neither of the sources with a
guard fires. -/
def BreakevenRegresses (position : PositionContext) (currentPrice : ℚ) (atr : Option ℚ) : Prop :=
  ("breakeven" ∈ position.adjustmentPriority ∧
      (evaluateBreakeven position currentPrice).isSome = true) ∧
    ¬MoreProtective position.side position.entryPrice position.currentSlPrice ∧
    ¬("trailing" ∈ position.adjustmentPriority ∧
      (evaluateTrailing position currentPrice).isSome = true) ∧
    ¬("volatility" ∈ position.adjustmentPriority ∧
      (evaluateVolatility position atr).isSome = true)

instance (position : PositionContext) (currentPrice : ℚ) (atr : Option ℚ) :
    Decidable (BreakevenRegresses position currentPrice atr) := by
  unfold BreakevenRegresses
  infer_instance

/-- **The pipeline only tightens the stop** unless breakeven regresses. -/
theorem evaluate_protective_iff (position : PositionContext) (currentPrice : ℚ)
    (atr : Option ℚ) :
    (∀ result ∈ evaluatePipeline position currentPrice atr,
        MoreProtective position.side result.newSlPrice position.currentSlPrice) ↔
      ¬BreakevenRegresses position currentPrice atr := by
  constructor
  · rintro hall ⟨⟨hmem, hdue⟩, hentry, htrailing, hvolatility⟩
    obtain ⟨due, hdue⟩ := Option.isSome_iff_exists.mp hdue
    have hcandidate : due ∈ pipelineCandidates position currentPrice atr :=
      mem_pipelineCandidates_iff.mpr (Or.inr (Or.inl ⟨hmem, hdue⟩))
    obtain ⟨best, hbest⟩ := evaluatePipeline_isSome hcandidate
    -- breakeven is the only candidate
    have hprice : best.newSlPrice = position.entryPrice := by
      rcases mem_pipelineCandidates_iff.mp (evaluatePipeline_best hbest).1 with
        ⟨hm, ht⟩ | ⟨-, hb⟩ | ⟨hm, hv⟩
      · exact absurd ⟨hm, Option.isSome_of_eq_some ht⟩ htrailing
      · exact evaluateBreakeven_newSlPrice hb
      · exact absurd ⟨hm, Option.isSome_of_eq_some hv⟩ hvolatility
    exact hentry (hprice ▸ hall best hbest)
  · intro hclear best hbest
    obtain ⟨hcandidate, hmax⟩ := evaluatePipeline_best hbest
    rcases mem_pipelineCandidates_iff.mp hcandidate with ⟨-, ht⟩ | ⟨hm, hb⟩ | ⟨-, hv⟩
    · exact evaluateTrailing_protective ht
    · by_contra hnot
      rw [evaluateBreakeven_newSlPrice hb] at hnot
      -- a guarded source that fires would have been preferred
      refine hclear ⟨⟨hm, Option.isSome_of_eq_some hb⟩, hnot, ?_, ?_⟩
      · rintro ⟨hm', hfires⟩
        obtain ⟨trailing, ht⟩ := Option.isSome_iff_exists.mp hfires
        have hbetter := (evaluateTrailing_protective ht).of_not
          (hmax trailing (mem_pipelineCandidates_iff.mpr (Or.inl ⟨hm', ht⟩)))
        rw [evaluateBreakeven_newSlPrice hb] at hbetter
        exact hnot hbetter
      · rintro ⟨hm', hfires⟩
        obtain ⟨volatility, hv⟩ := Option.isSome_iff_exists.mp hfires
        have hbetter := (evaluateVolatility_protective hv).of_not
          (hmax volatility (mem_pipelineCandidates_iff.mpr (Or.inr (Or.inr ⟨hm', hv⟩))))
        rw [evaluateBreakeven_newSlPrice hb] at hbetter
        exact hnot hbetter
    · exact evaluateVolatility_protective hv

end AdviserConstructor
