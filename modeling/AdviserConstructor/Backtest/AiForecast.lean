import AdviserConstructor.Backtest.Frame
import AdviserConstructor.Library.DecimalText
import Mathlib.Data.List.Sort

/-!
# The AI forecast of a backtest

`app/services/backtesting/ai_forecast.py`: forecast rows are sorted by their signal time, and every
bar of the market is joined with the last row that is not after it; the row decides the regime of
the bar if the bar lies within its horizon and its confidence reaches the threshold.

The texts of the rows are parsed already: a time that could not be parsed is missing, and so is a
confidence that is no number.  The sort is a parameter: it leaves open which of two rows of one time
comes first, and that may depend on the other rows.

* `lastRowNotAfter_eq_some`: a bar is joined with the row of the latest time that is not after it,
  if no other row has this time.
* `lastRowNotAfter_congr`: where rows of one time say the same, the row that a bar is joined with
  depends on no row after the bar.
* `resolveAiForecastOverlayPerBar_congr`: neither does anything that the overlay says of the bar.
-/

namespace AdviserConstructor

namespace Backtest

open DecimalText

/-- A market regime. -/
inductive Regime where
  | bull | bear | flat
  deriving DecidableEq, Repr

/-- `normalize_ai_regime`. -/
def normalizeAiRegime (value : String) : Regime :=
  let text := lowered (stripped value)
  if text ∈ ["bull", "bullish", "up", "long"] then .bull
  else if text ∈ ["bear", "bearish", "down", "short"] then .bear
  else .flat

/-- A row of the forecast: the signal time is missing where its text is no time, and so is the
horizon, which may also not be given. -/
structure AiRow where
  signalTimeUtc : Option ℤ
  horizonGiven : Bool := false
  horizonEndUtc : Option ℤ := none
  predictedTrend : String
  confidenceBull : Num
  confidenceBear : Num
  confidenceFlat : Num
  deriving DecidableEq, Repr

/-- A row of the prepared frame. -/
structure AiFrameRow where
  signalTimeUtc : ℤ
  horizonEndUtc : Option ℤ
  predictedRegime : Regime
  confidenceBull : Num
  confidenceBear : Num
  confidenceFlat : Num
  deriving DecidableEq, Repr

/-- The row of the prepared frame, if the signal time was parsed. -/
def AiRow.prepared (row : AiRow) : Option AiFrameRow :=
  row.signalTimeUtc.map fun signalTime =>
    { signalTimeUtc := signalTime
      horizonEndUtc := row.horizonEndUtc
      predictedRegime := normalizeAiRegime row.predictedTrend
      confidenceBull := row.confidenceBull
      confidenceBear := row.confidenceBear
      confidenceFlat := row.confidenceFlat }

/-- `sort_values("signal_time_utc")`, which is not stable: of two rows of one time either may come
first. -/
structure FrameSort where
  sort : List AiFrameRow → List AiFrameRow
  perm : ∀ rows, (sort rows).Perm rows
  sorted : ∀ rows, (sort rows).Pairwise fun row row' => row.signalTimeUtc ≤ row'.signalTimeUtc

/-- `prepare_ai_forecast_frame`. -/
def prepareAiForecastFrame (s : FrameSort) (rows : List AiRow) :
    Except String (List AiFrameRow) :=
  if rows.any fun row => row.signalTimeUtc.isNone then
    .error "AI forecast contains invalid signal_time_utc values."
  else if rows.any fun row => row.horizonGiven && row.horizonEndUtc.isNone then
    .error "AI forecast contains invalid horizon_end_utc values."
  else .ok (s.sort (rows.filterMap AiRow.prepared))

/-- The row that a backward join finds for a time: the last one that is not after it. -/
def lastRowNotAfter (frame : List AiFrameRow) (time : ℤ) : Option AiFrameRow :=
  (frame.filter fun row => decide (row.signalTimeUtc ≤ time)).getLast?

/-- What an `AiForecastOverlay` says of one bar. -/
structure OverlayBar where
  regime : Regime
  active : Bool
  applied : Bool
  signalTime : Option ℤ
  horizonEndTime : Option ℤ
  deriving DecidableEq, Repr

/-- The thresholds of the confidences. -/
structure Thresholds where
  bull : ℚ
  bear : ℚ

/-- The confidence of a row in its own prediction reaches the threshold. -/
def AiFrameRow.isConfident (row : AiFrameRow) (th : Thresholds) : Bool :=
  match row.predictedRegime with
  | .bull => Num.le (some th.bull) row.confidenceBull
  | .bear => Num.le (some th.bear) row.confidenceBear
  | .flat => Num.le (some (max th.bull th.bear)) row.confidenceFlat

/-- What the row that a bar is joined with makes of the bar. -/
def overlayBar (time : ℤ) (fallback : Regime) (th : Thresholds) : Option AiFrameRow → OverlayBar
  | none =>
      { regime := fallback, active := false, applied := false, signalTime := none
        horizonEndTime := none }
  | some row =>
      let active := row.horizonEndUtc.all fun horizon => decide (time ≤ horizon)
      let applied := active && row.isConfident th
      { regime := if applied then row.predictedRegime else fallback
        active := active
        applied := applied
        signalTime := some row.signalTimeUtc
        horizonEndTime := row.horizonEndUtc }

/-- `resolve_ai_forecast_overlay_per_bar`. -/
def resolveAiForecastOverlayPerBar (s : FrameSort) (marketIndex : List ℤ) (rows : List AiRow)
    (fallback : Regime) (th : Thresholds) : Except String (List OverlayBar) :=
  if rows = [] then .error "AI forecast rows are empty."
  else
    (prepareAiForecastFrame s rows).map fun frame =>
      marketIndex.map fun time => overlayBar time fallback th (lastRowNotAfter frame time)

/-! ## No look-ahead -/

/-- The rows of a list that are not after a time. -/
def rowsNotAfter (rows : List AiRow) (time : ℤ) : List AiRow :=
  rows.filter fun row => row.signalTimeUtc.all fun t => decide (t ≤ time)

/-- The rows that are not after a time and have the same signal time say the same. -/
def TiesAgree (rows : List AiRow) (time : ℤ) : Prop :=
  ∀ row ∈ rowsNotAfter rows time, ∀ row' ∈ rowsNotAfter rows time,
    row.signalTimeUtc = row'.signalTimeUtc → row.prepared = row'.prepared

instance (rows : List AiRow) (time : ℤ) : Decidable (TiesAgree rows time) :=
  inferInstanceAs (Decidable (∀ row ∈ _, ∀ row' ∈ _, _ → _))

section

variable {s : FrameSort} {rows rows' : List AiRow} {frame frame' : List AiFrameRow} {time : ℤ}

theorem prepareAiForecastFrame_eq_ok (h : prepareAiForecastFrame s rows = .ok frame) :
    frame = s.sort (rows.filterMap AiRow.prepared) := by
  rw [prepareAiForecastFrame] at h
  split at h
  · cases h
  · split at h
    · cases h
    · exact (Except.ok.inj h).symm

theorem mem_prepared (h : prepareAiForecastFrame s rows = .ok frame) {row : AiFrameRow} :
    row ∈ frame ↔ ∃ given ∈ rows, given.prepared = some row := by
  rw [prepareAiForecastFrame_eq_ok h, (s.perm _).mem_iff, List.mem_filterMap]

theorem sorted_prepared (h : prepareAiForecastFrame s rows = .ok frame) :
    frame.Pairwise fun row row' => row.signalTimeUtc ≤ row'.signalTimeUtc := by
  rw [prepareAiForecastFrame_eq_ok h]
  exact s.sorted _

theorem signalTime_of_prepared {given : AiRow} {row : AiFrameRow} (h : given.prepared = some row) :
    given.signalTimeUtc = some row.signalTimeUtc := by
  rw [AiRow.prepared, Option.map_eq_some_iff] at h
  obtain ⟨signalTime, hgiven, rfl⟩ := h
  exact hgiven

theorem lastRowNotAfter_eq_none_iff :
    lastRowNotAfter frame time = none ↔ ∀ row ∈ frame, time < row.signalTimeUtc := by
  rw [lastRowNotAfter, List.getLast?_eq_none_iff, List.filter_eq_nil_iff]
  refine forall₂_congr fun row _ => ?_
  rw [decide_eq_true_eq, not_le]

/-- **The row of the latest time** that is not after the bar. -/
theorem lastRowNotAfter_eq_some {row : AiFrameRow}
    (hsorted : frame.Pairwise fun row row' => row.signalTimeUtc ≤ row'.signalTimeUtc)
    (hmem : row ∈ frame) (htime : row.signalTimeUtc ≤ time)
    (hlatest : ∀ other ∈ frame, other.signalTimeUtc ≤ time →
      other.signalTimeUtc < row.signalTimeUtc ∨ other = row) :
    lastRowNotAfter frame time = some row := by
  have hrow : row ∈ frame.filter fun row => decide (row.signalTimeUtc ≤ time) :=
    List.mem_filter.mpr ⟨hmem, decide_eq_true htime⟩
  obtain ⟨last, hlast⟩ := Option.ne_none_iff_exists'.mp fun hnone =>
    List.ne_nil_of_mem hrow (List.getLast?_eq_none_iff.mp hnone)
  rw [lastRowNotAfter, hlast]
  obtain ⟨hother, hnotAfter⟩ := List.mem_filter.mp (List.mem_of_getLast? hlast)
  rcases hlatest last hother (of_decide_eq_true hnotAfter) with hlt | rfl
  · -- the last row is not before any other one
    obtain ⟨before, hfilter⟩ := List.getLast?_eq_some_iff.mp hlast
    have hfiltered := hsorted.filter fun row => decide (row.signalTimeUtc ≤ time)
    rw [hfilter] at hrow hfiltered
    rcases List.mem_append.mp hrow with hbefore | heq
    · exact absurd hlt (not_lt.mpr
        ((List.pairwise_append.mp hfiltered).2.2 row hbefore last (List.mem_singleton_self last)))
    · rw [List.mem_singleton.mp heq]
  · rfl

theorem mem_prepared_of_agree {bound : ℤ} (hframe : prepareAiForecastFrame s rows = .ok frame)
    (hframe' : prepareAiForecastFrame s rows' = .ok frame')
    (hrows : rowsNotAfter rows bound = rowsNotAfter rows' bound) {row : AiFrameRow}
    (hmem : row ∈ frame) (htime : row.signalTimeUtc ≤ bound) :
    row ∈ frame' ∧ ∃ given ∈ rowsNotAfter rows bound, given.prepared = some row := by
  obtain ⟨given, hgiven, hprepared⟩ := (mem_prepared hframe).mp hmem
  have hnotAfter : given ∈ rowsNotAfter rows bound := by
    refine List.mem_filter.mpr ⟨hgiven, ?_⟩
    rw [signalTime_of_prepared hprepared]
    exact decide_eq_true htime
  refine ⟨(mem_prepared hframe').mpr ⟨given, ?_, hprepared⟩, given, hnotAfter, hprepared⟩
  rw [hrows] at hnotAfter
  exact List.mem_of_mem_filter hnotAfter

/-- The row that a bar is joined with depends on no row after the bar. -/
theorem lastRowNotAfter_congr {bound : ℤ} (hframe : prepareAiForecastFrame s rows = .ok frame)
    (hframe' : prepareAiForecastFrame s rows' = .ok frame')
    (hrows : rowsNotAfter rows bound = rowsNotAfter rows' bound) (hties : TiesAgree rows bound)
    (htime : time ≤ bound) :
    lastRowNotAfter frame time = lastRowNotAfter frame' time := by
  cases hjoined : lastRowNotAfter frame time with
  | none =>
    refine (lastRowNotAfter_eq_none_iff.mpr fun row hrow => ?_).symm
    by_contra hnot
    have hback :=
      mem_prepared_of_agree hframe' hframe hrows.symm hrow ((not_lt.mp hnot).trans htime)
    exact hnot (lastRowNotAfter_eq_none_iff.mp hjoined row hback.1)
  | some row =>
    obtain ⟨before, hfilter⟩ := List.getLast?_eq_some_iff.mp hjoined
    obtain ⟨hmem, hnotAfter⟩ := List.mem_filter.mp (List.mem_of_getLast? hjoined)
    have hnotAfter := of_decide_eq_true hnotAfter
    obtain ⟨hmem', given, hgiven, hprepared⟩ :=
      mem_prepared_of_agree hframe hframe' hrows hmem (hnotAfter.trans htime)
    refine (lastRowNotAfter_eq_some (sorted_prepared hframe') hmem' hnotAfter
      fun other hother hle => ?_).symm
    obtain ⟨hback, given', hgiven', hprepared'⟩ :=
      mem_prepared_of_agree hframe' hframe hrows.symm hother (hle.trans htime)
    -- no row of the frame is later than its last one
    have hlatest : other.signalTimeUtc ≤ row.signalTimeUtc := by
      have hfiltered := (sorted_prepared hframe).filter fun row =>
        decide (row.signalTimeUtc ≤ time)
      have hin : other ∈ frame.filter fun row => decide (row.signalTimeUtc ≤ time) :=
        List.mem_filter.mpr ⟨hback, decide_eq_true hle⟩
      rw [hfilter] at hfiltered hin
      rcases List.mem_append.mp hin with hbefore | heq
      · exact (List.pairwise_append.mp hfiltered).2.2 other hbefore row List.mem_cons_self
      · rw [List.mem_singleton.mp heq]
    refine hlatest.lt_or_eq.imp_right fun heq => ?_
    rw [← hrows] at hgiven'
    have hsame := hties given' hgiven' given hgiven (by
      rw [signalTime_of_prepared hprepared, signalTime_of_prepared hprepared', heq])
    exact Option.some.inj (hprepared'.symm.trans (hsame.trans hprepared))

end

/-- **No look-ahead in the overlay.**  If two lists of rows agree on the rows that are not after bar
`k`, and rows of one time among these say the same, then the overlays say the same of the bars up to
`k`. -/
theorem resolveAiForecastOverlayPerBar_congr {s : FrameSort} {index index' : List ℤ}
    {rows rows' : List AiRow} {fallback : Regime} {th : Thresholds}
    {overlay overlay' : List OverlayBar} {k : ℕ} {bound : ℤ}
    (h : resolveAiForecastOverlayPerBar s index rows fallback th = .ok overlay)
    (h' : resolveAiForecastOverlayPerBar s index' rows' fallback th = .ok overlay')
    (hindex : ∀ i ≤ k, index[i]? = index'[i]?)
    (hbound : ∀ i ≤ k, ∀ time ∈ index[i]?, time ≤ bound)
    (hrows : rowsNotAfter rows bound = rowsNotAfter rows' bound) (hties : TiesAgree rows bound) :
    ∀ i ≤ k, overlay[i]? = overlay'[i]? := by
  have hresolved : ∀ {index : List ℤ} {rows : List AiRow} {overlay : List OverlayBar},
      resolveAiForecastOverlayPerBar s index rows fallback th = .ok overlay →
      ∃ frame, prepareAiForecastFrame s rows = .ok frame ∧ overlay =
        index.map fun time => overlayBar time fallback th (lastRowNotAfter frame time) := by
    intro index rows overlay h
    rw [resolveAiForecastOverlayPerBar] at h
    split at h
    · cases h
    · cases hframe : prepareAiForecastFrame s rows with
      | error message =>
        rw [hframe] at h
        cases h
      | ok frame =>
        rw [hframe] at h
        exact ⟨frame, rfl, (Except.ok.inj h).symm⟩
  obtain ⟨frame, hframe, rfl⟩ := hresolved h
  obtain ⟨frame', hframe', rfl⟩ := hresolved h'
  intro i hi
  rw [List.getElem?_map, List.getElem?_map, ← hindex i hi]
  refine Option.map_congr fun time htime => ?_
  rw [lastRowNotAfter_congr hframe hframe' hrows hties (hbound i hi time htime)]

/-! ## Rows of one time -/

def rowsAt (positions : List ℕ) (rows : List AiFrameRow) : List AiFrameRow :=
  positions.filterMap (rows[·]?)

theorem rowsAt_range (rows : List AiFrameRow) : rowsAt (List.range rows.length) rows = rows := by
  induction rows with
  | nil => rfl
  | cons row rows ih =>
    rw [rowsAt] at ih ⊢
    rw [List.length_cons, List.range_succ_eq_map, List.filterMap_cons_some List.getElem?_cons_zero,
      List.filterMap_map]
    exact congrArg (row :: ·) ih

/-- The times of 18 rows: one is later than the others, which have the same. -/
def tiedTimes : List ℤ := 5 :: List.replicate 17 0

/-- The order in which numpy's quicksort leaves them, by their positions: it partitions a list of
more than 17, and reads the tied times from both ends. -/
def quicksortedPositions : List ℕ :=
  [8, 15, 14, 13, 12, 11, 10, 9, 17, 7, 6, 5, 4, 3, 2, 1, 16, 0]

instance : Std.Total fun row row' : AiFrameRow => row.signalTimeUtc ≤ row'.signalTimeUtc :=
  ⟨fun _ _ => le_total _ _⟩

instance : IsTrans AiFrameRow fun row row' => row.signalTimeUtc ≤ row'.signalTimeUtc :=
  ⟨fun _ _ _ => le_trans⟩

/-- numpy's quicksort, for these times; other lists are sorted by insertion, as it sorts those of at
most 17. -/
def quicksort : FrameSort where
  sort rows :=
    if rows.map AiFrameRow.signalTimeUtc = tiedTimes then rowsAt quicksortedPositions rows
    else rows.insertionSort fun row row' => row.signalTimeUtc ≤ row'.signalTimeUtc
  perm rows := by
    split
    · rename_i htimes
      have hlength : rows.length = 18 := by
        rw [← List.length_map AiFrameRow.signalTimeUtc, htimes]
        rfl
      have hpositions : quicksortedPositions.Perm (List.range rows.length) := by
        rw [hlength]
        decide
      have hperm := hpositions.filterMap (rows[·]?)
      rwa [← rowsAt, ← rowsAt, rowsAt_range] at hperm
    · exact List.perm_insertionSort _ _
  sorted rows := by
    split
    · rename_i htimes
      have hsorted : (quicksortedPositions.filterMap (tiedTimes[·]?)).Pairwise (· ≤ ·) := by decide
      rw [← htimes] at hsorted
      rw [rowsAt, ← @List.pairwise_map _ _ AiFrameRow.signalTimeUtc (· ≤ ·), List.map_filterMap]
      simpa only [List.getElem?_map] using hsorted
    · exact List.pairwise_insertionSort _ _

def sureRow (signalTime : ℤ) (trend : String) : AiRow where
  signalTimeUtc := some signalTime
  predictedTrend := trend
  confidenceBull := some 90
  confidenceBear := some 90
  confidenceFlat := some 90

/-- 17 rows of one time, of which the last calls the market down. -/
def tiedRows : List AiRow := List.replicate 16 (sureRow 0 "up") ++ [sureRow 0 "down"]

/-- **A row behind the bar changes its regime**: 17 rows of one time are read in their order, and
the bar is joined with the last; an 18th row, of a later time, makes the sort leave another one
last. -/
theorem not_overlay_noLookahead_tiedRows :
    ¬∀ (s : FrameSort) (index : List ℤ) (rows rows' : List AiRow) (fallback : Regime)
        (th : Thresholds) (overlay overlay' : List OverlayBar) (k : ℕ) (bound : ℤ),
      resolveAiForecastOverlayPerBar s index rows fallback th = .ok overlay →
      resolveAiForecastOverlayPerBar s index rows' fallback th = .ok overlay' →
      index.Pairwise (· ≤ ·) → index[k]? = some bound →
      rowsNotAfter rows bound = rowsNotAfter rows' bound →
      ∀ i ≤ k, (overlay[i]?).map OverlayBar.regime = (overlay'[i]?).map OverlayBar.regime := by
  intro h
  have hdown : resolveAiForecastOverlayPerBar quicksort [0] tiedRows .flat ⟨52, 52⟩ =
      .ok [⟨.bear, true, true, some 0, none⟩] := by decide +kernel
  have hup : resolveAiForecastOverlayPerBar quicksort [0] (sureRow 5 "up" :: tiedRows) .flat
      ⟨52, 52⟩ = .ok [⟨.bull, true, true, some 0, none⟩] := by decide +kernel
  have hsame := h quicksort [0] tiedRows (sureRow 5 "up" :: tiedRows) .flat ⟨52, 52⟩ _ _ 0 0 hdown
    hup (by decide) rfl (by decide +kernel) 0 le_rfl
  exact absurd hsame (by decide)

end Backtest

end AdviserConstructor
