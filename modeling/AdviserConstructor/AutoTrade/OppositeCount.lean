import Mathlib.Data.Finset.Card
import AdviserConstructor.AutoTrade.SignalQueue

/-!
# The count of opposite signals

A position is closed with the reason `opposite_confirmed` once `confirm_reports_required` signals
against it have been counted.  The count, `opposite_streak`, is a column of the signal state.  This
module compares it with the signals that were processed, the latest first.

A signal that is counted and waits is done with; one that is counted and asks for a close that fails
is not, and is counted again with the next attempt.  So the count may be greater than the number of
histories behind it, but then there are as many of these as are asked for.

* `Backed`: what the count says of the signals.
* `Backed.counted`, `Backed.required_le`: one more signal is counted.
* `processWithOpenPosition_count`: what an attempt makes of the count.
-/

namespace AdviserConstructor

/-! ## The signals behind a close -/

/-- A signal that was processed. -/
structure ProcessedSignal where
  historyId : ℕ
  trend : Trend
  deriving DecidableEq

/-- The trend is against the side of a position. -/
def Trend.opposes (trend : Trend) (side : PositionSide) : Bool :=
  trend ≠ .neutral && !trend.matchesSide side

/-- The histories of the last signals, as far back as all were against the side. -/
def confirmingHistories (side : PositionSide) (processed : List ProcessedSignal) : Finset ℕ :=
  ((processed.takeWhile fun signal => signal.trend.opposes side).map
    ProcessedSignal.historyId).toFinset

theorem confirmingHistories_cons {side : PositionSide} {signal : ProcessedSignal}
    (hopposes : signal.trend.opposes side = true) (processed : List ProcessedSignal) :
    confirmingHistories side (signal :: processed) =
      insert signal.historyId (confirmingHistories side processed) := by
  rw [confirmingHistories, List.takeWhile_cons_of_pos (by simpa using hopposes), List.map_cons,
    List.toFinset_cons, confirmingHistories]

/-- The count of a state is that of signals against the position: of such as are done with, or there
are as many as are asked for. -/
def Backed (required : ℤ) (state : SignalState) (side : PositionSide)
    (processed : List ProcessedSignal) : Prop :=
  state.oppositeStreak ≤ ((confirmingHistories side processed).filter
      fun historyId => historyId ≤ state.lastProcessedHistoryId).card ∨
    required ≤ (confirmingHistories side processed).card ∧ required ≤ state.oppositeStreak

section Backed

variable {required : ℤ} {state state' : SignalState} {side : PositionSide}
  {processed : List ProcessedSignal} {signal : ProcessedSignal}

theorem backed_of_nonpos (h : state.oppositeStreak ≤ 0) : Backed required state side processed :=
  .inl (h.trans (Int.natCast_nonneg _))

theorem Backed.of_le (h : Backed required state side processed)
    (hstreak : state'.oppositeStreak = state.oppositeStreak)
    (hlast : state.lastProcessedHistoryId ≤ state'.lastProcessedHistoryId) :
    Backed required state' side processed := by
  rcases h with h | h
  · refine .inl ?_
    rw [hstreak]
    refine h.trans (Int.ofNat_le.mpr (Finset.card_le_card fun historyId hmem => ?_))
    rw [Finset.mem_filter] at hmem ⊢
    exact ⟨hmem.1, hmem.2.trans hlast⟩
  · exact .inr (hstreak ▸ h)

theorem Backed.cons (h : Backed required state side processed)
    (hopposes : signal.trend.opposes side = true) :
    Backed required state side (signal :: processed) := by
  have hsubset : confirmingHistories side processed ⊆
      confirmingHistories side (signal :: processed) := by
    rw [confirmingHistories_cons hopposes]
    exact Finset.subset_insert _ _
  rcases h with h | ⟨h, hstreak⟩
  · refine .inl (h.trans (Int.ofNat_le.mpr (Finset.card_le_card ?_)))
    exact Finset.filter_subset_filter _ hsubset
  · exact .inr ⟨h.trans (Int.ofNat_le.mpr (Finset.card_le_card hsubset)), hstreak⟩

theorem card_filter_lt (hopposes : signal.trend.opposes side = true)
    (hlast : state.lastProcessedHistoryId < signal.historyId) :
    ((confirmingHistories side processed).filter
        fun historyId => historyId ≤ state.lastProcessedHistoryId).card + 1 ≤
      ((confirmingHistories side (signal :: processed)).filter
        fun historyId =>
          historyId ≤ max state.lastProcessedHistoryId signal.historyId).card := by
  have hnew : signal.historyId ∉ (confirmingHistories side processed).filter
      fun historyId => historyId ≤ state.lastProcessedHistoryId := by
    rw [Finset.mem_filter]
    exact fun hmem => absurd hmem.2 (not_le.mpr hlast)
  rw [← Finset.card_insert_of_notMem hnew, confirmingHistories_cons hopposes]
  refine Finset.card_le_card fun historyId hmem => ?_
  rw [Finset.mem_filter, Finset.mem_insert]
  rcases Finset.mem_insert.mp hmem with rfl | hmem
  · exact ⟨.inl rfl, le_max_right _ _⟩
  · rw [Finset.mem_filter] at hmem
    exact ⟨.inr hmem.1, hmem.2.trans (le_max_left _ _)⟩

/-- **One more signal**: where the count asks for a close, there are as many signals. -/
theorem Backed.required_le (h : Backed required state side processed)
    (hopposes : signal.trend.opposes side = true)
    (hlast : state.lastProcessedHistoryId < signal.historyId)
    (hcount : required ≤ state.oppositeStreak + 1) :
    required ≤ (confirmingHistories side (signal :: processed)).card := by
  rcases h with h | ⟨h, -⟩
  · have hcard := @card_filter_lt state side processed signal hopposes hlast
    have hle := hcard.trans (Finset.card_filter_le _ _)
    omega
  · refine h.trans (Int.ofNat_le.mpr (Finset.card_le_card ?_))
    rw [confirmingHistories_cons hopposes]
    exact Finset.subset_insert _ _

/-- One more signal that is done with. -/
theorem Backed.counted (h : Backed required state side processed)
    (hopposes : signal.trend.opposes side = true)
    (hlast : state.lastProcessedHistoryId < signal.historyId)
    (hstreak : state'.oppositeStreak = state.oppositeStreak + 1)
    (hdone : state'.lastProcessedHistoryId =
      max state.lastProcessedHistoryId signal.historyId) :
    Backed required state' side (signal :: processed) := by
  rcases h with h | ⟨h, hrequired⟩
  · left
    have hcard := @card_filter_lt state side processed signal hopposes hlast
    rw [hdone]
    omega
  · right
    have hsubset : (confirmingHistories side processed).card ≤
        (confirmingHistories side (signal :: processed)).card := by
      rw [confirmingHistories_cons hopposes]
      exact Finset.card_le_card (Finset.subset_insert _ _)
    omega

end Backed

/-! ## What an attempt makes of the count -/

/-- The signal is one against a position that is there and that no ladder holds. -/
structure CountsAgainst (signal : TradeSignal) (row : PositionRow)
    (snapshot : Option ExchangePosition) : Prop where
  live : isPositionClosedOnExchange snapshot = false
  opposes : signal.trend.opposes row.side = true
  ladder : row.multiTpLadderEngaged = false

instance (signal : TradeSignal) (row : PositionRow) (snapshot : Option ExchangePosition) :
    Decidable (CountsAgainst signal row snapshot) :=
  decidable_of_iff
    (isPositionClosedOnExchange snapshot = false ∧ signal.trend.opposes row.side = true ∧
      row.multiTpLadderEngaged = false)
    ⟨fun ⟨live, opposes, ladder⟩ => ⟨live, opposes, ladder⟩,
      fun ⟨live, opposes, ladder⟩ => ⟨live, opposes, ladder⟩⟩

/-- How an attempt against an open position ends. -/
inductive CountCases (required : ℤ) (state : SignalState) (signal : TradeSignal)
    (row : PositionRow) (snapshot : Option ExchangePosition) (fast closes : Prop)
    (attempt : Attempt) : Prop where
  | reset (herror : attempt.error = none) (hstreak : attempt.state.oppositeStreak = 0)
      (hlast : attempt.state.lastProcessedHistoryId = state.lastProcessedHistoryId)
      (hreason : attempt.row.status = .closed → attempt.row.closeReason ≠ "opposite_confirmed")
  | waits (herror : attempt.error = none) (hcounts : CountsAgainst signal row snapshot)
      (hslow : ¬ fast) (hstreak : attempt.state.oppositeStreak = state.oppositeStreak + 1)
      (hlast : attempt.state.lastProcessedHistoryId = state.lastProcessedHistoryId)
      (hrow : attempt.row = row)
  | confirmed (herror : attempt.error = none) (hcounts : CountsAgainst signal row snapshot)
      (hslow : ¬ fast) (hrequired : required ≤ state.oppositeStreak + 1)
      (hstreak : attempt.state.oppositeStreak = 0)
      (hlast : attempt.state.lastProcessedHistoryId = state.lastProcessedHistoryId)
  | stranded {error : ServiceError} (herror : attempt.error = some error)
      (hcounts : CountsAgainst signal row snapshot) (hslow : ¬ fast)
      (hrequired : required ≤ state.oppositeStreak + 1) (hstate : attempt.state = state.counted)
      (hrow : attempt.row = row)
  /-- a confident signal whose close fails is not counted -/
  | failed {error : ServiceError} (herror : attempt.error = some error)
      (hcounts : CountsAgainst signal row snapshot) (hfast : fast) (hfails : ¬ closes)
      (hstate : attempt.state = state) (hrow : attempt.row = row)

theorem row_closeOnOppositeTrend (venue : Venue) (state : SignalState) (signal : TradeSignal)
    (historyId : ℕ) (row : PositionRow) (snapshot : Option ExchangePosition)
    (closeReason : String) (answers : TradingAnswers) :
    let attempt :=
      closeOnOppositeTrend venue state signal historyId row snapshot closeReason answers
    attempt.row = row ∨ attempt.error = none ∧
      attempt.row.status = .closed ∧ attempt.row.closeReason = some closeReason := by
  intro attempt
  cases snapshot with
  | none => exact .inl rfl
  | some position =>
    by_cases hsmall : position.contracts ≤ positionEpsilon
    · left
      simp only [attempt, closeOnOppositeTrend, hsmall, if_true]
    · cases hclose : answers.close with
      | raised filled error =>
        left
        simp only [attempt, closeOnOppositeTrend, hsmall, if_false, hclose]
      | accepted filled order =>
        cases hconfirm : confirmPositionClosed answers.confirm with
        | error error =>
          left
          simp only [attempt, closeOnOppositeTrend, hsmall, if_false, hclose, hconfirm]
        | ok confirmed =>
          obtain ⟨closed, residual⟩ := confirmed
          cases closed with
          | false =>
            left
            simp only [attempt, closeOnOppositeTrend, hsmall, if_false, hclose, hconfirm]
          | true =>
            right
            simp only [attempt, closeOnOppositeTrend, hsmall, if_false, hclose, hconfirm]
            exact ⟨trivial, rfl, rfl⟩

/-- **What an attempt makes of the count.** -/
theorem processWithOpenPosition_count (venue : Venue) (config : AutoTradeConfig)
    (state : SignalState) (signal : TradeSignal) (historyId : ℕ) {row : PositionRow}
    (hopen : row.status = .open) (snapshot : Option ExchangePosition) (answers : TradingAnswers) :
    CountCases config.confirmReportsRequired state signal row snapshot
      (config.fastCloseConfidencePct ≤ signal.confidencePct) answers.Closes
      (processWithOpenPosition venue config state signal historyId row snapshot answers) := by
  have hheld : row.status = .closed → row.closeReason ≠ some "opposite_confirmed" := by
    intro hclosed
    rw [hopen] at hclosed
    cases hclosed
  generalize hattempt :
    processWithOpenPosition venue config state signal historyId row snapshot answers = attempt
  rw [processWithOpenPosition] at hattempt
  by_cases hflat : isPositionClosedOnExchange snapshot = true
  · rw [if_pos hflat] at hattempt
    subst hattempt
    refine .reset rfl rfl rfl fun _ => ?_
    show some "already_closed_on_exchange" ≠ some "opposite_confirmed"
    decide
  rw [if_neg hflat] at hattempt
  by_cases hneutral : signal.trend = .neutral
  · rw [if_pos hneutral] at hattempt
    subst hattempt
    exact .reset rfl rfl rfl hheld
  rw [if_neg hneutral] at hattempt
  by_cases hside : signal.trend.matchesSide row.side = true
  · rw [if_pos hside] at hattempt
    subst hattempt
    exact .reset rfl rfl rfl hheld
  rw [if_neg hside] at hattempt
  by_cases hladder : row.multiTpLadderEngaged = true
  · rw [if_pos hladder] at hattempt
    subst hattempt
    exact .reset rfl rfl rfl hheld
  rw [if_neg hladder] at hattempt
  have hcounts : CountsAgainst signal row snapshot :=
    ⟨Bool.eq_false_iff.mpr hflat, by simp [Trend.opposes, hneutral, hside],
      Bool.eq_false_iff.mpr hladder⟩
  by_cases hfast : config.fastCloseConfidencePct ≤ signal.confidencePct
  · rw [if_pos hfast] at hattempt
    have hrow := row_closeOnOppositeTrend venue state signal historyId row snapshot
      "opposite_fast_confidence" answers
    have hspec := closeOnOppositeTrend_spec venue state signal historyId row hflat
      "opposite_fast_confidence" answers
    rw [hattempt] at hrow hspec
    rcases hspec with ⟨-, herror, hstate⟩ | ⟨hfails, ⟨error, herror⟩, hstate⟩
    · refine .reset herror (by rw [hstate]; rfl) (by rw [hstate]; rfl) ?_
      rcases hrow with hrow | ⟨-, -, hreason⟩
      · rw [hrow]
        exact hheld
      · rw [hreason]
        exact fun _ => by decide
    · refine .failed herror hcounts hfast hfails hstate ?_
      rcases hrow with hrow | ⟨hnone, -⟩
      · exact hrow
      · rw [herror] at hnone
        cases hnone
  rw [if_neg hfast] at hattempt
  by_cases hwait : state.oppositeStreak + 1 < config.confirmReportsRequired
  · simp only [hwait] at hattempt
    subst hattempt
    exact .waits rfl hcounts hfast rfl rfl rfl
  · simp only [hwait, if_false] at hattempt
    have hrow := row_closeOnOppositeTrend venue state.counted signal historyId row snapshot
      "opposite_confirmed" answers
    have hspec := closeOnOppositeTrend_spec venue state.counted signal historyId row hflat
      "opposite_confirmed" answers
    rw [SignalState.counted, hattempt] at hrow hspec
    rcases hspec with ⟨-, herror, hstate⟩ | ⟨-, ⟨error, herror⟩, hstate⟩
    · exact .confirmed herror hcounts hfast (not_lt.mp hwait) (by rw [hstate]; rfl)
        (by rw [hstate]; rfl)
    · refine .stranded herror hcounts hfast (not_lt.mp hwait) hstate ?_
      rcases hrow with hrow | ⟨hnone, -⟩
      · exact hrow
      · rw [herror] at hnone
        cases hnone

end AdviserConstructor
