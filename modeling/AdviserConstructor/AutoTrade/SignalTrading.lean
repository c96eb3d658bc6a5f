import AdviserConstructor.AutoTrade.Config
import AdviserConstructor.AutoTrade.PositionRow
import AdviserConstructor.AutoTrade.Venue

/-!
# A signal while a position is open

`_process_with_open_position` of `app/services/auto_trade/service.py` gets the open row, the
exchange position that the sync before it has fetched, and a signal.  A position that the exchange
no longer has is marked closed; a neutral signal, one of the same side and one against a ladder
that has fired are held; an opposite one closes the position once it is confident enough or has
been confirmed often enough, and the row is marked closed only when the exchange reports the
position flat afterwards.

An exception ends the attempt where it is raised and keeps what the attempt has assigned until
then, so an attempt returns its state and row together with the error.

* `processWithOpenPosition_cases`: an attempt that closes an open row has been told by the
  exchange that a position is flat: that of the snapshot, or that of the row.
* `conditionals_processWithOpenPosition`: no attempt touches a conditional order.

The audit events, the recorded order metadata and the guard that runs after a close are left out.
-/

namespace AdviserConstructor

/-! ## Signals -/

/-- `SignalTrend`. -/
inductive Trend where
  | long | short | neutral
  deriving DecidableEq, Repr

/-- Whether the trend is the side of a position. -/
def Trend.matchesSide : Trend → PositionSide → Bool
  | .long, .long => true
  | .short, .short => true
  | _, _ => false

/-- `ParsedAutoTradeSignal`. -/
structure TradeSignal where
  symbol : String := ""
  trend : Trend
  confidencePct : ℚ
  priceCurrent : ℚ
  generatedAt : ℕ := 0
  deriving DecidableEq

/-- `AutoTradeSignalState`. -/
structure SignalState where
  lastProcessedHistoryId : ℕ := 0
  lastTrend : Option Trend := none
  oppositeStreak : ℤ := 0
  lastSignalAt : Option ℕ := none
  lastSignalConfidencePct : Option ℚ := none
  deriving DecidableEq

/-- The state behind a signal that has been looked at. -/
def SignalState.observe (state : SignalState) (trend : Trend) : SignalState :=
  { state with lastTrend := some trend, oppositeStreak := 0 }

/-! ## Confirming a close -/

/-- `_POSITION_CLOSE_CONFIRM_ATTEMPTS`. -/
def positionCloseConfirmAttempts : ℕ := 3

/-- The loop of `_confirm_position_closed`: the attempts that are left, and the replies from the
next one on. -/
def confirmLoop : ℕ → (ℕ → FetchReply) → Option ExchangePosition →
    Except ServiceError (Bool × Option ExchangePosition)
  | 0, _, latest => .ok (false, latest)
  | attempts + 1, replies, _ => do
      let latest ← replies 0
      if isPositionClosedOnExchange latest then pure (true, latest)
      else confirmLoop attempts (fun n => replies (n + 1)) latest

/-- `_confirm_position_closed`. -/
def confirmPositionClosed (replies : ℕ → FetchReply) :
    Except ServiceError (Bool × Option ExchangePosition) :=
  confirmLoop positionCloseConfirmAttempts replies none

theorem closed_of_confirmLoop {attempts : ℕ} {replies : ℕ → FetchReply}
    {latest residual : Option ExchangePosition}
    (h : confirmLoop attempts replies latest = .ok (true, residual)) :
    isPositionClosedOnExchange residual = true := by
  induction attempts generalizing replies latest with
  | zero => simp [confirmLoop] at h
  | succ attempts ih =>
    rw [confirmLoop] at h
    cases hreply : replies 0 with
    | error e =>
      rw [hreply] at h
      exact absurd h (by simp [bind, Except.bind])
    | ok position =>
      rw [hreply] at h
      by_cases hflat : isPositionClosedOnExchange position = true
      · simp only [bind, Except.bind, hflat, if_true, pure, Except.pure, Except.ok.injEq,
          Prod.mk.injEq, true_and] at h
        exact h ▸ hflat
      · simp only [bind, Except.bind, hflat] at h
        exact ih h

/-- **A confirmed close is a flat report.** -/
theorem closed_of_confirmPositionClosed {replies : ℕ → FetchReply}
    {residual : Option ExchangePosition}
    (h : confirmPositionClosed replies = .ok (true, residual)) :
    isPositionClosedOnExchange residual = true :=
  closed_of_confirmLoop h

/-! ## The attempt -/

namespace PositionRow

/-- `_triggered_tp_levels`. -/
def triggeredTpLevels (row : PositionRow) : List ℕ :=
  (row.tpLevels.zipIdx 1).filterMap fun (level, index) =>
    if level.status = .triggered then some index else none

/-- `_multi_tp_ladder_engaged`. -/
def multiTpLadderEngaged (row : PositionRow) : Bool :=
  row.tpMode = .multi ∧ row.triggeredTpLevels ≠ []

end PositionRow

/-- What `close_futures_market_reduce_only` returns of its order. -/
structure CloseOrder where
  id : String := ""
  average : Option ℚ := none
  price : Option ℚ := none
  deriving DecidableEq

/-- A number that is neither `None` nor zero. -/
def nonzero (x : Option ℚ) : Option ℚ := x.filter fun q => q ≠ 0

/-- `average or price or price_current`. -/
def CloseOrder.closePrice (order : CloseOrder) (signal : TradeSignal) : ℚ :=
  ((nonzero order.average).or (nonzero order.price)).getD signal.priceCurrent

/-- How the exchange answers an attempt to close. -/
structure TradingAnswers where
  close : CloseReply CloseOrder
  confirm : ℕ → FetchReply

/-- What an attempt leaves behind. -/
structure Attempt where
  state : SignalState
  row : PositionRow
  venue : Venue
  answers : List VenueAnswer := []
  error : Option ServiceError := none

/-- The exception for a snapshot that is missing. -/
def missingSnapshot : ServiceError where
  message := "Exchange position snapshot missing for open position."
  retryable := true

/-- The exception for a snapshot without contracts. -/
def nonPositiveContracts : ServiceError where
  message := "Exchange returned non-positive contracts for open position."
  retryable := true

/-- The exception for a close that is not confirmed. -/
def closeNotConfirmed : ServiceError where
  message := "Close order submitted but exchange still reports open contracts. " ++
    "Will retry confirmation."
  retryable := true

namespace PositionRow

/-- The row of a position that the snapshot no longer shows. -/
def alreadyClosedOnExchange (row : PositionRow) (historyId : ℕ)
    (snapshot : Option ExchangePosition) : PositionRow :=
  { row.close "already_closed_on_exchange" with
    closeHistoryId := some historyId
    closePrice := snapshot.bind (·.markPrice) }

/-- The row of a position closed against an opposite signal. -/
def closedOnOppositeTrend (row : PositionRow) (historyId : ℕ) (closeReason : String)
    (order : CloseOrder) (signal : TradeSignal) : PositionRow :=
  { row.close closeReason with
    closePrice := some (order.closePrice signal)
    closeOrderId := some order.id
    closeHistoryId := some historyId }

end PositionRow

/-- The close of an open position against an opposite signal, from the check of the snapshot on. -/
def closeOnOppositeTrend (venue : Venue) (state : SignalState) (signal : TradeSignal)
    (historyId : ℕ) (row : PositionRow) (snapshot : Option ExchangePosition)
    (closeReason : String) (answers : TradingAnswers) : Attempt :=
  match snapshot with
  | none => { state, row, venue, error := some missingSnapshot }
  | some position =>
      if position.contracts ≤ positionEpsilon then
        { state, row, venue, error := some nonPositiveContracts }
      else
        let venue := venue.reduceOnly row.symbol position.contracts answers.close.filled
        match answers.close with
        | .raised _ error =>
            { state, row, venue, answers := [.close row.symbol true], error := some error }
        | .accepted _ order =>
            match confirmPositionClosed answers.confirm with
            | .error error =>
                { state, row, venue, answers := [.close row.symbol false], error := some error }
            | .ok (false, _) =>
                { state, row, venue
                  answers := [.close row.symbol false, .position row.symbol false]
                  error := some closeNotConfirmed }
            | .ok (true, residual) =>
                { state := state.observe signal.trend
                  row := row.closedOnOppositeTrend historyId closeReason order signal
                  venue
                  answers :=
                    [.close row.symbol false,
                      .position row.symbol (isPositionClosedOnExchange residual)] }

/-- `_process_with_open_position`.  The snapshot is the exchange position of `snapshotSymbol`, the
symbol that the profile of the configuration trades in now. -/
def processWithOpenPosition (venue : Venue) (config : AutoTradeConfig) (state : SignalState)
    (signal : TradeSignal) (historyId : ℕ) (row : PositionRow)
    (snapshot : Option ExchangePosition) (answers : TradingAnswers) : Attempt :=
  if isPositionClosedOnExchange snapshot then
    { state := state.observe signal.trend
      row := row.alreadyClosedOnExchange historyId snapshot
      venue }
  else if signal.trend = .neutral then { state := state.observe .neutral, row, venue }
  else if signal.trend.matchesSide row.side then
    { state := state.observe signal.trend, row, venue }
  -- once a level has fired, the rest of the position belongs to the ladder
  else if row.multiTpLadderEngaged then { state := state.observe signal.trend, row, venue }
  else if config.fastCloseConfidencePct ≤ signal.confidencePct then
    closeOnOppositeTrend venue state signal historyId row snapshot "opposite_fast_confidence"
      answers
  else
    let state := { state with oppositeStreak := state.oppositeStreak + 1 }
    if state.oppositeStreak < config.confirmReportsRequired then
      { state := { state with lastTrend := some signal.trend }, row, venue }
    else
      closeOnOppositeTrend venue state signal historyId row snapshot "opposite_confirmed" answers

/-! ## What an attempt can do -/

/-- The three ways in which an attempt ends: the snapshot is flat and the row is marked closed, the
close is confirmed and the row is marked closed, or the row stays as it is. -/
inductive AttemptCases (historyId : ℕ) (row : PositionRow) (snapshot : Option ExchangePosition)
    (attempt : Attempt) : Prop where
  | alreadyClosed (hflat : isPositionClosedOnExchange snapshot = true)
      (hrow : attempt.row = row.alreadyClosedOnExchange historyId snapshot)
  | closed (hanswer : VenueAnswer.position row.symbol true ∈ attempt.answers)
      (hrow : attempt.row.status = .closed) (herror : attempt.error = none)
  | held (hrow : attempt.row = row)

theorem closeOnOppositeTrend_cases (venue : Venue) (state : SignalState) (signal : TradeSignal)
    (historyId : ℕ) (row : PositionRow) (snapshot : Option ExchangePosition)
    (closeReason : String) (answers : TradingAnswers) :
    AttemptCases historyId row snapshot
      (closeOnOppositeTrend venue state signal historyId row snapshot closeReason answers) := by
  unfold closeOnOppositeTrend
  cases snapshot with
  | none => exact .held rfl
  | some position =>
    by_cases hsmall : position.contracts ≤ positionEpsilon
    · simp only [hsmall]
      exact .held rfl
    · simp only [hsmall]
      cases answers.close with
      | raised filled error => exact .held rfl
      | accepted filled order =>
        cases hconfirm : confirmPositionClosed answers.confirm with
        | error e => exact .held rfl
        | ok confirmed =>
          obtain ⟨closed, residual⟩ := confirmed
          cases closed with
          | false => exact .held rfl
          | true =>
            have hflat := closed_of_confirmPositionClosed hconfirm
            refine .closed ?_ rfl rfl
            change _ ∈ [VenueAnswer.close row.symbol false,
              .position row.symbol (isPositionClosedOnExchange residual)]
            rw [hflat]
            exact List.mem_cons_of_mem _ (List.mem_singleton_self _)

/-- Every attempt ends in one of the three ways. -/
theorem processWithOpenPosition_cases (venue : Venue) (config : AutoTradeConfig)
    (state : SignalState) (signal : TradeSignal) (historyId : ℕ) (row : PositionRow)
    (snapshot : Option ExchangePosition) (answers : TradingAnswers) :
    AttemptCases historyId row snapshot
      (processWithOpenPosition venue config state signal historyId row snapshot answers) := by
  unfold processWithOpenPosition
  by_cases hflat : isPositionClosedOnExchange snapshot = true
  · rw [if_pos hflat]
    exact .alreadyClosed hflat rfl
  rw [if_neg hflat]
  by_cases hneutral : signal.trend = .neutral
  · rw [if_pos hneutral]
    exact .held rfl
  rw [if_neg hneutral]
  by_cases hside : signal.trend.matchesSide row.side = true
  · rw [if_pos hside]
    exact .held rfl
  rw [if_neg hside]
  by_cases hladder : row.multiTpLadderEngaged = true
  · rw [if_pos hladder]
    exact .held rfl
  rw [if_neg hladder]
  by_cases hfast : config.fastCloseConfidencePct ≤ signal.confidencePct
  · rw [if_pos hfast]
    exact closeOnOppositeTrend_cases ..
  rw [if_neg hfast]
  by_cases hwait : state.oppositeStreak + 1 < config.confirmReportsRequired
  · simp only [hwait]
    exact .held rfl
  · simp only [hwait]
    exact closeOnOppositeTrend_cases ..

theorem conditionals_closeOnOppositeTrend (venue : Venue) (state : SignalState)
    (signal : TradeSignal) (historyId : ℕ) (row : PositionRow)
    (snapshot : Option ExchangePosition) (closeReason : String) (answers : TradingAnswers) :
    (closeOnOppositeTrend venue state signal historyId row snapshot closeReason
      answers).venue.conditionals = venue.conditionals := by
  unfold closeOnOppositeTrend
  cases snapshot with
  | none => rfl
  | some position =>
    by_cases hsmall : position.contracts ≤ positionEpsilon
    · simp only [hsmall, if_true]
    · simp only [hsmall]
      cases answers.close with
      | raised filled error => rfl
      | accepted filled order =>
        cases confirmPositionClosed answers.confirm with
        | error e => rfl
        | ok confirmed =>
          obtain ⟨closed, residual⟩ := confirmed
          cases closed <;> rfl

/-- **A signal touches no conditional order.** -/
theorem conditionals_processWithOpenPosition (venue : Venue) (config : AutoTradeConfig)
    (state : SignalState) (signal : TradeSignal) (historyId : ℕ) (row : PositionRow)
    (snapshot : Option ExchangePosition) (answers : TradingAnswers) :
    (processWithOpenPosition venue config state signal historyId row snapshot
      answers).venue.conditionals = venue.conditionals := by
  unfold processWithOpenPosition
  split_ifs
  case pos => rfl
  case pos => rfl
  case pos => rfl
  case pos => rfl
  case pos => exact conditionals_closeOnOppositeTrend ..
  case neg =>
    simp only
    split_ifs
    · rfl
    · exact conditionals_closeOnOppositeTrend ..

end AdviserConstructor
