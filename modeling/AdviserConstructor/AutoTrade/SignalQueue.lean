import Mathlib.Data.List.Sort
import AdviserConstructor.AutoTrade.ConfigStore
import AdviserConstructor.AutoTrade.ExchangeSync
import AdviserConstructor.AutoTrade.SignalTrading
import AdviserConstructor.Library.LockedRow
import AdviserConstructor.Library.StepSystem

/-!
# The queue of signals

`enqueue_history_signal` puts a history into the queue, once for every running configuration of its
profile.  `process_signal_queue` is the worker: it polls batches of due items, processes each, and
commits once, when it is through with the last batch.  An item ends completed or dead, or it is due
again later.

A run of the worker is one transaction.  The query of a poll skips the items that other runs have
locked, and a configuration that another run has locked makes the attempt fail.  The sessions of
`app/db/session.py` do not flush by themselves, so that a poll reads what the flushes before it have
stored, and not what the run has assigned since: an item that the run has finished may be due for it
still.  A row that is loaded again is the same object, with what was assigned to it.

What the exchange and the other tables answer to an attempt are its `SignalAnswers`.  An item is
known by its place in the table.  Audit events are left out, and so are the parsing of a payload,
the freshness of a history, the overlay and the risk engine, whose verdicts are answers.

* `processQueueItem_cases`: what an attempt can do to its item and to the signal state.
-/

namespace AdviserConstructor

open DecimalText

/-! ## Symbols -/

/-- `symbol_market_key`. -/
def symbolMarketKey (symbol : String) : Except String String :=
  let raw := (uppered (stripped symbol)).toList
  if raw = [] then .error "symbol is required."
  else if '/' ∈ raw then
    let base := strip (raw.takeWhile (· ≠ '/'))
    let quote := strip (((raw.dropWhile (· ≠ '/')).drop 1).takeWhile (· ≠ ':'))
    if base = [] ∨ quote = [] then .error "symbol must include base and quote asset."
    else .ok (String.ofList (base ++ quote))
  else
    let compact := raw.filter fun c => c.isUpper || c.isDigit
    if compact = [] then .error "symbol must include alphanumeric assets."
    else if
      knownQuotes.any fun q => q.toList.isSuffixOf compact && q.length < compact.length
    then .ok (String.ofList compact)
    else if compact.all Char.isAlpha ∧ 2 ≤ compact.length ∧ compact.length ≤ 10 then
      .ok (String.ofList (compact ++ "USDT".toList))
    else .error "symbol must include a supported quote asset."

/-! ## Items -/

/-- The statuses of an item. -/
inductive QueueStatus where
  | pending | processing | completed | dead
  deriving DecidableEq, Repr

/-- `AutoTradeSignalQueue`. -/
structure QueueItem where
  userId : ℕ
  configId : ℕ
  profileId : ℕ
  historyId : ℕ
  status : QueueStatus := .pending
  attempt : ℕ := 0
  maxAttempts : ℕ
  nextRetryAt : ℕ
  lockedAt : Option ℕ := none
  processedAt : Option ℕ := none
  lastError : Option String := none
  deriving DecidableEq

/-- The settings of the queue. -/
structure QueueSettings where
  statusBatchSize : ℕ := 100
  maxAttempts : ℕ := 5
  retryIntervalSeconds : ℕ := 60

namespace QueueItem

/-- What the worker assigns before an attempt. -/
def beginAttempt (item : QueueItem) (now : ℕ) : QueueItem :=
  { item with status := .processing, lockedAt := some now, attempt := item.attempt + 1 }

/-- `_mark_completed`. -/
def markCompleted (item : QueueItem) (now : ℕ) : QueueItem :=
  { item with status := .completed, processedAt := some now, lockedAt := none, lastError := none }

/-- An item whose configuration or history is gone. -/
def markDead (item : QueueItem) (now : ℕ) (error : String) : QueueItem :=
  { item with status := .dead, lastError := some error, processedAt := some now, lockedAt := none }

/-- `_mark_retry_or_dead`. -/
def markRetryOrDead (settings : QueueSettings) (item : QueueItem) (now : ℕ)
    (error : ServiceError) : QueueItem :=
  let item := { item with lastError := some error.message, lockedAt := none }
  -- an exception that the exchange clients do not raise is not retried
  if (error.expected && error.retryable) ∧ item.attempt < item.maxAttempts then
    { item with
      status := .pending
      nextRetryAt := now + settings.retryIntervalSeconds * max item.attempt 1 }
  else { item with status := .dead, processedAt := some now }

/-- An item between two attempts: it is done with, or it is pending and has attempts left. -/
def Settled (item : QueueItem) : Prop :=
  item.attempt ≤ item.maxAttempts ∧
    (item.status = .completed ∨ item.status = .dead ∨
      item.status = .pending ∧ item.attempt < item.maxAttempts)

instance (item : QueueItem) : Decidable item.Settled := inferInstanceAs (Decidable (_ ∧ _))

theorem Settled.lt_of_pending {item : QueueItem} (h : item.Settled)
    (hpending : item.status = .pending) : item.attempt < item.maxAttempts := by
  rcases h.2 with hstatus | hstatus | ⟨_, hlt⟩
  · rw [hpending] at hstatus
    cases hstatus
  · rw [hpending] at hstatus
    cases hstatus
  · exact hlt

@[simp] theorem attempt_markRetryOrDead (settings : QueueSettings) (item : QueueItem) (now : ℕ)
    (error : ServiceError) : (item.markRetryOrDead settings now error).attempt = item.attempt := by
  rw [markRetryOrDead]
  split <;> rfl

theorem settled_markRetryOrDead (settings : QueueSettings) {item : QueueItem} (now : ℕ)
    (error : ServiceError) (hle : item.attempt ≤ item.maxAttempts) :
    (item.markRetryOrDead settings now error).Settled := by
  rw [markRetryOrDead]
  split
  case isTrue h => exact ⟨hle, Or.inr (Or.inr ⟨rfl, h.2⟩)⟩
  case isFalse => exact ⟨hle, Or.inr (Or.inl rfl)⟩

end QueueItem

/-! ## Without an open position -/

/-- What the other tables and the exchange answer to an entry. -/
structure EntryAnswers where
  accountIsDemo : Bool := true
  /-- stale histories are blocked, and this one is stale -/
  stale : Bool := false
  overlayBlocks : Except ServiceError Bool := .ok false
  riskAllows : Except ServiceError Bool := .ok true
  /-- what is raised before the row of the new position is flushed -/
  order : Option ServiceError := none
  booked : Option ServiceError := none
  /-- the runtime is set up, or the stop came attached to the entry -/
  isProtected : Bool := true
  emergencyClose : Option ServiceError := none

/-- What the trading branch leaves behind. -/
structure BranchAttempt where
  state : SignalState
  flushed : Bool := false
  error : Option ServiceError := none

/-- `_process_without_open_position` behind the risk engine: the order, and what is behind it. -/
def processEntry (config : AutoTradeConfig) (state : SignalState) (signal : TradeSignal)
    (answers : EntryAnswers) : BranchAttempt :=
  if config.positionSizeUsdt / signal.priceCurrent ≤ 0 then { state }
  else
    match answers.order with
    | some error => { state, error := some error }
    | none =>
        match answers.booked with
        | some error => { state, flushed := true, error := some error }
        | none =>
            if answers.isProtected then { state := state.observe signal.trend, flushed := true }
            else { state, flushed := true, error := answers.emergencyClose }

/-- `_process_without_open_position`. -/
def processWithoutOpenPosition (config : AutoTradeConfig) (state : SignalState)
    (signal : TradeSignal) (answers : EntryAnswers) : BranchAttempt :=
  if config.lifecycleStage ≠ .live ∧ answers.accountIsDemo = false then { state }
  else if signal.trend = .neutral then { state := state.observe .neutral }
  -- a threshold below one per cent was stored as a fraction
  else if 0 < config.minConfidencePct ∧ config.minConfidencePct < 1 then
    { state := state.observe signal.trend }
  else if signal.confidencePct < config.minConfidencePct then
    { state := state.observe signal.trend }
  else if answers.stale then { state }
  else
    match answers.overlayBlocks with
    | .error error => { state, error := some error }
    | .ok true => { state := state.observe signal.trend }
    | .ok false =>
        match answers.riskAllows with
        | .error error => { state, error := some error }
        | .ok false => { state := state.observe signal.trend }
        | .ok true => processEntry config state signal answers

/-! ## Processing an item -/

/-- `PersonalAnalysisHistory`, with its payload parsed. -/
structure AnalysisHistory where
  observedAt : ℕ := 0
  signal : Except String TradeSignal

/-- What the other tables and the exchange answer to an attempt. -/
structure SignalAnswers where
  /-- a session that is no run of the worker has locked the configuration -/
  configBusy : Bool := false
  history : Option AnalysisHistory
  profileSymbol : Option String
  fetch : FetchReply
  openRows : List OpenRow := []
  rawOrderDiffers : Bool := false
  venue : Venue := { size := fun _ => 0, conditionals := ∅ }
  close : TradingAnswers
  entry : EntryAnswers := {}

/-- What `_process_queue_item` returns. -/
inductive ItemOutcome where
  | completed | skipped | dead
  deriving DecidableEq, Repr

/-- What an attempt leaves behind. -/
structure ItemAttempt where
  item : QueueItem
  state : Option SignalState
  /-- the session was flushed while the item was at work -/
  flushed : Bool := false
  result : Except ServiceError ItemOutcome

/-- The state behind a history that is not looked at again. -/
def SignalState.passOver (state : SignalState) (historyId signalAt : ℕ)
    (confidencePct : Option ℚ) : SignalState :=
  { state with
    lastProcessedHistoryId := max state.lastProcessedHistoryId historyId
    lastSignalAt := some signalAt
    lastSignalConfidencePct := confidencePct }

/-- The trading branch: with the open position that the sync reports, or without. -/
def tradingBranch (config : AutoTradeConfig) (state : SignalState) (signal : TradeSignal)
    (historyId : ℕ) (synced : SyncResult) (answers : SignalAnswers) : BranchAttempt :=
  match synced.position with
  | none => processWithoutOpenPosition config state signal answers.entry
  | some row =>
      let attempt :=
        processWithOpenPosition answers.venue config state signal historyId row
          synced.exchangePosition answers.close
      { state := attempt.state, error := attempt.error }

/-- `_process_queue_item` from the sync on. -/
def tradeSignal (config : AutoTradeConfig) (state : SignalState) (item : QueueItem) (now : ℕ)
    (signal : TradeSignal) (executionSymbol : String) (answers : SignalAnswers) : ItemAttempt :=
  let sync :=
    syncOpenPosition config executionSymbol (some item.historyId) false answers.rawOrderDiffers
      answers.fetch answers.openRows
  match sync.result with
  | .error error => { item, state := some state, result := .error error }
  | .ok synced =>
      let branch := tradingBranch config state signal item.historyId synced answers
      let flushed := sync.created.isSome || branch.flushed
      match branch.error with
      | some error => { item, state := some branch.state, flushed, result := .error error }
      | none =>
          { item := item.markCompleted now
            state :=
              some (branch.state.passOver item.historyId signal.generatedAt
                (some signal.confidencePct))
            flushed
            result := .ok .completed }

/-- `_process_queue_item` from the check for a duplicate on. -/
def processHistory (config : AutoTradeConfig) (state : SignalState) (item : QueueItem) (now : ℕ)
    (history : AnalysisHistory) (answers : SignalAnswers) : ItemAttempt :=
  let skip (state : SignalState) : ItemAttempt :=
    { item := item.markCompleted now, state := some state, result := .ok .skipped }
  if item.historyId ≤ state.lastProcessedHistoryId then skip state
  else
    match history.signal with
    | .error _ => skip (state.passOver item.historyId history.observedAt none)
    | .ok signal =>
        let passed :=
          state.passOver item.historyId signal.generatedAt (some signal.confidencePct)
        match answers.profileSymbol with
        | none => skip state
        | some profileSymbol =>
            match symbolMarketKey signal.symbol with
            | .error _ => skip passed
            | .ok signalKey =>
                match symbolMarketKey profileSymbol, toLinearPerpSymbol profileSymbol with
                | .ok profileKey, .ok executionSymbol =>
                    if signalKey ≠ profileKey then skip passed
                    else tradeSignal config state item now signal executionSymbol answers
                | _, _ => skip state

/-- `_process_queue_item`, once the row of the configuration is locked. -/
def processQueueItem (config : Option AutoTradeConfig) (stored : Option SignalState)
    (item : QueueItem) (now : ℕ) (answers : SignalAnswers) : ItemAttempt :=
  let skipped : ItemAttempt :=
    { item := item.markCompleted now, state := stored, result := .ok .skipped }
  match config with
  | none =>
      { item := item.markDead now "Auto-trade config not found."
        state := stored
        result := .ok .dead }
  | some config =>
      if config.id ≠ item.configId then skipped
      else if config.enabled = false ∨ config.isRunning = false then skipped
      else if config.profileId ≠ item.profileId then skipped
      else
        match answers.history with
        | none =>
            { item := item.markDead now "Personal analysis history not found."
              state := stored
              result := .ok .dead }
        | some history =>
            let attempt := processHistory config (stored.getD {}) item now history answers
            -- a signal state that is not there is created and flushed
            { attempt with flushed := stored.isNone || attempt.flushed }

/-! ## Where an attempt can fail -/

/-- The close is accepted, and the exchange reports the position flat. -/
def TradingAnswers.Closes (answers : TradingAnswers) : Prop :=
  answers.close.raises = false ∧
    ∃ residual, confirmPositionClosed answers.confirm = .ok (true, residual)

/-- The signal against the open position is counted, and the count asks for a close that fails. -/
structure ConfirmedCloseFails (config : AutoTradeConfig) (state : SignalState)
    (signal : TradeSignal) (row : PositionRow) (snapshot : Option ExchangePosition)
    (answers : TradingAnswers) : Prop where
  live : isPositionClosedOnExchange snapshot ≠ true
  opposite : signal.trend ≠ .neutral ∧ ¬ signal.trend.matchesSide row.side = true
  ladder : ¬ row.multiTpLadderEngaged = true
  slow : ¬ config.fastCloseConfidencePct ≤ signal.confidencePct
  confirmed : ¬ state.oppositeStreak + 1 < config.confirmReportsRequired
  fails : ¬ answers.Closes

/-- The state with one more signal against the position counted. -/
def SignalState.counted (state : SignalState) : SignalState :=
  { state with oppositeStreak := state.oppositeStreak + 1 }

theorem SignalState.counted_ne (state : SignalState) : state.counted ≠ state := by
  intro h
  have hstreak : state.oppositeStreak + 1 = state.oppositeStreak :=
    congrArg SignalState.oppositeStreak h
  omega

/-- How the trading branch ends.  `Stranded` is the condition for the state to be left with a signal
counted. -/
inductive BranchCases (Stranded : Prop) (state : SignalState) :
    SignalState → Option ServiceError → Prop where
  | done {state' : SignalState}
      (hlast : state'.lastProcessedHistoryId = state.lastProcessedHistoryId) :
      BranchCases Stranded state state' none
  | failed {error : ServiceError} (hstays : ¬ Stranded) :
      BranchCases Stranded state state (some error)
  | stranded {error : ServiceError} (hstranded : Stranded) :
      BranchCases Stranded state state.counted (some error)

theorem BranchCases.congr {P Q : Prop} (h : P ↔ Q) {state state' : SignalState}
    {error : Option ServiceError} (hcases : BranchCases P state state' error) :
    BranchCases Q state state' error := by
  cases hcases with
  | done hlast => exact .done hlast
  | failed hstays => exact .failed fun hQ => hstays (h.mpr hQ)
  | stranded hstranded => exact .stranded (h.mp hstranded)

theorem closeOnOppositeTrend_spec (venue : Venue) (state : SignalState) (signal : TradeSignal)
    (historyId : ℕ) (row : PositionRow) {snapshot : Option ExchangePosition}
    (hlive : isPositionClosedOnExchange snapshot ≠ true) (closeReason : String)
    (answers : TradingAnswers) :
    let attempt :=
      closeOnOppositeTrend venue state signal historyId row snapshot closeReason answers
    answers.Closes ∧ attempt.error = none ∧ attempt.state = state.observe signal.trend ∨
      ¬ answers.Closes ∧ (∃ error, attempt.error = some error) ∧ attempt.state = state := by
  intro attempt
  cases snapshot with
  | none => exact absurd rfl hlive
  | some position =>
    have hlarge : ¬ position.contracts ≤ positionEpsilon := by
      simpa [isPositionClosedOnExchange] using hlive
    cases hclose : answers.close with
    | raised filled error =>
      refine Or.inr ⟨fun hcloses => ?_, ?_⟩
      · have hraises := hcloses.1
        rw [hclose] at hraises
        cases hraises
      · simp only [attempt, closeOnOppositeTrend, hlarge, if_false, hclose]
        exact ⟨⟨error, rfl⟩, trivial⟩
    | accepted filled order =>
      have hraises : answers.close.raises = false := by rw [hclose]; rfl
      cases hconfirm : confirmPositionClosed answers.confirm with
      | error error =>
        refine Or.inr ⟨fun hcloses => ?_, ?_⟩
        · obtain ⟨residual, hresidual⟩ := hcloses.2
          rw [hconfirm] at hresidual
          cases hresidual
        · simp only [attempt, closeOnOppositeTrend, hlarge, if_false, hclose, hconfirm]
          exact ⟨⟨error, rfl⟩, trivial⟩
      | ok confirmed =>
        obtain ⟨closed, residual⟩ := confirmed
        cases closed with
        | false =>
          refine Or.inr ⟨fun hcloses => ?_, ?_⟩
          · obtain ⟨residual', hresidual⟩ := hcloses.2
            rw [hconfirm] at hresidual
            cases hresidual
          · simp only [attempt, closeOnOppositeTrend, hlarge, if_false, hclose, hconfirm]
            exact ⟨⟨closeNotConfirmed, rfl⟩, trivial⟩
        | true =>
          refine Or.inl ⟨⟨hraises, residual, hconfirm⟩, ?_⟩
          simp only [attempt, closeOnOppositeTrend, hlarge, if_false, hclose, hconfirm, and_self]

theorem processWithOpenPosition_spec (venue : Venue) (config : AutoTradeConfig)
    (state : SignalState) (signal : TradeSignal) (historyId : ℕ) (row : PositionRow)
    (snapshot : Option ExchangePosition) (answers : TradingAnswers) :
    let attempt :=
      processWithOpenPosition venue config state signal historyId row snapshot answers
    BranchCases (ConfirmedCloseFails config state signal row snapshot answers) state attempt.state
      attempt.error := by
  intro attempt
  by_cases hflat : isPositionClosedOnExchange snapshot = true
  · simp only [attempt, processWithOpenPosition, hflat]
    exact .done rfl
  by_cases hneutral : signal.trend = .neutral
  · simp only [attempt, processWithOpenPosition, hflat, hneutral]
    exact .done rfl
  by_cases hside : signal.trend.matchesSide row.side = true
  · simp only [attempt, processWithOpenPosition, hflat, hneutral, hside]
    exact .done rfl
  by_cases hladder : row.multiTpLadderEngaged = true
  · simp only [attempt, processWithOpenPosition, hflat, hneutral, hside, hladder]
    exact .done rfl
  by_cases hfast : config.fastCloseConfidencePct ≤ signal.confidencePct
  · -- a confident signal is not counted
    have hattempt : attempt =
        closeOnOppositeTrend venue state signal historyId row snapshot "opposite_fast_confidence"
          answers := by
      simp only [attempt, processWithOpenPosition, hflat, hneutral, hside, hladder, hfast]
      rfl
    rw [hattempt]
    rcases closeOnOppositeTrend_spec venue state signal historyId row hflat
      "opposite_fast_confidence" answers with ⟨_, herror, hstate⟩ | ⟨_, ⟨error, herror⟩, hstate⟩
    · rw [herror, hstate]
      exact .done rfl
    · rw [herror, hstate]
      exact .failed fun h => h.slow hfast
  by_cases hwait : state.oppositeStreak + 1 < config.confirmReportsRequired
  · simp only [attempt, processWithOpenPosition, hflat, hneutral, hside, hladder, hfast, hwait,
      if_false]
    exact .done rfl
  · have hattempt : attempt =
        closeOnOppositeTrend venue state.counted signal historyId row snapshot
          "opposite_confirmed" answers := by
      simp only [attempt, processWithOpenPosition, hflat, hneutral, hside, hladder, hfast, hwait]
      rfl
    rw [hattempt]
    rcases closeOnOppositeTrend_spec venue state.counted signal historyId row hflat
      "opposite_confirmed" answers with ⟨_, herror, hstate⟩ | ⟨hfails, ⟨error, herror⟩, hstate⟩
    · rw [herror, hstate]
      exact .done rfl
    · rw [herror, hstate]
      exact .stranded ⟨hflat, ⟨hneutral, hside⟩, hladder, hfast, hwait, hfails⟩

theorem processEntry_spec (config : AutoTradeConfig) (state : SignalState) (signal : TradeSignal)
    (answers : EntryAnswers) :
    let attempt := processEntry config state signal answers
    BranchCases False state attempt.state attempt.error := by
  rw [processEntry]
  by_cases hsize : config.positionSizeUsdt / signal.priceCurrent ≤ 0
  · rw [if_pos hsize]
    exact .done rfl
  rw [if_neg hsize]
  cases answers.order with
  | some error => exact .failed id
  | none =>
    cases answers.booked with
    | some error => exact .failed id
    | none =>
      by_cases hprotected : answers.isProtected = true
      · simp only [hprotected]
        exact .done rfl
      · simp only [hprotected]
        cases answers.emergencyClose with
        | none => exact .done rfl
        | some error => exact .failed id

theorem processWithoutOpenPosition_spec (config : AutoTradeConfig) (state : SignalState)
    (signal : TradeSignal) (answers : EntryAnswers) :
    let attempt := processWithoutOpenPosition config state signal answers
    BranchCases False state attempt.state attempt.error := by
  have hobserve : ∀ trend, BranchCases False state (state.observe trend) none := fun _ =>
    .done rfl
  have hstays : BranchCases False state state none := .done rfl
  rw [processWithoutOpenPosition]
  by_cases hreal : config.lifecycleStage ≠ .live ∧ answers.accountIsDemo = false
  · rw [if_pos hreal]
    exact hstays
  rw [if_neg hreal]
  by_cases hneutral : signal.trend = .neutral
  · rw [if_pos hneutral]
    exact hobserve _
  rw [if_neg hneutral]
  by_cases hfraction : 0 < config.minConfidencePct ∧ config.minConfidencePct < 1
  · rw [if_pos hfraction]
    exact hobserve _
  rw [if_neg hfraction]
  by_cases hlow : signal.confidencePct < config.minConfidencePct
  · rw [if_pos hlow]
    exact hobserve _
  rw [if_neg hlow]
  by_cases hstale : answers.stale = true
  · rw [if_pos hstale]
    exact hstays
  rw [if_neg hstale]
  cases answers.overlayBlocks with
  | error error => exact .failed id
  | ok blocks =>
    cases blocks with
    | true => exact hobserve _
    | false =>
      cases answers.riskAllows with
      | error error => exact .failed id
      | ok allows =>
        cases allows with
        | false => exact hobserve _
        | true => exact processEntry_spec ..

/-! ## What an attempt can do -/

/-- The attempt gets to the trading branch with the signal, in the symbol of the profile. -/
structure ReachesTrading (config : AutoTradeConfig) (state : SignalState) (item : QueueItem)
    (answers : SignalAnswers) (signal : TradeSignal) (executionSymbol : String) : Prop where
  configId : config.id = item.configId
  active : config.enabled = true ∧ config.isRunning = true
  profileId : config.profileId = item.profileId
  history : ∃ history, answers.history = some history ∧ history.signal = .ok signal
  unprocessed : state.lastProcessedHistoryId < item.historyId
  symbols : ∃ symbol key, answers.profileSymbol = some symbol ∧
    symbolMarketKey signal.symbol = .ok key ∧ symbolMarketKey symbol = .ok key ∧
    toLinearPerpSymbol symbol = .ok executionSymbol

theorem ReachesTrading.unique {config : AutoTradeConfig} {state : SignalState}
    {item : QueueItem} {answers : SignalAnswers} {signal signal' : TradeSignal}
    {executionSymbol executionSymbol' : String}
    (h : ReachesTrading config state item answers signal executionSymbol)
    (h' : ReachesTrading config state item answers signal' executionSymbol') :
    signal' = signal ∧ executionSymbol' = executionSymbol := by
  obtain ⟨history, hhistory, hsignal⟩ := h.history
  obtain ⟨history', hhistory', hsignal'⟩ := h'.history
  obtain ⟨symbol, _, hsymbol, _, _, hexecution⟩ := h.symbols
  obtain ⟨symbol', _, hsymbol', _, _, hexecution'⟩ := h'.symbols
  obtain rfl := Option.some.inj (hhistory'.symm.trans hhistory)
  obtain rfl := Option.some.inj (hsymbol'.symm.trans hsymbol)
  exact ⟨Except.ok.inj (hsignal'.symm.trans hsignal),
    Except.ok.inj (hexecution'.symm.trans hexecution)⟩

def SignalAnswers.sync (answers : SignalAnswers) (config : AutoTradeConfig) (item : QueueItem)
    (executionSymbol : String) : SyncOutcome :=
  syncOpenPosition config executionSymbol (some item.historyId) false answers.rawOrderDiffers
    answers.fetch answers.openRows

/-- The sync reports an open position, the signal is counted against it, and the count asks for a
close that fails. -/
def StrandsCount (config : AutoTradeConfig) (state : SignalState) (item : QueueItem)
    (signal : TradeSignal) (executionSymbol : String) (answers : SignalAnswers) : Prop :=
  ∃ synced row, (answers.sync config item executionSymbol).result = .ok synced ∧
    synced.position = some row ∧
    ConfirmedCloseFails config state signal row synced.exchangePosition answers.close

theorem tradingBranch_spec (config : AutoTradeConfig) (state : SignalState)
    (signal : TradeSignal) (historyId : ℕ) (synced : SyncResult) (answers : SignalAnswers) :
    let branch := tradingBranch config state signal historyId synced answers
    BranchCases
      (∃ row, synced.position = some row ∧
        ConfirmedCloseFails config state signal row synced.exchangePosition answers.close)
      state branch.state branch.error := by
  rw [tradingBranch]
  cases synced.position with
  | none =>
    refine (processWithoutOpenPosition_spec config state signal answers.entry).congr ?_
    exact iff_of_false id fun ⟨row, hrow, _⟩ => Option.some_ne_none row hrow.symm
  | some row =>
    refine (processWithOpenPosition_spec answers.venue config state signal historyId row
      synced.exchangePosition answers.close).congr ?_
    constructor
    · exact fun h => ⟨row, rfl, h⟩
    · rintro ⟨row', hrow, h⟩
      exact Option.some.inj hrow ▸ h

/-- How an attempt ends that gets to the trading branch. -/
inductive TradeCases (Stranded : Prop) (state : SignalState) (item : QueueItem) (now : ℕ) :
    ItemAttempt → Prop where
  | completed {attempt : ItemAttempt} {state' : SignalState}
      (hresult : attempt.result = .ok .completed) (hitem : attempt.item = item.markCompleted now)
      (hstate : attempt.state = some state')
      (hlast : state'.lastProcessedHistoryId = max state.lastProcessedHistoryId item.historyId) :
      TradeCases Stranded state item now attempt
  | failed {attempt : ItemAttempt} {error : ServiceError} (hstays : ¬ Stranded)
      (hresult : attempt.result = .error error) (hitem : attempt.item = item)
      (hstate : attempt.state = some state) : TradeCases Stranded state item now attempt
  | stranded {attempt : ItemAttempt} {error : ServiceError} (hstranded : Stranded)
      (hresult : attempt.result = .error error) (hitem : attempt.item = item)
      (hstate : attempt.state = some state.counted) : TradeCases Stranded state item now attempt

theorem tradeSignal_spec (config : AutoTradeConfig) (state : SignalState) (item : QueueItem)
    (now : ℕ) (signal : TradeSignal) (executionSymbol : String) (answers : SignalAnswers) :
    TradeCases (StrandsCount config state item signal executionSymbol answers) state item now
      (tradeSignal config state item now signal executionSymbol answers) := by
  rw [tradeSignal]
  cases hsync : (answers.sync config item executionSymbol).result with
  | error error =>
    rw [SignalAnswers.sync] at hsync
    simp only [hsync]
    refine .failed ?_ (Eq.refl (Except.error error)) rfl rfl
    rintro ⟨synced, _, hsynced, _⟩
    rw [SignalAnswers.sync, hsync] at hsynced
    cases hsynced
  | ok synced =>
    have hstrands : StrandsCount config state item signal executionSymbol answers ↔
        ∃ row, synced.position = some row ∧
          ConfirmedCloseFails config state signal row synced.exchangePosition answers.close := by
      rw [StrandsCount, hsync]
      constructor
      · rintro ⟨synced', row, hsynced, hrow, h⟩
        cases hsynced
        exact ⟨row, hrow, h⟩
      · rintro ⟨row, hrow, h⟩
        exact ⟨synced, row, rfl, hrow, h⟩
    rw [hstrands]
    have hspec := tradingBranch_spec config state signal item.historyId synced answers
    rw [SignalAnswers.sync] at hsync
    simp only [hsync]
    revert hspec
    generalize tradingBranch config state signal item.historyId synced answers = branch
    intro hspec
    obtain ⟨state', flushed, error⟩ := branch
    cases hspec with
    | done hlast =>
      refine .completed rfl rfl rfl ?_
      rw [← hlast]
      rfl
    | failed hstays => exact .failed hstays rfl rfl rfl
    | stranded hstranded => exact .stranded hstranded rfl rfl rfl

/-- How an attempt ends. -/
inductive ItemCases (config : Option AutoTradeConfig) (stored : Option SignalState)
    (item : QueueItem) (now : ℕ) (answers : SignalAnswers) : ItemAttempt → Prop where
  /-- the item is done with, before the trading branch -/
  | passed {attempt : ItemAttempt} {outcome : ItemOutcome} (houtcome : outcome ≠ .completed)
      (hresult : attempt.result = .ok outcome)
      (hitem : attempt.item = item.markCompleted now ∨
        ∃ error, attempt.item = item.markDead now error)
      (hlast : (stored.getD {}).lastProcessedHistoryId ≤
        (attempt.state.getD {}).lastProcessedHistoryId) :
      ItemCases config stored item now answers attempt
  | traded {attempt : ItemAttempt} {row : AutoTradeConfig} {signal : TradeSignal}
      {executionSymbol : String} (hconfig : config = some row)
      (hreaches : ReachesTrading row (stored.getD {}) item answers signal executionSymbol)
      (hcases : TradeCases (StrandsCount row (stored.getD {}) item signal executionSymbol answers)
        (stored.getD {}) item now attempt) :
      ItemCases config stored item now answers attempt

theorem TradeCases.of_eq {Stranded : Prop} {state : SignalState} {item : QueueItem} {now : ℕ}
    {a b : ItemAttempt} (h : TradeCases Stranded state item now a) (hitem : b.item = a.item)
    (hstate : b.state = a.state) (hresult : b.result = a.result) :
    TradeCases Stranded state item now b := by
  cases h with
  | completed hres hit hst hlast =>
    exact .completed (hresult.trans hres) (hitem.trans hit) (hstate.trans hst) hlast
  | failed hstays hres hit hst =>
    exact .failed hstays (hresult.trans hres) (hitem.trans hit) (hstate.trans hst)
  | stranded hstranded hres hit hst =>
    exact .stranded hstranded (hresult.trans hres) (hitem.trans hit) (hstate.trans hst)

theorem ItemCases.of_eq {config : Option AutoTradeConfig} {stored : Option SignalState}
    {item : QueueItem} {now : ℕ} {answers : SignalAnswers} {a b : ItemAttempt}
    (h : ItemCases config stored item now answers a) (hitem : b.item = a.item)
    (hstate : b.state = a.state) (hresult : b.result = a.result) :
    ItemCases config stored item now answers b := by
  cases h with
  | passed houtcome hres hit hlast =>
    refine .passed houtcome (hresult.trans hres) ?_ ?_
    · rw [hitem]
      exact hit
    · rw [hstate]
      exact hlast
  | traded hconfig hreaches hcases =>
    exact .traded hconfig hreaches (hcases.of_eq hitem hstate hresult)

theorem processHistory_spec {config : AutoTradeConfig} {stored : Option SignalState}
    {item : QueueItem} (now : ℕ) {history : AnalysisHistory} {answers : SignalAnswers}
    (hid : config.id = item.configId) (hactive : config.enabled = true ∧ config.isRunning = true)
    (hprofile : config.profileId = item.profileId) (hhistory : answers.history = some history) :
    ItemCases (some config) stored item now answers
      (processHistory config (stored.getD {}) item now history answers) := by
  have hskip : ∀ state : SignalState,
      (stored.getD {}).lastProcessedHistoryId ≤ state.lastProcessedHistoryId →
      ItemCases (some config) stored item now answers
        { item := item.markCompleted now, state := some state, result := .ok .skipped } :=
    fun _ hle => .passed (show ItemOutcome.skipped ≠ .completed by decide) rfl (Or.inl rfl) hle
  have hpassed : ∀ signalAt confidencePct, ItemCases (some config) stored item now answers
      { item := item.markCompleted now
        state := some ((stored.getD {}).passOver item.historyId signalAt confidencePct)
        result := .ok .skipped } :=
    fun _ _ => hskip _ (le_max_left _ _)
  rw [processHistory]
  by_cases hduplicate : item.historyId ≤ (stored.getD {}).lastProcessedHistoryId
  · rw [if_pos hduplicate]
    exact hskip _ le_rfl
  rw [if_neg hduplicate]
  cases hsignal : history.signal with
  | error _ => exact hpassed _ _
  | ok signal =>
    cases hsymbol : answers.profileSymbol with
    | none => exact hskip _ le_rfl
    | some symbol =>
      cases hkey : symbolMarketKey signal.symbol with
      | error _ =>
        simp only [hkey]
        exact hpassed _ _
      | ok signalKey =>
        cases hprofileKey : symbolMarketKey symbol with
        | error _ =>
          simp only [hkey, hprofileKey]
          exact hskip _ le_rfl
        | ok profileKey =>
          cases hexecution : toLinearPerpSymbol symbol with
          | error _ =>
            simp only [hkey, hprofileKey, hexecution]
            exact hskip _ le_rfl
          | ok executionSymbol =>
            by_cases hsame : signalKey = profileKey
            · simp only [hkey, hprofileKey, hexecution, hsame, ne_eq, not_true_eq_false]
              refine .traded rfl ⟨hid, hactive, hprofile, ⟨history, hhistory, hsignal⟩,
                Nat.lt_of_not_le hduplicate, symbol, signalKey, hsymbol, hkey, ?_, hexecution⟩
                (tradeSignal_spec ..)
              rw [hprofileKey, hsame]
            · simp only [hkey, hprofileKey, hexecution, ne_eq, hsame, not_false_eq_true]
              exact hpassed _ _

/-- **What an attempt can do.** -/
theorem processQueueItem_cases (config : Option AutoTradeConfig) (stored : Option SignalState)
    (item : QueueItem) (now : ℕ) (answers : SignalAnswers) :
    ItemCases config stored item now answers
      (processQueueItem config stored item now answers) := by
  have hskip : ItemCases config stored item now answers
      { item := item.markCompleted now, state := stored, result := .ok .skipped } :=
    .passed (show ItemOutcome.skipped ≠ .completed by decide) rfl (Or.inl rfl) le_rfl
  have hdead : ∀ error, ItemCases config stored item now answers
      { item := item.markDead now error, state := stored, result := .ok .dead } :=
    fun error =>
      .passed (show ItemOutcome.dead ≠ .completed by decide) rfl (Or.inr ⟨error, rfl⟩) le_rfl
  cases config with
  | none => exact hdead _
  | some config =>
    rw [processQueueItem]
    by_cases hid : config.id = item.configId
    · rw [if_neg (not_not.mpr hid)]
      by_cases hinactive : config.enabled = false ∨ config.isRunning = false
      · rw [if_pos hinactive]
        exact hskip
      rw [if_neg hinactive]
      have hactive : config.enabled = true ∧ config.isRunning = true := by
        simpa using hinactive
      by_cases hprofile : config.profileId = item.profileId
      · rw [if_neg (not_not.mpr hprofile)]
        cases hhistory : answers.history with
        | none => exact hdead _
        | some history =>
          exact (@processHistory_spec config stored item now history answers hid hactive hprofile
            hhistory).of_eq rfl rfl rfl
      · rw [if_pos hprofile]
        exact hskip
    · rw [if_pos hid]
      exact hskip

end AdviserConstructor
