import AdviserConstructor.AutoTrade.OppositeCount

/-!
# Runs of a configuration, and the closes by the count

`opposite_streak` is a column of the signal state, of which a configuration has one; it is not a
column of the position that the signals are counted against.

A run of a configuration is made of the attempts at its signals, of the edits of the configuration,
and of what others do to the open rows of its account: they close rows, open and adopt rows, and
rewrite their sides.  Beside the columns, a run keeps for each open row the signals that were
processed since it was opened or got its side, the latest first; nothing in the code reads these.

Signals that are passed over (a payload or a symbol that does not fit, a duplicate) and attempts
whose sync raises do not get to the position.

* `confirmed_along`: if no signal is counted against a position that it is the first to meet while
  there is a count from before, and nobody raises the number of reports while a confirmed close is
  to be repeated, then a close with the reason `opposite_confirmed` has as many different
  histories behind it as the configuration asks for, and no other signal between them.
* `adopted_closedTooSoon`: a position that is adopted behind another one.
-/

namespace AdviserConstructor

open StepSystem

/-! ## The open rows -/

/-- An open row of the account, with the signals that were processed since it was opened or got its
side. -/
structure TrackedRow where
  id : ℕ
  loaded : OpenRow
  processed : List ProcessedSignal := []

namespace TrackedRow

def ofRow (id : ℕ) (row : PositionRow) : Option TrackedRow :=
  if hopen : row.status = .open then some { id, loaded := ⟨row, hopen⟩ } else none

def rewritten (tracked : TrackedRow) (row : PositionRow) : Option TrackedRow :=
  if hopen : row.status = .open then
    some
      { id := tracked.id
        loaded := ⟨row, hopen⟩
        -- on another side it is another position
        processed := if row.side = tracked.loaded.row.side then tracked.processed else [] }
  else none

def record (tracked : TrackedRow) (signal : ProcessedSignal) : TrackedRow :=
  { tracked with processed := signal :: tracked.processed }

/-- The count of the state is backed by the signals of the row. -/
def Backs (tracked : TrackedRow) (required : ℤ) (state : SignalState) : Prop :=
  Backed required state tracked.loaded.row.side tracked.processed

theorem row_rewritten {tracked tracked' : TrackedRow} {row : PositionRow}
    (h : tracked' ∈ tracked.rewritten row) : tracked'.loaded.row = row := by
  rw [rewritten] at h
  split at h
  · cases h
    rfl
  · cases h

theorem mem_rewritten {tracked tracked' : TrackedRow} {row : PositionRow}
    (h : tracked' ∈ tracked.rewritten row) :
    tracked'.processed = [] ∨ tracked'.processed = tracked.processed ∧
      tracked'.loaded.row.side = tracked.loaded.row.side := by
  rw [rewritten] at h
  split at h
  · cases h
    by_cases hside : row.side = tracked.loaded.row.side
    · exact .inr ⟨if_pos hside, hside⟩
    · exact .inl (if_neg hside)
  · cases h

theorem rewritten_self (tracked : TrackedRow) :
    tracked.rewritten tracked.loaded.row = some tracked := by
  rw [rewritten, dif_pos tracked.loaded.isOpen, if_pos rfl]

end TrackedRow

def syncedRows (rows : List TrackedRow) (rowId : ℕ) (sync : SyncOutcome) : List TrackedRow :=
  match sync.created with
  | some row => (TrackedRow.ofRow rowId row).toList
  | none => (rows.zip sync.rows).filterMap fun pair => pair.1.rewritten pair.2

/-- The open rows behind what others have done: a row that is open still on the same side has the
signals from before. -/
def rowsElsewhere (rows : List TrackedRow) (now : List (ℕ × OpenRow)) : List TrackedRow :=
  now.map fun (id, loaded) =>
    { id, loaded
      processed :=
        match rows.find? fun tracked => tracked.id = id with
        | some tracked =>
            if loaded.row.side = tracked.loaded.row.side then tracked.processed else []
        | none => [] }

/-! ## Attempts that get to the sync -/

/-- The signal of an attempt and the symbol of its profile, if it gets to the sync. -/
def tradedSignal (config : AutoTradeConfig) (state : SignalState) (item : QueueItem)
    (answers : SignalAnswers) : Option (TradeSignal × String) :=
  if config.id ≠ item.configId then none
  else if config.enabled = false ∨ config.isRunning = false then none
  else if config.profileId ≠ item.profileId then none
  else
    match answers.history with
    | none => none
    | some history =>
        if item.historyId ≤ state.lastProcessedHistoryId then none
        else
          match history.signal, answers.profileSymbol with
          | .ok signal, some profileSymbol =>
              match symbolMarketKey signal.symbol with
              | .error _ => none
              | .ok signalKey =>
                  match symbolMarketKey profileSymbol, toLinearPerpSymbol profileSymbol with
                  | .ok profileKey, .ok executionSymbol =>
                      if signalKey ≠ profileKey then none else some (signal, executionSymbol)
                  | _, _ => none
          | _, _ => none

/-- **Where an attempt gets to.**  It goes on with a history that is not done with, or it leaves the
count. -/
theorem processQueueItem_traded (config : AutoTradeConfig) (stored : Option SignalState)
    (item : QueueItem) (now : ℕ) (answers : SignalAnswers) :
    let attempt := processQueueItem (some config) stored item now answers
    match tradedSignal config (stored.getD {}) item answers with
    | none =>
        (attempt.state.getD {}).oppositeStreak = (stored.getD {}).oppositeStreak ∧
          (stored.getD {}).lastProcessedHistoryId ≤ (attempt.state.getD {}).lastProcessedHistoryId
    | some (signal, executionSymbol) =>
        (stored.getD {}).lastProcessedHistoryId < item.historyId ∧
          attempt.state = (tradeSignal config (stored.getD {}) item now signal executionSymbol
            answers).state := by
  rw [tradedSignal, processQueueItem]
  by_cases hid : config.id ≠ item.configId
  · rw [if_pos hid, if_pos hid]
    exact ⟨rfl, le_rfl⟩
  rw [if_neg hid, if_neg hid]
  by_cases hinactive : config.enabled = false ∨ config.isRunning = false
  · rw [if_pos hinactive, if_pos hinactive]
    exact ⟨rfl, le_rfl⟩
  rw [if_neg hinactive, if_neg hinactive]
  by_cases hprofile : config.profileId ≠ item.profileId
  · rw [if_pos hprofile, if_pos hprofile]
    exact ⟨rfl, le_rfl⟩
  rw [if_neg hprofile, if_neg hprofile]
  cases answers.history with
  | none => exact ⟨rfl, le_rfl⟩
  | some history =>
    simp only [processHistory]
    by_cases hduplicate : item.historyId ≤ (stored.getD {}).lastProcessedHistoryId
    · rw [if_pos hduplicate, if_pos hduplicate]
      exact ⟨rfl, le_rfl⟩
    rw [if_neg hduplicate, if_neg hduplicate]
    cases history.signal with
    | error _ => exact ⟨rfl, le_max_left _ _⟩
    | ok signal =>
      cases answers.profileSymbol with
      | none => exact ⟨rfl, le_rfl⟩
      | some symbol =>
        dsimp only
        cases symbolMarketKey signal.symbol with
        | error _ => exact ⟨rfl, le_max_left _ _⟩
        | ok signalKey =>
          cases symbolMarketKey symbol with
          | error _ => exact ⟨rfl, le_rfl⟩
          | ok profileKey =>
            cases toLinearPerpSymbol symbol with
            | error _ => exact ⟨rfl, le_rfl⟩
            | ok executionSymbol =>
              dsimp only
              by_cases hother : signalKey ≠ profileKey
              · rw [if_pos hother, if_pos hother]
                exact ⟨rfl, le_max_left _ _⟩
              · rw [if_neg hother, if_neg hother]
                exact ⟨not_le.mp hduplicate, rfl⟩

/-! ## What a sync does to the open rows -/

/-- How a sync that closes no missing rows leaves the open rows. -/
inductive SyncCases (rows : List TrackedRow) (synced : SyncResult) (behind : List TrackedRow) :
    Prop where
  | flat (hflat : isPositionClosedOnExchange synced.exchangePosition = true)
      (hbehind : behind = rows)
      (hposition : synced.position = rows.head?.map fun tracked => tracked.loaded.row)
  | nothing (hbehind : behind = []) (hposition : synced.position = none)
  | live {tracked : TrackedRow}
      (hlive : isPositionClosedOnExchange synced.exchangePosition = false)
      (hbehind : behind = [tracked]) (hposition : synced.position = some tracked.loaded.row)
      (hprocessed : tracked.processed = [] ∨ ∃ newest ∈ rows,
        tracked.processed = newest.processed ∧
          tracked.loaded.row.side = newest.loaded.row.side)

theorem filterMap_zip_self (rows : List TrackedRow) :
    (rows.zip (rows.map fun tracked => tracked.loaded.row)).filterMap
      (fun pair => pair.1.rewritten pair.2) = rows := by
  induction rows with
  | nil => rfl
  | cons tracked rows ih =>
    rw [List.map_cons, List.zip_cons_cons, List.filterMap_cons, TrackedRow.rewritten_self, ih]

theorem filterMap_zip_closeDuplicate (rows : List TrackedRow) (historyId : Option ℕ) :
    (rows.zip (rows.map fun tracked => tracked.loaded.row.closeDuplicate historyId)).filterMap
      (fun pair => pair.1.rewritten pair.2) = [] := by
  induction rows with
  | nil => rfl
  | cons tracked rows ih =>
    have hclosed : tracked.rewritten (tracked.loaded.row.closeDuplicate historyId) = none := by
      rw [TrackedRow.rewritten, dif_neg]
      rw [PositionRow.status_closeDuplicate]
      decide
    rw [List.map_cons, List.zip_cons_cons, List.filterMap_cons, hclosed, ih]

theorem syncedRows_cases (config : AutoTradeConfig) (executionSymbol : String)
    (historyId : Option ℕ) (rawOrderDiffers : Bool) (reply : FetchReply) (rows : List TrackedRow)
    (rowId : ℕ) {synced : SyncResult}
    (hsynced : (syncOpenPosition config executionSymbol historyId false rawOrderDiffers reply
      (rows.map TrackedRow.loaded)).result = .ok synced) :
    SyncCases rows synced (syncedRows rows rowId (syncOpenPosition config executionSymbol historyId
      false rawOrderDiffers reply (rows.map TrackedRow.loaded))) := by
  generalize hsync : syncOpenPosition config executionSymbol historyId false rawOrderDiffers reply
    (rows.map TrackedRow.loaded) = sync at hsynced ⊢
  have hloaded : (rows.map TrackedRow.loaded).map OpenRow.row =
      rows.map fun tracked => tracked.loaded.row := by
    rw [List.map_map]
    rfl
  simp only [syncOpenPosition, hloaded] at hsync
  cases reply with
  | error error =>
    subst hsync
    cases hsynced
  | ok exchangePosition =>
    cases hfilter :
        exchangePosition.filter fun position => positionEpsilon < position.contracts with
    | none =>
      have hflat := (filter_contracts_eq_none exchangePosition).mp hfilter
      simp only [hfilter, Bool.false_eq_true, false_and] at hsync
      subst hsync
      cases hsynced
      refine .flat hflat ?_ List.head?_map
      exact filterMap_zip_self rows
    | some live =>
      have hlive : isPositionClosedOnExchange exchangePosition = false := by
        rw [← Bool.not_eq_true, ← filter_contracts_eq_none, hfilter]
        intro h
        cases h
      simp only [hfilter] at hsync
      cases rows with
      | nil =>
        cases hprice : resolvedEntryPrice live with
        | none =>
          simp only [hprice] at hsync
          subst hsync
          cases hsynced
          exact .nothing rfl rfl
        | some entryPrice =>
          simp only [hprice] at hsync
          subst hsync
          cases hsynced
          have hopen : (adoptedRow config executionSymbol historyId live entryPrice).status =
            .open := rfl
          refine @SyncCases.live _ _ _ { id := rowId, loaded := ⟨_, hopen⟩ } hlive ?_ rfl (.inl rfl)
          rfl
      | cons newest rows =>
        simp only [List.map_cons] at hsync
        subst hsync
        cases hsynced
        have hopen : (syncedRow config executionSymbol live newest.loaded.row).status = .open :=
          newest.loaded.isOpen
        have hrewritten : ∃ tracked,
            newest.rewritten (syncedRow config executionSymbol live newest.loaded.row) =
              some tracked := ⟨_, dif_pos hopen⟩
        obtain ⟨tracked, htracked⟩ := hrewritten
        refine @SyncCases.live _ _ _ tracked hlive ?_ ?_ ?_
        · rw [syncedRows]
          simp only [List.zip_cons_cons, List.filterMap_cons, htracked, List.map_map]
          exact congrArg (tracked :: ·) (filterMap_zip_closeDuplicate rows historyId)
        · rw [TrackedRow.row_rewritten htracked]
        · rcases TrackedRow.mem_rewritten htracked with h | h
          · exact .inl h
          · exact .inr ⟨newest, List.mem_cons_self, h⟩

/-! ## Runs of a configuration -/

/-- A configuration, its signal state and the open rows of its account, the newest first. -/
structure StreakRun where
  config : AutoTradeConfig
  stored : Option SignalState := none
  rows : List TrackedRow := []

/-- What happens in a run. -/
inductive StreakEvent where
  /-- An attempt at a signal.  A row that it creates gets the id; a position that it enters is left
  open as the row, if at all. -/
  | process (item : QueueItem) (now : ℕ) (answers : SignalAnswers) (rowId : ℕ)
      (entered : Option OpenRow)
  | configure (config : AutoTradeConfig)
  /-- others have closed, opened, adopted and rewritten rows, and these are open now -/
  | elsewhere (rows : List (ℕ × OpenRow))

/-- A signal that meets an open position. -/
structure Meeting where
  signal : TradeSignal
  snapshot : Option ExchangePosition
  tracked : TrackedRow
  others : List TrackedRow

namespace StreakRun

/-- A run begins with any open rows, and without a signal state. -/
def start (config : AutoTradeConfig) (rows : List (ℕ × OpenRow)) : StreakRun where
  config := config
  rows := rowsElsewhere [] rows

def state (s : StreakRun) : SignalState := s.stored.getD {}

/-- The answers, with the open rows of the run. -/
def withRows (s : StreakRun) (answers : SignalAnswers) : SignalAnswers :=
  { answers with openRows := s.rows.map TrackedRow.loaded }

/-- The open position that the signal of an attempt meets. -/
def meeting (s : StreakRun) (item : QueueItem) (answers : SignalAnswers) (rowId : ℕ) :
    Option Meeting :=
  match tradedSignal s.config s.state item answers with
  | none => none
  | some (signal, executionSymbol) =>
      let sync := (s.withRows answers).sync s.config item executionSymbol
      match sync.result, syncedRows s.rows rowId sync with
      | .ok synced, tracked :: others =>
          some { signal, snapshot := synced.exchangePosition, tracked, others }
      | _, _ => none

/-- What the attempt does to the position that it meets. -/
def attemptAt (s : StreakRun) (item : QueueItem) (answers : SignalAnswers) (m : Meeting) :
    Attempt :=
  processWithOpenPosition answers.venue s.config s.state m.signal item.historyId
    m.tracked.loaded.row m.snapshot answers.close

/-- The open rows behind an attempt that meets no position: they are as they were, or there are none
but the one that is entered. -/
def enteredRows (s : StreakRun) (item : QueueItem) (answers : SignalAnswers) (rowId : ℕ)
    (entered : Option OpenRow) : List TrackedRow :=
  match tradedSignal s.config s.state item answers with
  | none => s.rows
  | some (signal, executionSymbol) =>
      match ((s.withRows answers).sync s.config item executionSymbol).result with
      | .error _ => s.rows
      | .ok _ =>
          if (processWithoutOpenPosition s.config s.state signal answers.entry).flushed then
            (entered.map fun loaded => { id := rowId, loaded }).toList
          else []

def rowsBehind (s : StreakRun) (item : QueueItem) (answers : SignalAnswers) (rowId : ℕ)
    (entered : Option OpenRow) : List TrackedRow :=
  match s.meeting item answers rowId with
  | none => s.enteredRows item answers rowId entered
  | some m =>
      let processed : ProcessedSignal := ⟨item.historyId, m.signal.trend⟩
      ((m.tracked.record processed).rewritten (s.attemptAt item answers m).row).toList ++
        m.others.map fun other => other.record processed

def next (s : StreakRun) : StreakEvent → StreakRun
  | .process item now answers rowId entered =>
      { s with
        stored :=
          (processQueueItem (some s.config) s.stored item now (s.withRows answers)).state
        rows := s.rowsBehind item answers rowId entered }
  | .configure config => { s with config }
  | .elsewhere rows => { s with rows := rowsElsewhere s.rows rows }

/-- The events of a run follow each other in any order. -/
def step (s : StreakRun) (e : StreakEvent) : Option StreakRun := some (s.next e)

/-! ## Closes by the count -/

/-- The attempt closes the position that it meets because enough signals were counted. -/
def ClosesConfirmed (attempt : Attempt) : Prop :=
  attempt.row.status = .closed ∧ attempt.row.closeReason = some "opposite_confirmed"

instance (attempt : Attempt) : Decidable (ClosesConfirmed attempt) :=
  inferInstanceAs (Decidable (_ ∧ _))

/-- A position is closed as confirmed only if as many different histories as are asked for were
processed last while it was open, this one included, and all were against its side. -/
def ConfirmedInFull (s : StreakRun) : StreakEvent → Prop
  | .process item _ answers rowId _ =>
      match s.meeting item answers rowId with
      | none => True
      | some m =>
          ClosesConfirmed (s.attemptAt item answers m) →
            s.config.confirmReportsRequired ≤ (confirmingHistories m.tracked.loaded.row.side
              (⟨item.historyId, m.signal.trend⟩ :: m.tracked.processed)).card
  | _ => True

instance (s : StreakRun) : ∀ e, Decidable (ConfirmedInFull s e)
  | .process item _ answers rowId _ =>
      match hmeeting : s.meeting item answers rowId with
      | none => .isTrue (by rw [ConfirmedInFull, hmeeting]; trivial)
      | some m =>
          decidable_of_iff
            (ClosesConfirmed (s.attemptAt item answers m) →
              s.config.confirmReportsRequired ≤ (confirmingHistories m.tracked.loaded.row.side
                (⟨item.historyId, m.signal.trend⟩ :: m.tracked.processed)).card)
            (by rw [ConfirmedInFull, hmeeting])
  | .configure _ => .isTrue trivial
  | .elsewhere _ => .isTrue trivial

instance (answers : TradingAnswers) : Decidable answers.Closes :=
  decidable_of_iff
    (answers.close.raises = false ∧
      (confirmPositionClosed answers.confirm).toOption.map Prod.fst = some true) <| by
    rw [TradingAnswers.Closes]
    refine and_congr_right fun _ => ?_
    rcases confirmPositionClosed answers.confirm with error | ⟨closed, residual⟩
    · simp [Except.toOption]
    · simp [Except.toOption]

/-- A count from before is carried over: the first signal that a position meets is against it, and
the position stays open or is closed by the count. -/
structure CarriesOver (config : AutoTradeConfig) (state : SignalState) (m : Meeting)
    (answers : TradingAnswers) : Prop where
  first : m.tracked.processed = []
  count : state.oppositeStreak ≠ 0
  counts : CountsAgainst m.signal m.tracked.loaded.row m.snapshot
  stays : config.fastCloseConfidencePct ≤ m.signal.confidencePct → ¬ answers.Closes

instance (config : AutoTradeConfig) (state : SignalState) (m : Meeting)
    (answers : TradingAnswers) : Decidable (CarriesOver config state m answers) :=
  decidable_of_iff
    (m.tracked.processed = [] ∧ state.oppositeStreak ≠ 0 ∧
      CountsAgainst m.signal m.tracked.loaded.row m.snapshot ∧
        (config.fastCloseConfidencePct ≤ m.signal.confidencePct → ¬ answers.Closes))
    ⟨fun ⟨first, count, counts, stays⟩ => ⟨first, count, counts, stays⟩,
      fun ⟨first, count, counts, stays⟩ => ⟨first, count, counts, stays⟩⟩

/-- The condition: no count is carried over to a position, and the number of reports is not raised
once the count has reached it. -/
def CountKept (s : StreakRun) : StreakEvent → Prop
  | .process item _ answers rowId _ =>
      ∀ m, s.meeting item answers rowId = some m →
        ¬ CarriesOver s.config s.state m answers.close
  | .configure config =>
      config.confirmReportsRequired ≤ s.config.confirmReportsRequired ∨
        s.state.oppositeStreak < s.config.confirmReportsRequired
  | .elsewhere _ => True

instance (s : StreakRun) : ∀ e, Decidable (CountKept s e)
  | .process item _ answers rowId _ =>
      match hmeeting : s.meeting item answers rowId with
      | none => .isTrue (by rw [CountKept, hmeeting]; exact fun m hm => nomatch hm)
      | some m =>
          decidable_of_iff (¬ CarriesOver s.config s.state m answers.close)
            (by rw [CountKept, hmeeting]; simp)
  | .configure _ => inferInstanceAs (Decidable (_ ∨ _))
  | .elsewhere _ => .isTrue trivial

/-! ## What an attempt leaves behind -/

section

variable {s : StreakRun} {item : QueueItem} {answers : SignalAnswers} {rowId : ℕ}

theorem exists_of_meeting {m : Meeting} (h : s.meeting item answers rowId = some m) :
    ∃ executionSymbol synced,
      tradedSignal s.config s.state item answers = some (m.signal, executionSymbol) ∧
      ((s.withRows answers).sync s.config item executionSymbol).result = .ok synced ∧
      synced.exchangePosition = m.snapshot ∧
      syncedRows s.rows rowId ((s.withRows answers).sync s.config item executionSymbol) =
        m.tracked :: m.others := by
  rw [meeting] at h
  cases htraded : tradedSignal s.config s.state item answers with
  | none =>
    rw [htraded] at h
    cases h
  | some traded =>
    obtain ⟨signal, executionSymbol⟩ := traded
    simp only [htraded] at h
    cases hresult : ((s.withRows answers).sync s.config item executionSymbol).result with
    | error error =>
      rw [hresult] at h
      cases h
    | ok synced =>
      cases hrows :
          syncedRows s.rows rowId ((s.withRows answers).sync s.config item executionSymbol) with
      | nil =>
        rw [hresult, hrows] at h
        cases h
      | cons tracked others =>
        rw [hresult, hrows] at h
        cases h
        exact ⟨executionSymbol, synced, rfl, hresult, rfl, hrows⟩

theorem syncCases_of_meeting {m : Meeting} {executionSymbol : String} {synced : SyncResult}
    (hresult : ((s.withRows answers).sync s.config item executionSymbol).result = .ok synced)
    (hrows : syncedRows s.rows rowId ((s.withRows answers).sync s.config item executionSymbol) =
      m.tracked :: m.others) : SyncCases s.rows synced (m.tracked :: m.others) := by
  have hcases := syncedRows_cases s.config executionSymbol (some item.historyId)
    answers.rawOrderDiffers answers.fetch s.rows rowId hresult
  change SyncCases s.rows synced
    (syncedRows s.rows rowId ((s.withRows answers).sync s.config item executionSymbol)) at hcases
  rw [hrows] at hcases
  exact hcases

theorem traded_spec {signal : TradeSignal} {executionSymbol : String}
    (h : tradedSignal s.config s.state item answers = some (signal, executionSymbol)) (now : ℕ) :
    s.state.lastProcessedHistoryId < item.historyId ∧
      (processQueueItem (some s.config) s.stored item now (s.withRows answers)).state =
        (tradeSignal s.config s.state item now signal executionSymbol
          (s.withRows answers)).state := by
  have hspec := processQueueItem_traded s.config s.stored item now (s.withRows answers)
  rw [show tradedSignal s.config (s.stored.getD {}) item (s.withRows answers) =
    some (signal, executionSymbol) from h] at hspec
  exact hspec

theorem stored_of_meeting {m : Meeting} (h : s.meeting item answers rowId = some m) (now : ℕ) :
    s.state.lastProcessedHistoryId < item.historyId ∧
      (processQueueItem (some s.config) s.stored item now (s.withRows answers)).state =
        some
          (match (s.attemptAt item answers m).error with
          | some _ => (s.attemptAt item answers m).state
          | none =>
              (s.attemptAt item answers m).state.passOver item.historyId m.signal.generatedAt
                (some m.signal.confidencePct)) := by
  obtain ⟨executionSymbol, synced, htraded, hresult, hsnapshot, hrows⟩ := exists_of_meeting h
  obtain ⟨hlast, hstate⟩ := traded_spec htraded now
  refine ⟨hlast, ?_⟩
  have hposition : synced.position = some m.tracked.loaded.row := by
    cases syncCases_of_meeting hresult hrows with
    | flat _ hbehind hposition =>
      rw [hposition, ← hbehind]
      rfl
    | nothing hbehind _ => exact absurd hbehind (List.cons_ne_nil _ _)
    | live _ hbehind hposition _ =>
      rw [(List.cons.inj hbehind).1]
      exact hposition
  have hbranch : tradingBranch s.config s.state m.signal item.historyId synced
      (s.withRows answers) =
        { state := (s.attemptAt item answers m).state
          error := (s.attemptAt item answers m).error } := by
    rw [tradingBranch, hposition, hsnapshot]
    rfl
  rw [hstate, tradeSignal]
  rw [SignalAnswers.sync] at hresult
  simp only [hresult]
  rw [hbranch]
  cases (s.attemptAt item answers m).error <;> rfl

theorem enteredRows_cases (s : StreakRun) (item : QueueItem) (answers : SignalAnswers)
    (rowId now : ℕ) (entered : Option OpenRow) :
    let state :=
      (processQueueItem (some s.config) s.stored item now (s.withRows answers)).state.getD {}
    (s.enteredRows item answers rowId entered = s.rows ∧
      state.oppositeStreak = s.state.oppositeStreak ∧
      s.state.lastProcessedHistoryId ≤ state.lastProcessedHistoryId) ∨
    ∀ tracked ∈ s.enteredRows item answers rowId entered, tracked.processed = [] := by
  intro state
  rw [enteredRows]
  cases htraded : tradedSignal s.config s.state item answers with
  | none =>
    have hspec := processQueueItem_traded s.config s.stored item now (s.withRows answers)
    rw [show tradedSignal s.config (s.stored.getD {}) item (s.withRows answers) = none from
      htraded] at hspec
    exact .inl ⟨rfl, hspec⟩
  | some traded =>
    obtain ⟨signal, executionSymbol⟩ := traded
    cases hresult : ((s.withRows answers).sync s.config item executionSymbol).result with
    | error error =>
      left
      have hstate : state = s.state := by
        obtain ⟨-, hstate⟩ := traded_spec htraded now
        rw [SignalAnswers.sync] at hresult
        simp only [state, hstate, tradeSignal, hresult]
        rfl
      simp only [hresult, hstate]
      exact ⟨trivial, trivial, le_rfl⟩
    | ok synced =>
      right
      simp only [hresult]
      intro tracked hmem
      split at hmem
      · cases entered with
        | none => cases hmem
        | some loaded =>
          obtain rfl := List.mem_singleton.mp hmem
          rfl
      · cases hmem

end

/-! ## The count along a run -/

/-- **The invariant**: for every open row, the count is backed by the signals of the row, or no
signal was processed since the row was opened or got its side. -/
def AllBacked (s : StreakRun) : Prop :=
  ∀ tracked ∈ s.rows,
    tracked.processed = [] ∨ tracked.Backs s.config.confirmReportsRequired s.state

theorem allBacked_start (config : AutoTradeConfig) (rows : List (ℕ × OpenRow)) :
    AllBacked (start config rows) := by
  intro tracked hmem
  obtain ⟨_, -, rfl⟩ := List.mem_map.mp hmem
  exact .inl rfl

theorem allBacked_elsewhere {s : StreakRun} (h : AllBacked s) (rows : List (ℕ × OpenRow)) :
    AllBacked (s.next (.elsewhere rows)) := by
  intro tracked hmem
  obtain ⟨⟨rowId, loaded⟩, -, rfl⟩ := List.mem_map.mp hmem
  dsimp only
  cases hfind : s.rows.find? fun tracked => tracked.id = rowId with
  | none => exact .inl rfl
  | some before =>
    simp only
    by_cases hside : loaded.row.side = before.loaded.row.side
    · rw [if_pos hside]
      refine (h before (List.mem_of_find?_eq_some hfind)).imp id fun hbacked => ?_
      rw [TrackedRow.Backs] at hbacked ⊢
      simp only [hside]
      exact hbacked
    · rw [if_neg hside]
      exact .inl rfl

theorem allBacked_configure {s : StreakRun} (h : AllBacked s) {config : AutoTradeConfig}
    (hkept : CountKept s (.configure config)) : AllBacked (s.next (.configure config)) := by
  intro tracked hmem
  refine (h tracked hmem).imp id fun hbacked => ?_
  rcases hbacked with hbacked | ⟨hcard, hstreak⟩
  · exact .inl hbacked
  · rcases hkept with hle | hlt
    · exact .inr ⟨hle.trans hcard, hle.trans hstreak⟩
    · exact absurd hstreak (not_le.mpr hlt)

section

variable {s : StreakRun} {item : QueueItem} {answers : SignalAnswers} {rowId : ℕ} {m : Meeting}

theorem backs_of_meeting (h : AllBacked s) (hmeeting : s.meeting item answers rowId = some m)
    (hcarries : ¬ CarriesOver s.config s.state m answers.close)
    (hcounts : CountsAgainst m.signal m.tracked.loaded.row m.snapshot)
    (hstays : s.config.fastCloseConfidencePct ≤ m.signal.confidencePct → ¬ answers.close.Closes) :
    m.tracked.Backs s.config.confirmReportsRequired s.state ∧ m.others = [] := by
  obtain ⟨executionSymbol, synced, -, hresult, hsnapshot, hrows⟩ := exists_of_meeting hmeeting
  have hcases := syncCases_of_meeting hresult hrows
  have hfirst : m.tracked.processed = [] →
      m.tracked.Backs s.config.confirmReportsRequired s.state := by
    intro hfirst
    refine backed_of_nonpos (le_of_eq ?_)
    by_contra hcount
    exact hcarries ⟨hfirst, hcount, hcounts, hstays⟩
  cases hcases with
  | flat hflat _ _ =>
    rw [hsnapshot, hcounts.live] at hflat
    cases hflat
  | nothing hbehind _ => exact absurd hbehind (List.cons_ne_nil _ _)
  | live _ hbehind _ hprocessed =>
    obtain ⟨rfl, hothers⟩ := List.cons.inj hbehind
    refine ⟨?_, hothers⟩
    rcases hprocessed with hnone | ⟨newest, hmem, hsame, hside⟩
    · exact hfirst hnone
    · rcases h newest hmem with hnone | hbacked
      · exact hfirst (hsame.trans hnone)
      · rw [TrackedRow.Backs, hsame, hside]
        exact hbacked

theorem count_attemptAt (s : StreakRun) (item : QueueItem) (answers : SignalAnswers)
    (m : Meeting) :
    CountCases s.config.confirmReportsRequired s.state m.signal m.tracked.loaded.row m.snapshot
      (s.config.fastCloseConfidencePct ≤ m.signal.confidencePct) answers.close.Closes
      (s.attemptAt item answers m) :=
  processWithOpenPosition_count answers.venue s.config s.state m.signal item.historyId
    m.tracked.loaded.isOpen m.snapshot answers.close

/-- **A close by the count** has the signals behind it. -/
theorem confirmedInFull_of_allBacked (h : AllBacked s) (now : ℕ) (entered : Option OpenRow)
    (hkept : CountKept s (.process item now answers rowId entered)) :
    ConfirmedInFull s (.process item now answers rowId entered) := by
  rw [ConfirmedInFull]
  cases hmeeting : s.meeting item answers rowId with
  | none => trivial
  | some m =>
    rintro ⟨hclosed, hreason⟩
    have hlast := (stored_of_meeting hmeeting now).1
    have hopen : ∀ {row : PositionRow}, row = m.tracked.loaded.row → row.status ≠ .closed := by
      rintro row rfl hrow
      rw [m.tracked.loaded.isOpen] at hrow
      cases hrow
    cases count_attemptAt s item answers m with
    | reset _ _ _ hother => exact absurd hreason (hother hclosed)
    | waits _ _ _ _ _ hrow => exact absurd hclosed (hopen hrow)
    | stranded _ _ _ _ _ hrow => exact absurd hclosed (hopen hrow)
    | failed _ _ _ _ _ hrow => exact absurd hclosed (hopen hrow)
    | confirmed _ hcounts hslow hrequired _ _ =>
      have hbacks := (backs_of_meeting h hmeeting (hkept m hmeeting) hcounts
        fun hfast => absurd hfast hslow).1
      exact Backed.required_le hbacks hcounts.opposes hlast hrequired

theorem rowsBehind_of_held (hmeeting : s.meeting item answers rowId = some m)
    (hothers : m.others = []) (hrow : (s.attemptAt item answers m).row = m.tracked.loaded.row)
    (entered : Option OpenRow) :
    s.rowsBehind item answers rowId entered =
      [m.tracked.record ⟨item.historyId, m.signal.trend⟩] := by
  rw [rowsBehind, hmeeting]
  simp only [hrow, hothers]
  have hself := (m.tracked.record ⟨item.historyId, m.signal.trend⟩).rewritten_self
  change TrackedRow.rewritten _ m.tracked.loaded.row = _ at hself
  rw [hself]
  rfl

/-- **A step of an attempt** keeps the count backed. -/
theorem allBacked_process (h : AllBacked s) (now : ℕ) (entered : Option OpenRow)
    (hkept : CountKept s (.process item now answers rowId entered)) :
    AllBacked (s.next (.process item now answers rowId entered)) := by
  cases hmeeting : s.meeting item answers rowId with
  | none =>
    have hrows : s.rowsBehind item answers rowId entered =
        s.enteredRows item answers rowId entered := by
      rw [rowsBehind, hmeeting]
    intro tracked hmem
    change tracked ∈ s.rowsBehind item answers rowId entered at hmem
    rw [hrows] at hmem
    rcases enteredRows_cases s item answers rowId now entered with ⟨hsame, hstreak, hlast⟩ | hfresh
    · rw [hsame] at hmem
      exact (h tracked hmem).imp id fun hbacked => hbacked.of_le hstreak hlast
    · exact .inl (hfresh tracked hmem)
  | some m =>
    obtain ⟨hlast, hstored⟩ := stored_of_meeting hmeeting now
    have hstate : (s.next (.process item now answers rowId entered)).state =
        match (s.attemptAt item answers m).error with
        | some _ => (s.attemptAt item answers m).state
        | none =>
            (s.attemptAt item answers m).state.passOver item.historyId m.signal.generatedAt
              (some m.signal.confidencePct) := by
      change (processQueueItem (some s.config) s.stored item now
        (s.withRows answers)).state.getD {} = _
      rw [hstored, Option.getD_some]
    have hbacks := backs_of_meeting h hmeeting (hkept m hmeeting)
    cases count_attemptAt s item answers m with
    | reset herror hstreak _ _ =>
      refine fun tracked _ => .inr (backed_of_nonpos (le_of_eq ?_))
      rw [hstate, herror]
      exact hstreak
    | confirmed herror _ _ _ hstreak _ =>
      refine fun tracked _ => .inr (backed_of_nonpos (le_of_eq ?_))
      rw [hstate, herror]
      exact hstreak
    | waits herror hcounts hslow hstreak hdone hrow =>
      obtain ⟨hbacked, hothers⟩ := hbacks hcounts fun hfast => absurd hfast hslow
      intro tracked hmem
      change tracked ∈ s.rowsBehind item answers rowId entered at hmem
      rw [rowsBehind_of_held hmeeting hothers hrow] at hmem
      obtain rfl := List.mem_singleton.mp hmem
      refine .inr (Backed.counted hbacked hcounts.opposes hlast ?_ ?_)
      · rw [hstate, herror]
        exact hstreak
      · rw [hstate, herror]
        exact congrArg (max · item.historyId) hdone
    | stranded herror hcounts hslow hrequired hcounted hrow =>
      obtain ⟨hbacked, hothers⟩ := hbacks hcounts fun hfast => absurd hfast hslow
      intro tracked hmem
      change tracked ∈ s.rowsBehind item answers rowId entered at hmem
      rw [rowsBehind_of_held hmeeting hothers hrow] at hmem
      obtain rfl := List.mem_singleton.mp hmem
      refine .inr (.inr ⟨Backed.required_le hbacked hcounts.opposes hlast hrequired, ?_⟩)
      rw [hstate, herror]
      simp only [hcounted]
      exact hrequired
    | failed herror hcounts hfast hfails hsame hrow =>
      obtain ⟨hbacked, hothers⟩ := hbacks hcounts fun _ => hfails
      intro tracked hmem
      change tracked ∈ s.rowsBehind item answers rowId entered at hmem
      rw [rowsBehind_of_held hmeeting hothers hrow] at hmem
      obtain rfl := List.mem_singleton.mp hmem
      right
      rw [hstate, herror]
      simp only [hsame]
      exact Backed.cons hbacked hcounts.opposes

end

/-- **What a step preserves.** -/
theorem allBacked_next {s : StreakRun} (h : AllBacked s) {e : StreakEvent} (hkept : CountKept s e) :
    AllBacked (s.next e) := by
  cases e with
  | process item now answers rowId entered => exact allBacked_process h now entered hkept
  | configure config => exact allBacked_configure h hkept
  | elsewhere rows => exact allBacked_elsewhere h rows

/-- **Confirmed closes.**  In every run in which no count is carried over to a position, and the
number of reports is not raised once the count has reached it, every close with the reason
`opposite_confirmed` has as many different histories behind it as are asked for: all were processed
while the position was open on its side, all were against it, and no other signal was processed
between them. -/
theorem confirmed_along (config : AutoTradeConfig) (rows : List (ℕ × OpenRow))
    (events : List StreakEvent) (hkept : AlongRun step CountKept (start config rows) events) :
    AlongRun step ConfirmedInFull (start config rows) events := by
  refine AlongRun.of_invariant step (I := AllBacked) ?_ ?_ (allBacked_start config rows) hkept
  · rintro s e s' hbacked hhere hstep
    obtain rfl := Option.some.inj hstep
    exact allBacked_next hbacked hhere
  · intro s e hbacked hhere
    cases e with
    | process item now answers rowId entered =>
      exact confirmedInFull_of_allBacked hbacked now entered hhere
    | configure config => trivial
    | elsewhere rows => trivial

/-! ## Two runs -/

/-- A configuration that asks for two reports. -/
def twoReports : AutoTradeConfig where
  id := 1
  userId := 1
  profileId := 1
  enabled := true
  isRunning := true
  confirmReportsRequired := 2

/-- A history of bitcoin that says short, while the exchange has a long position. -/
def reportShort (historyId : ℕ) : StreakEvent :=
  .process
    { userId := 1, configId := 1, profileId := 1, historyId, maxAttempts := 5, nextRetryAt := 0 } 0
    { history :=
        some
          { signal :=
              .ok
                { symbol := "BTC/USDT", trend := .short, confidencePct := 70,
                  priceCurrent := 60000 } }
      profileSymbol := some "BTC/USDT"
      fetch := .ok (some { symbol := "BTC/USDT:USDT", contracts := 1, entryPrice := some 60000 })
      close := { close := .accepted 1 {}, confirm := fun _ => .ok none } }
    2 none

/-- Two reports close the position that both have met. -/
theorem confirmed_along_twoReports :
    (run step (start twoReports [(1, bitcoinRow)]) [reportShort 7, reportShort 8]).map
        (fun s => s.rows.length) = some 0 ∧
      AlongRun step ConfirmedInFull (start twoReports [(1, bitcoinRow)])
        [reportShort 7, reportShort 8] :=
  ⟨by decide +kernel,
    confirmed_along twoReports [(1, bitcoinRow)] [reportShort 7, reportShort 8]
      (by decide +kernel)⟩

/-- **A position that is adopted behind another one.**  The first of two reports is counted against
a position that others close then; the exchange has a new one, which the second report adopts, and
closes as confirmed. -/
theorem adopted_closedTooSoon :
    ¬ ∀ (config : AutoTradeConfig) (rows : List (ℕ × OpenRow)) (events : List StreakEvent),
      AlongRun step ConfirmedInFull (start config rows) events := by
  intro h
  have halong := h twoReports [(1, bitcoinRow)] [reportShort 7, .elsewhere [], reportShort 8]
  revert halong
  decide +kernel

end StreakRun

end AdviserConstructor
