import AdviserConstructor.Backtest.LivePaper
import AdviserConstructor.Library.GrowingLog
import Mathlib.Data.Int.ConditionallyCompleteOrder

/-!
# The live paper feed

`app/services/live_paper.py`: the profile of a user, its trades and its events.  Upserts switch the
strategy, which begins a new revision; a play puts down when the statistics start; a poll records
what the strategy has closed and gives a page of the trades since that start, with the metrics of
the current revision.  Where a revision has no start, the feed has nothing and the metrics count
everything.

Trades and events get ascending ids from the database; which ids is left open, and so is what the
backtest of a strategy gives at a call.

* `sound_step`: unless a running strategy is switched, a revision has a start or no trades.
* `feedAgrees_of_sound`: in such a state the pages that a client collects are what is counted.
* `not_feedAgrees_of_switch`: behind a switch of a running strategy they are not, once it closes a
  trade.
* `feedAgrees_iff`: the feed agrees with the metrics in all states of a run exactly if no running
  strategy is switched in it.
-/

namespace AdviserConstructor

namespace Backtest

namespace PaperFeed

open LivePaper (LivePaperTrade catchUpLoop insertTrade recordOf)

/-! ## Rows -/

/-- `LivePaperProfile`, of one user. -/
structure PaperProfile where
  strategyId : ℕ
  strategyRevision : ℕ
  isRunning : Bool
  totalBalanceUsdt : ℚ
  perTradeUsdt : ℚ
  lastProcessedAt : Option ℤ
  lastPollAt : Option ℤ
  deriving DecidableEq, Repr

/-- The event types, with what is read of their payloads. -/
inductive PaperEventType
  | strategySwitched (toTotalBalanceUsdt : ℚ)
  | paperStarted (totalBalanceUsdt : ℚ)
  | paperPollError
  deriving DecidableEq, Repr

/-- `LivePaperEvent`, of one profile. -/
structure PaperEvent where
  strategyRevision : ℕ
  eventType : PaperEventType
  eventTime : ℤ
  deriving DecidableEq, Repr

/-- The rows of a user, trades and events in the order in which they were added. -/
structure PaperRows where
  profile : Option PaperProfile := none
  trades : List LivePaperTrade := []
  events : List PaperEvent := []
  deriving DecidableEq, Repr

/-- The ids that a table gives to its rows. -/
structure IdSupply where
  idOf : ℕ → ℤ
  ascending : StrictMono idOf
  positive : ∀ n, 0 < idOf n

/-- The rows of a table with their ids. -/
def IdSupply.numbered {α : Type*} (ids : IdSupply) (rows : List α) : List (ℤ × α) :=
  rows.zipIdx.map fun row => (ids.idOf row.2, row.1)

/-- `LivePaperProfileUpsertRequest`. -/
structure UpsertRequest where
  strategyId : ℕ
  totalBalanceUsdt : ℚ
  perTradeUsdt : ℚ
  strategyId_pos : 0 < strategyId
  perTradeUsdt_pos : 0 < perTradeUsdt
  perTradeUsdt_le : perTradeUsdt ≤ totalBalanceUsdt

/-! ## Catching up -/

/-- What the backtest of a strategy gives: the trades that are gone through, and whether something
is raised, by the backtest or behind these trades. -/
structure CatchUp where
  trades : List TradeRow
  raised : Bool := false
  deriving DecidableEq, Repr

/-- `_catch_up_for_strategy`: the profile and the trades. -/
def catchUpForStrategy (profile : PaperProfile) (trades : List LivePaperTrade) (now : ℤ)
    (c : CatchUp) : PaperProfile × List LivePaperTrade :=
  let caught := catchUpLoop profile.strategyRevision profile.lastProcessedAt now c.trades
    (trades, profile.lastProcessedAt)
  (if c.raised then profile else { profile with lastProcessedAt := caught.2 }, caught.1)

/-! ## Upserts and plays -/

/-- `upsert_profile`; `caught` is `none` if the strategy that is switched from is not there any
more. -/
def upsertProfile (now : ℤ) (payload : UpsertRequest) (caught : Option CatchUp) (s : PaperRows) :
    Option PaperRows :=
  match s.profile with
  | none =>
      some { s with
        profile := some
          { strategyId := payload.strategyId
            strategyRevision := 1
            isRunning := false
            totalBalanceUsdt := payload.totalBalanceUsdt
            perTradeUsdt := payload.perTradeUsdt
            lastProcessedAt := none
            lastPollAt := none } }
  | some profile =>
      if profile.strategyId = payload.strategyId then
        some { s with
          profile := some
            { profile with
              totalBalanceUsdt := payload.totalBalanceUsdt
              perTradeUsdt := payload.perTradeUsdt } }
      else
        match caught with
        | none => none
        | some c =>
            if c.raised then none
            else
              let caughtUp := catchUpForStrategy profile s.trades now c
              some
                { profile := some
                    { caughtUp.1 with
                      strategyId := payload.strategyId
                      strategyRevision := profile.strategyRevision + 1
                      lastProcessedAt := if profile.isRunning then some now else none
                      totalBalanceUsdt := payload.totalBalanceUsdt
                      perTradeUsdt := payload.perTradeUsdt }
                  trades := caughtUp.2
                  events := s.events ++
                    [⟨profile.strategyRevision + 1, .strategySwitched payload.totalBalanceUsdt,
                      now⟩] }

/-- `set_running`. -/
def setRunning (now : ℤ) (isRunning : Bool) (s : PaperRows) : Option PaperRows :=
  s.profile.map fun profile =>
    if isRunning && !profile.isRunning then
      { s with
        profile := some { profile with isRunning := isRunning, lastProcessedAt := some now }
        events := s.events ++
          [⟨profile.strategyRevision, .paperStarted profile.totalBalanceUsdt, now⟩] }
    else { s with profile := some { profile with isRunning := isRunning } }

/-! ## The start of the statistics -/

/-- The balance of a `paper_started` event. -/
def PaperEvent.startedBalance (e : PaperEvent) : Option ℚ :=
  match e.eventType with
  | .paperStarted balance => some balance
  | _ => none

/-- The `paper_started` events of a revision. -/
def started (events : List PaperEvent) (revision : ℕ) : List PaperEvent :=
  events.filter fun e => e.strategyRevision = revision ∧ e.startedBalance.isSome

/-- The balance of a `strategy_switched` event of a revision. -/
def PaperEvent.switchedBalance (revision : ℕ) (e : PaperEvent) : Option ℚ :=
  match e.eventType with
  | .strategySwitched balance => if e.strategyRevision = revision then some balance else none
  | _ => none

/-- `_resolve_stats_start_time`. -/
def resolveStatsStartTime (events : List PaperEvent) (profile : PaperProfile) : Option ℤ :=
  ((started events profile.strategyRevision).map PaperEvent.eventTime).max?

/-- `_resolve_current_initial_balance`. -/
def resolveCurrentInitialBalance (events : List PaperEvent) (profile : PaperProfile) : ℚ :=
  match (started events profile.strategyRevision).getLast?.bind PaperEvent.startedBalance with
  | some balance => balance
  | none =>
      if profile.strategyRevision = 1 then profile.totalBalanceUsdt
      else
        ((events.filterMap (PaperEvent.switchedBalance profile.strategyRevision)).getLast?).getD
          profile.totalBalanceUsdt

/-! ## The metrics -/

/-- A point of the equity curve. -/
structure EquityPoint where
  step : ℕ
  time : Option ℤ
  equity : ℚ
  pnlUsdt : ℚ
  deriving DecidableEq, Repr

/-- The result of `_build_metrics`. -/
structure PaperMetrics where
  initialBalance : ℚ
  currentBalance : ℚ
  totalPnl : ℚ
  closedTrades : ℕ
  equityCurve : List EquityPoint
  deriving DecidableEq, Repr

/-- The loop over `rows`. -/
def equityPoints : ℕ → ℚ → List LivePaperTrade → List EquityPoint
  | _, _, [] => []
  | idx, equity, row :: rows =>
      ⟨idx, some row.exitTime, equity + row.pnlUsdt, row.pnlUsdt⟩ ::
        equityPoints (idx + 1) (equity + row.pnlUsdt) rows

section

variable (tradeIds eventIds : IdSupply)

/-- The trades under `base_filters`. -/
def countedTrades (s : PaperRows) (profile : PaperProfile) : List (ℤ × LivePaperTrade) :=
  (tradeIds.numbered s.trades).filter fun row =>
    row.2.strategyRevision = profile.strategyRevision ∧
      (resolveStatsStartTime s.events profile).all fun start => start < row.2.exitTime

/-- `_build_metrics`. -/
def buildMetrics (s : PaperRows) (profile : PaperProfile) : PaperMetrics :=
  let counted := countedTrades tradeIds s profile
  let initial := resolveCurrentInitialBalance s.events profile
  let totalPnl := (counted.map fun row => row.2.pnlUsdt).sum
  let rows := counted.mergeSort fun a b =>
    a.2.exitTime < b.2.exitTime || a.2.exitTime == b.2.exitTime && a.1 ≤ b.1
  { initialBalance := initial
    currentBalance := initial + totalPnl
    totalPnl := totalPnl
    closedTrades := counted.length
    equityCurve := ⟨0, none, initial, 0⟩ :: equityPoints 1 initial (rows.map Prod.snd) }

/-! ## Polls -/

/-- A poll: its moment and limit, the last event that the client has, and what catching up gives,
`none` if the strategy is not there any more. -/
structure PollRequest where
  now : ℤ
  lastEventId : Option ℤ
  limit : ℕ
  caught : Option CatchUp
  limit_pos : 0 < limit

/-- The result of a poll. -/
structure PollResult where
  profile : PaperProfile
  liveTradesSinceStart : List (ℤ × LivePaperTrade)
  events : List (ℤ × PaperEvent)
  metrics : PaperMetrics
  deriving DecidableEq, Repr

/-- The part of a poll up to the commit: a running strategy catches up. -/
def catchUpPoll (request : PollRequest) (profile : PaperProfile) (s : PaperRows) :
    Option (PaperProfile × PaperRows) :=
  if profile.isRunning then
    request.caught.map fun c =>
      let caughtUp := catchUpForStrategy profile s.trades request.now c
      let profile' := { caughtUp.1 with lastPollAt := some request.now }
      (profile',
        { profile := some profile'
          trades := caughtUp.2
          events :=
            if c.raised then
              s.events ++ [⟨profile.strategyRevision, .paperPollError, request.now⟩]
            else s.events })
  else some (profile, s)

/-- The trades behind `live_stmt`, without its limit. -/
def liveTrades (lastTradeId : Option ℤ) (s : PaperRows) (profile : PaperProfile) :
    List (ℤ × LivePaperTrade) :=
  (tradeIds.numbered s.trades).filter fun row =>
    (lastTradeId.all fun last => last < row.1) &&
      (resolveStatsStartTime s.events profile).any fun start => start < row.2.exitTime

/-- `poll_profile`. -/
def pollProfile (request : PollRequest) (lastTradeId : Option ℤ) (s : PaperRows) :
    Option (PaperRows × PollResult) :=
  s.profile.bind fun profile =>
    (catchUpPoll request profile s).map fun (profile, s) =>
      (s,
        { profile := profile
          liveTradesSinceStart := (liveTrades tradeIds lastTradeId s profile).take request.limit
          events := ((eventIds.numbered s.events).filter fun row =>
            request.lastEventId.all fun last => last < row.1).take request.limit
          metrics := buildMetrics tradeIds s profile })

/-! ## Runs -/

/-- A call. -/
inductive Call
  | upsert (now : ℤ) (payload : UpsertRequest) (caught : Option CatchUp)
  | setRunning (now : ℤ) (isRunning : Bool)
  | poll (request : PollRequest) (lastTradeId : Option ℤ)

/-- A call that does not raise; one that does leaves the rows as they are. -/
def step (s : PaperRows) : Call → Option PaperRows
  | .upsert now payload caught => upsertProfile now payload caught s
  | .setRunning now isRunning => setRunning now isRunning s
  | .poll request lastTradeId =>
      (pollProfile tradeIds eventIds request lastTradeId s).map Prod.fst

/-- A client polls, each time from the last trade that it has, until a page is empty. -/
inductive Paged : PaperRows → Option ℤ → List (ℤ × LivePaperTrade) → PaperRows → PollResult → Prop
  | done {s s' : PaperRows} {last : Option ℤ} {request : PollRequest} {result : PollResult} :
      pollProfile tradeIds eventIds request last s = some (s', result) →
        result.liveTradesSinceStart = [] → Paged s last [] s' result
  | page {s s' final : PaperRows} {last : Option ℤ} {request : PollRequest}
      {result result' : PollResult} {row : ℤ × LivePaperTrade} {rows : List (ℤ × LivePaperTrade)} :
      pollProfile tradeIds eventIds request last s = some (s', result) →
        result.liveTradesSinceStart.getLast? = some row → Paged s' (some row.1) rows final result' →
          Paged s last (result.liveTradesSinceStart ++ rows) final result'

/-- What was collected agrees with the metrics of the last poll. -/
structure Agrees (rows : List (ℤ × LivePaperTrade)) (final : PaperRows) (result : PollResult) :
    Prop where
  exact : rows.filter (fun row => row.2.strategyRevision = result.profile.strategyRevision) =
    countedTrades tradeIds final result.profile
  closedTrades : (rows.filter fun row =>
    row.2.strategyRevision = result.profile.strategyRevision).length = result.metrics.closedTrades
  totalPnl : ((rows.filter fun row =>
    row.2.strategyRevision = result.profile.strategyRevision).map fun row =>
      row.2.pnlUsdt).sum = result.metrics.totalPnl
  balance : ((rows.filter fun row =>
    row.2.strategyRevision = result.profile.strategyRevision).map fun row =>
      row.2.pnlUsdt).sum = result.metrics.currentBalance - result.metrics.initialBalance

/-- The live paper feed agrees with its metrics. -/
def FeedAgrees (s : PaperRows) : Prop :=
  ∀ rows final result, Paged tradeIds eventIds s (some 0) rows final result →
    Agrees tradeIds rows final result

/-- The call switches the strategy while it runs. -/
def SwitchesRunning (s : PaperRows) : Call → Prop
  | .upsert _ payload _ =>
      ∃ profile ∈ s.profile, profile.isRunning = true ∧ profile.strategyId ≠ payload.strategyId
  | _ => False

end

/-! ## What catching up does -/

section

variable {revision : ℕ} {now : ℤ} {rows : List LivePaperTrade}

theorem insertTrade_grows (rows : List LivePaperTrade) (row : LivePaperTrade) :
    rows <+: insertTrade rows row := by
  rw [insertTrade]
  split
  · exact List.prefix_refl _
  · exact List.prefix_append _ _

theorem mem_of_mem_insertTrade {row r : LivePaperTrade} (h : r ∈ insertTrade rows row) :
    r ∈ rows ∨ r = row := by
  rw [insertTrade] at h
  split at h
  · exact Or.inl h
  · rcases List.mem_append.mp h with hold | hnew
    · exact Or.inl hold
    · exact Or.inr (List.mem_singleton.mp hnew)

theorem exists_mem_insertTrade (rows : List LivePaperTrade) (row : LivePaperTrade) :
    ∃ r ∈ insertTrade rows row, r.strategyRevision = row.strategyRevision := by
  rw [insertTrade]
  split
  · rename_i hany
    obtain ⟨r, hr, hkey⟩ := List.any_eq_true.mp hany
    exact ⟨r, hr, congrArg Prod.fst (of_decide_eq_true hkey)⟩
  · exact ⟨row, List.mem_append_right _ (List.mem_singleton_self row), rfl⟩

/-- **Catching up** adds rows of its revision at the end. -/
theorem catchUpLoop_grows {last : Option ℤ} {ts : List TradeRow} {seen : Option ℤ} :
    rows <+: (catchUpLoop revision last now ts (rows, seen)).1 ∧
      ∀ r ∈ (catchUpLoop revision last now ts (rows, seen)).1,
        r ∈ rows ∨ r.strategyRevision = revision := by
  induction ts generalizing rows seen with
  | nil => exact ⟨List.prefix_refl _, fun r hr => Or.inl hr⟩
  | cons t ts ih =>
    unfold catchUpLoop
    split
    · exact ih
    · split
      · exact ih
      · split
        · exact ih
        · obtain ⟨hgrows, hmem⟩ := @ih (insertTrade rows (recordOf revision t)) _
          refine ⟨(insertTrade_grows _ _).trans hgrows, fun r hr => ?_⟩
          rcases hmem r hr with hinsert | hrevision
          · rcases mem_of_mem_insertTrade hinsert with hold | rfl
            · exact Or.inl hold
            · exact Or.inr rfl
          · exact Or.inr hrevision

variable {profile : PaperProfile} {c : CatchUp}

theorem catchUpForStrategy_grows :
    rows <+: (catchUpForStrategy profile rows now c).2 ∧
      ∀ r ∈ (catchUpForStrategy profile rows now c).2,
        r ∈ rows ∨ r.strategyRevision = profile.strategyRevision :=
  catchUpLoop_grows

theorem catchUpForStrategy_profile :
    ∃ last, (catchUpForStrategy profile rows now c).1 =
      { profile with lastProcessedAt := last } := by
  unfold catchUpForStrategy
  split
  · exact ⟨profile.lastProcessedAt, rfl⟩
  · exact ⟨_, rfl⟩

end

/-! ## What a poll does -/

section

variable {tradeIds eventIds : IdSupply} {s s' : PaperRows} {profile profile' : PaperProfile}
  {request : PollRequest} {last : Option ℤ} {result : PollResult}

theorem started_append {events : List PaperEvent} {revision : ℕ} {e : PaperEvent}
    (h : e.startedBalance = none) :
    started (events ++ [e]) revision = started events revision := by
  rw [started, List.filter_append, List.filter_cons_of_neg, List.filter_nil, List.append_nil]
  · rfl
  · rw [decide_eq_true_eq, h]
    exact fun hstarted => Bool.false_ne_true hstarted.2

/-- What a poll leaves as it is, and what it adds. -/
structure Polled (s : PaperRows) (profile : PaperProfile) (s' : PaperRows)
    (profile' : PaperProfile) : Prop where
  left : s'.profile = some profile'
  revision : profile'.strategyRevision = profile.strategyRevision
  isRunning : profile'.isRunning = profile.isRunning
  trades : s.trades <+: s'.trades
  newTrades : ∀ r ∈ s'.trades, r ∈ s.trades ∨ r.strategyRevision = profile.strategyRevision
  started : ∀ revision, started s'.events revision = started s.events revision
  newEvents : ∀ e ∈ s'.events, e ∈ s.events ∨ e.strategyRevision = profile.strategyRevision
  stopped : profile.isRunning = false → s' = s

theorem polled_of_catchUpPoll (hs : s.profile = some profile)
    (h : catchUpPoll request profile s = some (profile', s')) : Polled s profile s' profile' := by
  rw [catchUpPoll] at h
  split at h
  · rename_i hrunning
    obtain ⟨c, -, hc⟩ := Option.map_eq_some_iff.mp h
    obtain ⟨rfl, rfl⟩ := Prod.mk.inj hc
    obtain ⟨mark, hprofile⟩ :=
      @catchUpForStrategy_profile request.now s.trades profile c
    obtain ⟨hgrows, hnew⟩ := @catchUpForStrategy_grows request.now s.trades profile c
    refine ⟨rfl, ?_, ?_, hgrows, hnew, fun revision => ?_, fun e he => ?_, fun hstopped => ?_⟩
    · rw [hprofile]
    · rw [hprofile]
    · show PaperFeed.started (if c.raised = true then _ else s.events) revision = _
      split
      · exact started_append rfl
      · rfl
    · split at he
      · rcases List.mem_append.mp he with hold | hnew
        · exact Or.inl hold
        · rw [List.mem_singleton.mp hnew]
          exact Or.inr rfl
      · exact Or.inl he
    · exact absurd (hrunning.symm.trans hstopped) (by decide)
  · obtain ⟨rfl, rfl⟩ := Prod.mk.inj (Option.some.inj h)
    exact ⟨hs, rfl, rfl, List.prefix_refl _, fun r hr => Or.inl hr, fun _ => rfl,
      fun e he => Or.inl he, fun _ => rfl⟩

/-- **A poll** gives a page of the rows that it leaves, and their metrics. -/
theorem pollProfile_eq_some (h : pollProfile tradeIds eventIds request last s = some (s', result)) :
    ∃ profile, s.profile = some profile ∧ Polled s profile s' result.profile ∧
      result.liveTradesSinceStart =
        (liveTrades tradeIds last s' result.profile).take request.limit ∧
      result.metrics = buildMetrics tradeIds s' result.profile := by
  obtain ⟨profile, hs, h⟩ := Option.bind_eq_some_iff.mp h
  obtain ⟨⟨profile', s''⟩, hcatch, h⟩ := Option.map_eq_some_iff.mp h
  obtain ⟨rfl, rfl⟩ := Prod.mk.inj h
  exact ⟨profile, hs, polled_of_catchUpPoll hs hcatch, rfl, rfl⟩

theorem Polled.statsStart (h : Polled s profile s' profile') :
    resolveStatsStartTime s'.events profile' = resolveStatsStartTime s.events profile := by
  rw [resolveStatsStartTime, resolveStatsStartTime, h.revision, h.started]

end

/-! ## Ids -/

section

variable {ids : IdSupply} {α : Type*}

theorem numbered_append (front back : List α) :
    ids.numbered front <+: ids.numbered (front ++ back) := by
  rw [IdSupply.numbered, IdSupply.numbered, List.zipIdx_append, List.map_append]
  exact List.prefix_append _ _

theorem numbered_ascending (rows : List α) :
    (ids.numbered rows).Pairwise fun a b => a.1 < b.1 := by
  have hindex : (rows.zipIdx.map Prod.snd).Pairwise (· < ·) := by
    rw [List.zipIdx_map_snd]
    exact List.pairwise_lt_range'
  refine List.pairwise_map.mpr ((List.pairwise_map.mp hindex).imp fun hlt => ?_)
  exact ids.ascending hlt

theorem mem_of_mem_numbered {rows : List α} {row : ℤ × α} (h : row ∈ ids.numbered rows) :
    0 < row.1 ∧ row.2 ∈ rows := by
  obtain ⟨⟨a, n⟩, ha, rfl⟩ := List.mem_map.mp h
  exact ⟨ids.positive n, List.fst_mem_of_mem_zipIdx ha⟩

theorem exists_mem_numbered {rows : List α} {a : α} (h : a ∈ rows) :
    ∃ row ∈ ids.numbered rows, row.2 = a := by
  obtain ⟨n, hn⟩ := List.mem_iff_getElem?.mp h
  exact ⟨_, List.mem_map.mpr ⟨(a, n), List.mk_mem_zipIdx_iff_getElem?.mpr hn, rfl⟩, rfl⟩

end

/-! ## What a client collects -/

section

variable {tradeIds eventIds : IdSupply} {s final : PaperRows} {profile : PaperProfile}
  {last : Option ℤ} {rows : List (ℤ × LivePaperTrade)} {result : PollResult}

/-- The feed: the trades since the start. -/
def feed (tradeIds : IdSupply) (s : PaperRows) (start : ℤ) : List (ℤ × LivePaperTrade) :=
  (tradeIds.numbered s.trades).filter fun row => start < row.2.exitTime

theorem liveTrades_some {start cursor : ℤ}
    (hstart : resolveStatsStartTime s.events profile = some start) :
    liveTrades tradeIds (some cursor) s profile =
      GrowingLog.newer Prod.fst cursor (feed tradeIds s start) := by
  rw [liveTrades, hstart, GrowingLog.newer, feed, List.filter_filter]
  rfl

theorem liveTrades_none (hstart : resolveStatsStartTime s.events profile = none) :
    liveTrades tradeIds last s profile = [] := by
  rw [liveTrades, hstart]
  refine List.filter_eq_nil_iff.mpr fun row _ => ?_
  rw [Option.any_none, Bool.and_false]
  exact Bool.false_ne_true

theorem Polled.feed {s s' : PaperRows} {profile profile' : PaperProfile}
    (h : Polled s profile s' profile') (start : ℤ) :
    feed tradeIds s start <+: feed tradeIds s' start := by
  obtain ⟨new, hnew⟩ := h.trades
  rw [PaperFeed.feed, PaperFeed.feed, ← hnew]
  exact (numbered_append s.trades new).filter _

theorem reads_of_paged {start : ℤ} (h : Paged tradeIds eventIds s last rows final result)
    (hs : s.profile = some profile)
    (hstart : resolveStatsStartTime s.events profile = some start) {cursor : ℤ}
    (hlast : last = some cursor) :
    (∃ log, feed tradeIds s start <+: log ∧
        GrowingLog.Reads Prod.fst log cursor rows (feed tradeIds final start)) ∧
      resolveStatsStartTime final.events result.profile = some start ∧
      result.metrics = buildMetrics tradeIds final result.profile := by
  induction h generalizing profile cursor with
  | done hpoll hnone =>
    rename_i request result
    obtain ⟨profile', hs', hpolled, hpage, hmetrics⟩ := pollProfile_eq_some hpoll
    obtain rfl := Option.some.inj (hs.symm.trans hs')
    have hstart' := hpolled.statsStart.trans hstart
    refine ⟨⟨_, hpolled.feed start, GrowingLog.Reads.done ?_⟩, hstart', hmetrics⟩
    rw [hpage, hlast, liveTrades_some hstart'] at hnone
    exact (List.take_eq_nil_iff.mp hnone).resolve_left request.limit_pos.ne'
  | page hpoll hrow _ ih =>
    obtain ⟨profile', hs', hpolled, hpage, -⟩ := pollProfile_eq_some hpoll
    obtain rfl := Option.some.inj (hs.symm.trans hs')
    have hstart' := hpolled.statsStart.trans hstart
    obtain ⟨⟨log, hlog, hreads⟩, hend⟩ := ih hpolled.left hstart' rfl
    refine ⟨⟨_, hpolled.feed start, GrowingLog.Reads.page ?_ hrow hlog hreads⟩, hend⟩
    rw [hpage, hlast, liveTrades_some hstart']
    exact List.take_prefix _ _

theorem paged_stopped (h : Paged tradeIds eventIds s last rows final result)
    (hs : s.profile = some profile) (hstopped : profile.isRunning = false)
    (hstart : resolveStatsStartTime s.events profile = none) :
    rows = [] ∧ final = s ∧ result.profile.strategyRevision = profile.strategyRevision ∧
      result.metrics = buildMetrics tradeIds final result.profile := by
  cases h with
  | done hpoll hnone =>
    obtain ⟨profile', hs', hpolled, -, hmetrics⟩ := pollProfile_eq_some hpoll
    obtain rfl := Option.some.inj (hs.symm.trans hs')
    exact ⟨rfl, hpolled.stopped hstopped, hpolled.revision, hmetrics⟩
  | page hpoll hrow _ =>
    obtain ⟨profile', hs', hpolled, hpage, -⟩ := pollProfile_eq_some hpoll
    obtain rfl := Option.some.inj (hs.symm.trans hs')
    rw [hpage, liveTrades_none (hpolled.statsStart.trans hstart), List.take_nil] at hrow
    cases hrow

theorem agrees_of_exact
    (hexact : rows.filter (fun row =>
        row.2.strategyRevision = result.profile.strategyRevision) =
      countedTrades tradeIds final result.profile)
    (hmetrics : result.metrics = buildMetrics tradeIds final result.profile) :
    Agrees tradeIds rows final result := by
  refine ⟨hexact, ?_, ?_, ?_⟩
  · rw [hexact, hmetrics]
    rfl
  · rw [hexact, hmetrics]
    rfl
  · rw [hexact, hmetrics]
    exact (add_sub_cancel_left _ _).symm

end

/-! ## Sound states -/

/-- A revision has a start, or its strategy is stopped and has no trades; nothing is of a later
revision. -/
structure SoundProfile (s : PaperRows) (profile : PaperProfile) : Prop where
  trades : ∀ r ∈ s.trades, r.strategyRevision ≤ profile.strategyRevision
  events : ∀ e ∈ s.events, e.strategyRevision ≤ profile.strategyRevision
  start : started s.events profile.strategyRevision ≠ [] ∨
    profile.isRunning = false ∧ ∀ r ∈ s.trades, r.strategyRevision ≠ profile.strategyRevision

/-- The invariant of the runs in which no running strategy is switched. -/
structure Sound (s : PaperRows) : Prop where
  absent : s.profile = none → s.trades = [] ∧ s.events = []
  present : ∀ profile, s.profile = some profile → SoundProfile s profile

theorem sound_start : Sound {} :=
  ⟨fun _ => ⟨rfl, rfl⟩, fun profile h => absurd h (by simp)⟩

section

variable {tradeIds eventIds : IdSupply} {s s' : PaperRows} {profile profile' : PaperProfile}

theorem sound_of_some (hs : s.profile = some profile) (h : SoundProfile s profile) : Sound s := by
  refine ⟨fun hnone => absurd (hs.symm.trans hnone) (by simp), fun profile' hs' => ?_⟩
  obtain rfl := Option.some.inj (hs.symm.trans hs')
  exact h

theorem resolveStatsStartTime_eq_none_iff {events : List PaperEvent} :
    resolveStatsStartTime events profile = none ↔ started events profile.strategyRevision = [] := by
  rw [resolveStatsStartTime, List.max?_eq_none_iff, List.map_eq_nil_iff]

/-- **In a sound state** the pages that a client collects are what is counted. -/
theorem feedAgrees_of_sound (h : Sound s) : FeedAgrees tradeIds eventIds s := by
  intro rows final result hpaged
  have hprofile : ∃ profile, s.profile = some profile := by
    cases hpaged with
    | done hpoll _ =>
      obtain ⟨profile, hs, -⟩ := pollProfile_eq_some hpoll
      exact ⟨profile, hs⟩
    | page hpoll _ _ =>
      obtain ⟨profile, hs, -⟩ := pollProfile_eq_some hpoll
      exact ⟨profile, hs⟩
  obtain ⟨profile, hs⟩ := hprofile
  cases hstart : resolveStatsStartTime s.events profile with
  | some start =>
    obtain ⟨⟨log, -, hreads⟩, hend, hmetrics⟩ := reads_of_paged hpaged hs hstart rfl
    have hascending : (feed tradeIds final start).Pairwise fun a b => a.1 < b.1 :=
      (numbered_ascending _).sublist List.filter_sublist
    refine agrees_of_exact ?_ hmetrics
    rw [hreads.eq_newer hascending, GrowingLog.newer, feed, countedTrades, hend,
      List.filter_filter, List.filter_filter]
    refine List.filter_congr fun row hrow => ?_
    rw [Bool.eq_iff_iff, Bool.and_eq_true, Bool.and_eq_true, decide_eq_true_eq, decide_eq_true_eq,
      decide_eq_true_eq, decide_eq_true_eq, Option.all_some, decide_eq_true_eq]
    exact ⟨fun h => ⟨h.1.1, h.2⟩, fun h => ⟨⟨h.1, (mem_of_mem_numbered hrow).1⟩, h.2⟩⟩
  | none =>
    have hnone := resolveStatsStartTime_eq_none_iff.mp hstart
    obtain ⟨hstopped, htrades⟩ := (h.present profile hs).start.resolve_left (not_not_intro hnone)
    obtain ⟨rfl, rfl, hrevision, hmetrics⟩ := paged_stopped hpaged hs hstopped hstart
    refine agrees_of_exact ?_ hmetrics
    refine (List.filter_eq_nil_iff.mpr fun row hrow hcounted => ?_).symm
    refine htrades row.2 (mem_of_mem_numbered hrow).2 ?_
    rw [← hrevision]
    exact (of_decide_eq_true hcounted).1

/-! ## Steps -/

theorem SoundProfile.poll (h : SoundProfile s profile) (hpolled : Polled s profile s' profile') :
    SoundProfile s' profile' := by
  refine ⟨fun r hr => ?_, fun e he => ?_, ?_⟩
  · rw [hpolled.revision]
    rcases hpolled.newTrades r hr with hold | hnew
    · exact h.trades r hold
    · exact hnew.le
  · rw [hpolled.revision]
    rcases hpolled.newEvents e he with hold | hnew
    · exact h.events e hold
    · exact hnew.le
  · rw [hpolled.revision, hpolled.started, hpolled.isRunning]
    rcases h.start with hstart | ⟨hstopped, htrades⟩
    · exact Or.inl hstart
    · rw [hpolled.stopped hstopped]
      exact Or.inr ⟨hstopped, htrades⟩

theorem SoundProfile.setRunning (h : SoundProfile s profile) {now : ℤ} {isRunning : Bool}
    (hs : s.profile = some profile) (hstep : setRunning now isRunning s = some s') : Sound s' := by
  rw [PaperFeed.setRunning, hs, Option.map_some] at hstep
  obtain rfl := Option.some.inj hstep
  split
  · refine sound_of_some rfl ⟨h.trades, fun e he => ?_, Or.inl ?_⟩
    · rcases List.mem_append.mp he with hold | hnew
      · exact h.events e hold
      · rw [List.mem_singleton.mp hnew]
    · refine List.ne_nil_of_mem (List.mem_filter.mpr
        ⟨List.mem_append_right _ (List.mem_singleton_self _), ?_⟩)
      exact decide_eq_true ⟨rfl, rfl⟩
  · rename_i hturning
    refine sound_of_some rfl ⟨h.trades, h.events, ?_⟩
    rcases h.start with hstart | ⟨hstopped, htrades⟩
    · exact Or.inl hstart
    · refine Or.inr ⟨?_, htrades⟩
      rw [hstopped, Bool.not_false, Bool.and_true, Bool.not_eq_true] at hturning
      exact hturning

theorem upsertProfile_cases {now : ℤ} {payload : UpsertRequest} {caught : Option CatchUp}
    (hs : s.profile = some profile) (h : upsertProfile now payload caught s = some s') :
    (profile.strategyId = payload.strategyId ∧
        ∃ profile', s' = { s with profile := some profile' } ∧
        profile'.strategyRevision = profile.strategyRevision ∧
        profile'.isRunning = profile.isRunning) ∨
      (profile.strategyId ≠ payload.strategyId ∧ ∃ profile', s'.profile = some profile' ∧
        profile'.strategyRevision = profile.strategyRevision + 1 ∧
        profile'.isRunning = profile.isRunning ∧
        (∀ r ∈ s'.trades, r ∈ s.trades ∨ r.strategyRevision = profile.strategyRevision) ∧
        s'.events = s.events ++
          [⟨profile.strategyRevision + 1, .strategySwitched payload.totalBalanceUsdt, now⟩]) := by
  rw [upsertProfile, hs] at h
  dsimp only at h
  split at h
  · rename_i hsame
    exact Or.inl ⟨hsame, _, (Option.some.inj h).symm, rfl, rfl⟩
  · rename_i hother
    cases caught with
    | none => exact absurd h (by simp)
    | some c =>
      dsimp only at h
      split at h
      · cases h
      · obtain ⟨mark, hprofile⟩ := @catchUpForStrategy_profile now s.trades profile c
        obtain rfl := Option.some.inj h
        refine Or.inr ⟨hother, _, rfl, rfl, ?_, catchUpForStrategy_grows.2, rfl⟩
        rw [hprofile]

theorem SoundProfile.upsert (h : SoundProfile s profile) {now : ℤ} {payload : UpsertRequest}
    {caught : Option CatchUp} (hs : s.profile = some profile)
    (hstep : upsertProfile now payload caught s = some s')
    (hno : ¬(profile.isRunning = true ∧ profile.strategyId ≠ payload.strategyId)) : Sound s' := by
  rcases upsertProfile_cases hs hstep with
    ⟨-, profile', rfl, hrevision, hrunning⟩ |
    ⟨hother, profile', hleft, hrevision, hrunning, htrades, hevents⟩
  · refine sound_of_some rfl ⟨?_, ?_, ?_⟩
    · rw [hrevision]
      exact h.trades
    · rw [hrevision]
      exact h.events
    · rw [hrevision, hrunning]
      exact h.start
  · have hbound : ∀ r ∈ s'.trades, r.strategyRevision ≤ profile.strategyRevision := by
      intro r hr
      rcases htrades r hr with hold | hnew
      · exact h.trades r hold
      · exact hnew.le
    refine sound_of_some hleft ⟨fun r hr => ?_, fun e he => ?_, Or.inr ⟨?_, fun r hr => ?_⟩⟩
    · rw [hrevision]
      exact (hbound r hr).trans (Nat.le_succ _)
    · rw [hrevision]
      rw [hevents] at he
      rcases List.mem_append.mp he with hold | hnew
      · exact (h.events e hold).trans (Nat.le_succ _)
      · rw [List.mem_singleton.mp hnew]
    · rw [hrunning, ← Bool.not_eq_true]
      exact fun hrunning => hno ⟨hrunning, hother⟩
    · rw [hrevision]
      exact (Nat.lt_succ_of_le (hbound r hr)).ne

/-- **Steps**: a call that does not switch a running strategy leaves a sound state. -/
theorem sound_step {call : Call} (h : Sound s) (hno : ¬ SwitchesRunning s call)
    (hstep : step tradeIds eventIds s call = some s') : Sound s' := by
  cases call with
  | upsert now payload caught =>
    cases hs : s.profile with
    | none =>
      obtain ⟨htrades, hevents⟩ := h.absent hs
      rw [step, upsertProfile, hs] at hstep
      obtain rfl := Option.some.inj hstep
      refine sound_of_some rfl ⟨fun r hr => ?_, fun e he => ?_, Or.inr ⟨rfl, fun r hr => ?_⟩⟩
      · exact absurd (htrades ▸ hr) List.not_mem_nil
      · exact absurd (hevents ▸ he) List.not_mem_nil
      · exact absurd (htrades ▸ hr) List.not_mem_nil
    | some profile =>
      exact (h.present profile hs).upsert hs hstep fun hswitch => hno ⟨profile, hs, hswitch⟩
  | setRunning now isRunning =>
    obtain ⟨profile, hs, -⟩ := Option.map_eq_some_iff.mp hstep
    exact (h.present profile hs).setRunning hs hstep
  | poll request lastTradeId =>
    obtain ⟨⟨s'', result⟩, hpoll, rfl⟩ := Option.map_eq_some_iff.mp hstep
    obtain ⟨profile, hs, hpolled, -⟩ := pollProfile_eq_some hpoll
    exact sound_of_some hpolled.left ((h.present profile hs).poll hpolled)

/-! ## Switches of a running strategy -/

/-- A trade that is closed one step after its entry. -/
def closedTrade (entryTime : ℤ) : TradeRow :=
  { entryTime := entryTime, exitTime := entryTime + 1, entry := 1, pnlUsdt := 1 }

/-- A poll at which the strategy has closed a trade since the last one. -/
def closingPoll (profile : PaperProfile) : PollRequest where
  now := profile.lastProcessedAt.getD 0 + 1
  lastEventId := none
  limit := 500
  caught := some { trades := [closedTrade (profile.lastProcessedAt.getD 0)] }
  limit_pos := by decide

theorem exists_mem_closingPoll (profile : PaperProfile) (trades : List LivePaperTrade) :
    ∃ c, (closingPoll profile).caught = some c ∧
      ∃ r ∈ (catchUpForStrategy profile trades (closingPoll profile).now c).2,
        r.strategyRevision = profile.strategyRevision := by
  refine ⟨_, rfl, ?_⟩
  obtain ⟨r, hr, hrevision⟩ := exists_mem_insertTrade trades
    (recordOf profile.strategyRevision (closedTrade (profile.lastProcessedAt.getD 0)))
  refine ⟨r, ?_, hrevision⟩
  have hnews : ¬ (profile.lastProcessedAt.any fun m =>
      decide (profile.lastProcessedAt.getD 0 + 1 ≤ m)) = true := by
    cases profile.lastProcessedAt with
    | none => exact Bool.false_ne_true
    | some m =>
      rw [Option.any_some, Option.getD_some, decide_eq_true_eq]
      omega
  show r ∈ (if (profile.lastProcessedAt.any fun m =>
      decide (profile.lastProcessedAt.getD 0 + 1 ≤ m)) = true then _
    else if profile.lastProcessedAt.getD 0 + 1 < profile.lastProcessedAt.getD 0 + 1 then _
    else _ : List LivePaperTrade × Option ℤ).1
  rw [if_neg hnews, if_neg (lt_irrefl _)]
  exact hr

/-- **Without a start** a running strategy that closes a trade is counted, but not fed. -/
theorem not_feedAgrees_of_running (hs : s.profile = some profile)
    (hrunning : profile.isRunning = true)
    (hstart : started s.events profile.strategyRevision = []) :
    ¬ FeedAgrees tradeIds eventIds s := by
  intro hagrees
  obtain ⟨c, hcaught, r, hr, hrevision⟩ := exists_mem_closingPoll profile s.trades
  obtain ⟨⟨s', result⟩, hpoll⟩ : ∃ after, pollProfile tradeIds eventIds (closingPoll profile)
      (some 0) s = some after := by
    rw [pollProfile, hs, Option.bind_some, catchUpPoll, if_pos hrunning]
    exact ⟨_, rfl⟩
  have hr' : r ∈ s'.trades := by
    have hpoll' := hpoll
    rw [pollProfile, hs, Option.bind_some, catchUpPoll, if_pos hrunning, hcaught] at hpoll'
    obtain ⟨rfl, -⟩ := Prod.mk.inj (Option.some.inj hpoll')
    exact hr
  obtain ⟨profile', hs', hpolled, hpage, hmetrics⟩ := pollProfile_eq_some hpoll
  obtain rfl := Option.some.inj (hs.symm.trans hs')
  have hnone : resolveStatsStartTime s'.events result.profile = none :=
    hpolled.statsStart.trans (resolveStatsStartTime_eq_none_iff.mpr hstart)
  have hempty : result.liveTradesSinceStart = [] := by
    rw [hpage, liveTrades_none hnone, List.take_nil]
  have hexact := (hagrees _ _ _ (Paged.done hpoll hempty)).exact
  obtain ⟨row, hrow, hrow'⟩ := @exists_mem_numbered tradeIds _ _ _ hr'
  have hcounted : row ∈ countedTrades tradeIds s' result.profile := by
    refine List.mem_filter.mpr ⟨hrow, ?_⟩
    rw [hnone, decide_eq_true_eq, hrow', hrevision, hpolled.revision]
    exact ⟨rfl, rfl⟩
  rw [← hexact] at hcounted
  cases hcounted

/-- Behind a switch of a running strategy the feed does not agree. -/
theorem not_feedAgrees_of_switch {call : Call} (h : Sound s) (hswitch : SwitchesRunning s call)
    (hstep : step tradeIds eventIds s call = some s') : ¬ FeedAgrees tradeIds eventIds s' := by
  cases call with
  | upsert now payload caught =>
    obtain ⟨profile, hs, hrunning, hother⟩ := hswitch
    rcases upsertProfile_cases hs hstep with
      ⟨hsame, -⟩ | ⟨-, profile', hleft, hrevision, hrunning', -, hevents⟩
    · exact absurd hsame hother
    · refine not_feedAgrees_of_running hleft (hrunning'.trans hrunning) ?_
      rw [hevents, started_append rfl]
      refine List.filter_eq_nil_iff.mpr fun e he hstarted => ?_
      have hle := (h.present profile hs).events e he
      have heq := (of_decide_eq_true hstarted).1
      omega
  | setRunning now isRunning => exact absurd hswitch id
  | poll request lastTradeId => exact absurd hswitch id

/-- **The live paper feed.**  In all states of a run the feed agrees with the metrics exactly if no
running strategy is switched in it. -/
theorem feedAgrees_iff {calls : List Call} {final : PaperRows}
    (hrun : StepSystem.run (step tradeIds eventIds) {} calls = some final) :
    (∀ front u, front <+: calls → StepSystem.run (step tradeIds eventIds) {} front = some u →
        FeedAgrees tradeIds eventIds u) ↔
      StepSystem.AlongRun (step tradeIds eventIds) (fun s call => ¬ SwitchesRunning s call) {}
        calls := by
  rw [StepSystem.forall_prefix_iff_alongRun, and_iff_right (feedAgrees_of_sound sound_start)]
  have hiff : ∀ s call s', Sound s → step tradeIds eventIds s call = some s' →
      ((∀ s'', step tradeIds eventIds s call = some s'' → FeedAgrees tradeIds eventIds s'') ↔
        ¬ SwitchesRunning s call) := by
    intro s call s' hs hstep
    constructor
    · exact fun hagrees hswitch => not_feedAgrees_of_switch hs hswitch hstep (hagrees s' hstep)
    · exact fun hno s'' hstep' => feedAgrees_of_sound (sound_step hs hno hstep')
  refine StepSystem.alongRun_iff_of_invariant _ (I := Sound) (fun s call s' hs hagrees hstep => ?_)
    hiff sound_start hrun
  exact sound_step hs ((hiff s call s' hs hstep).mp hagrees) hstep

end

/-! ## A switch -/

section

instance (s : PaperRows) (call : Call) : Decidable (SwitchesRunning s call) :=
  match call with
  | .upsert _ payload _ =>
      decidable_of_iff ((s.profile.any fun profile =>
        profile.isRunning && !decide (profile.strategyId = payload.strategyId)) = true) (by
          rw [Option.any_eq_true]
          refine exists_congr fun profile => and_congr_right fun _ => ?_
          rw [Bool.and_eq_true, Bool.not_eq_true', decide_eq_false_iff_not])
  | .setRunning _ _ => .isFalse id
  | .poll _ _ => .isFalse id

def fromOne : IdSupply where
  idOf n := n + 1
  ascending a b h := by
    show (a : ℤ) + 1 < (b : ℤ) + 1
    omega
  positive n := by
    show (0 : ℤ) < (n : ℤ) + 1
    omega

/-- An upsert of a strategy with 1000 USDT, 100 for a trade. -/
def upsertOf (strategyId : ℕ) (h : 0 < strategyId) : UpsertRequest :=
  ⟨strategyId, 1000, 100, h, by norm_num, by norm_num⟩

/-- A strategy is played and closes a trade; it is stopped, switched and played again. -/
def switchedStopped : List Call :=
  [.upsert 0 (upsertOf 1 (by decide)) none, .setRunning 1 true,
    .poll ⟨5, none, 500, some { trades := [closedTrade 3] }, by decide⟩ (some 0),
    .setRunning 6 false, .upsert 7 (upsertOf 2 (by decide)) (some { trades := [] }),
    .setRunning 8 true]

/-- Its feed agrees with the metrics throughout. -/
theorem feedAgrees_switchedStopped :
    ∃ final, StepSystem.run (step fromOne fromOne) {} switchedStopped = some final ∧
      final.trades.length = 1 ∧
      ∀ front u, front <+: switchedStopped →
        StepSystem.run (step fromOne fromOne) {} front = some u → FeedAgrees fromOne fromOne u := by
  obtain ⟨final, hfinal, hlength⟩ : ∃ final,
      StepSystem.run (step fromOne fromOne) {} switchedStopped = some final ∧
        final.trades.length = 1 := by
    obtain ⟨final, hfinal⟩ := Option.isSome_iff_exists.mp
      (show (StepSystem.run (step fromOne fromOne) {} switchedStopped).isSome by decide +kernel)
    have hone : ∀ final ∈ StepSystem.run (step fromOne fromOne) {} switchedStopped,
        final.trades.length = 1 := by
      decide +kernel
    exact ⟨final, hfinal, hone final hfinal⟩
  exact ⟨final, hfinal, hlength, (feedAgrees_iff hfinal).mpr (by decide +kernel)⟩

/-- Of a strategy that is switched while it runs, the next trade is counted but not fed. -/
theorem not_feedAgrees_switchedRunning :
    ∃ u, StepSystem.run (step fromOne fromOne) {}
        [.upsert 0 (upsertOf 1 (by decide)) none, .setRunning 1 true,
          .upsert 2 (upsertOf 2 (by decide)) (some { trades := [] })] = some u ∧
      ¬ FeedAgrees fromOne fromOne u := by
  refine ⟨{ profile := some ⟨2, 2, true, 1000, 100, some 2, none⟩
            trades := []
            events := [⟨1, .paperStarted 1000, 1⟩, ⟨2, .strategySwitched 1000, 2⟩] },
    by decide +kernel, not_feedAgrees_of_running rfl rfl (by decide)⟩

end

end PaperFeed

end Backtest

end AdviserConstructor
