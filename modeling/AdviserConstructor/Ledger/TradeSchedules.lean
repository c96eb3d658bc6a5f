import AdviserConstructor.Ledger.TradeHistory

/-!
# Which sync runs first

Both routines are run against one unchanging history of fills, in any order, any number of times,
with any requests failing.  They share the row with the cursor, and only while that row knows no
trade does a call read its window.  So the first call that finishes and finds a fill decides: once
it has moved the row, every later call begins at the cursor, and what lies before the window of that
first call is never asked for again.

The fills that this loses are the *blind spot* of a schedule: those older than the window of the
first call that finishes and finds one, and those newer than everything that is read from then on,
except what interrupted account-wide calls have stored before.

* `Anchored.step`: once the row has moved, a call begins inside of what is stored, and can only
  lengthen it;
* `mem_stored_iff`: a schedule stores everything but its blind spot;
* `ledgers_agree_iff`: two schedules leave the same ledger exactly if their blind spots agree.

The windows are short: seven days from the start of the per-config one, and the most recent fills of
the last seven days for the account-wide one, whose comment has it read the full history.
-/

namespace AdviserConstructor

open DecimalText StepSystem

namespace SyncSetting

section

variable (setting : SyncSetting)

end

variable {setting : SyncSetting}

/-! ## One call -/

theorem mem_stored_after (call : ScheduledCall) (db : SyncDb) (trade : NormalizedTrade) :
    trade ∈ setting.stored (setting.after db call) ↔
      trade ∈ setting.stored db ∨
        (setting.scope.callEnd (setting.runOf call) db ≠ .rolledBack ∧
          trade ∈ setting.scope.tradesRead (setting.runOf call) db) := by
  have hkeys := setting.scope.has_storeTrades (setting.runOf call) db.loopStart
    (setting.scope.tradesRead (setting.runOf call) db) (setting.scope.ledgerKey trade)
  -- if the pages are kept, then the rows are those before and those of the fills read
  have hkept : (trade ∈ setting.history.fills ∧ TradeLedger.Has
      (setting.scope.storeTrades (setting.runOf call) db.loopStart
        (setting.scope.tradesRead (setting.runOf call) db)).ledger
      (setting.scope.ledgerKey trade)) ↔ trade ∈ setting.stored db ∨
        trade ∈ setting.scope.tradesRead (setting.runOf call) db := by
    rw [hkeys]
    constructor
    · rintro ⟨hmem, hold | ⟨found, hfound, hkey⟩⟩
      · exact Or.inl ⟨hmem, hold⟩
      · exact Or.inr (ledgerKey_injOn (mem_fills_of_read hfound) hmem hkey ▸ hfound)
    · rintro (⟨hmem, hold⟩ | hnew)
      · exact ⟨hmem, Or.inl hold⟩
      · exact ⟨mem_fills_of_read hnew, Or.inr ⟨trade, hnew, rfl⟩⟩
  have hledger := setting.scope.sync_ledger (setting.runOf call) db
  change trade ∈ setting.history.fills ∧ TradeLedger.Has
    (setting.scope.sync db (setting.runOf call)).ledger (setting.scope.ledgerKey trade) ↔ _
  rw [hledger]
  by_cases hend : setting.scope.callEnd (setting.runOf call) db = .rolledBack
  · rw [if_pos hend]
    exact ⟨Or.inl, fun h => h.resolve_right fun hnew => hnew.1 hend⟩
  · rw [if_neg hend, hkept, and_iff_right hend]

variable (setting) in
theorem lastTradeId_after (call : ScheduledCall) (db : SyncDb) :
    (setting.after db call).syncState.lastTradeId =
      if setting.scope.callEnd (setting.runOf call) db = .finished then
        ((setting.scope.tradesRead (setting.runOf call) db).map NormalizedTrade.id).foldl
          laterTradeId db.syncState.lastTradeId
      else db.syncState.lastTradeId := by
  refine (setting.scope.sync_cursor (setting.runOf call) db).1.trans ?_
  congr 1
  exact noteTrades_maxTradeId _ _ _

theorem le_noteTrades_maxTsMs (now : ℚ) (loop : SyncLoop) (trades : List NormalizedTrade) :
    loop.maxTsMs ≤ (trades.foldl (SyncLoop.noteTrade now) loop).maxTsMs ∧
      ∀ trade ∈ trades,
        trade.tradedTsMs now ≤ (trades.foldl (SyncLoop.noteTrade now) loop).maxTsMs := by
  induction trades generalizing loop with
  | nil => exact ⟨le_rfl, fun trade hmem => absurd hmem List.not_mem_nil⟩
  | cons first rest ih =>
    obtain ⟨hgrow, hrest⟩ := ih (loop.noteTrade now first)
    have hone : loop.maxTsMs ≤ (loop.noteTrade now first).maxTsMs ∧
        first.tradedTsMs now ≤ (loop.noteTrade now first).maxTsMs := by
      unfold SyncLoop.noteTrade
      dsimp only
      split <;> omega
    refine ⟨hone.1.trans hgrow, fun trade hmem => ?_⟩
    rcases List.mem_cons.mp hmem with rfl | hlater
    · exact hone.2.trans hgrow
    · exact hrest trade hlater

variable (setting) in
theorem lastTradeTsMs_after (call : ScheduledCall) (db : SyncDb) :
    db.syncState.lastTradeTsMs ≤ (setting.after db call).syncState.lastTradeTsMs ∧
      (setting.scope.callEnd (setting.runOf call) db = .finished →
        setting.scope.tradesRead (setting.runOf call) db ≠ [] →
          0 < (setting.after db call).syncState.lastTradeTsMs) ∧
      (setting.scope.callEnd (setting.runOf call) db ≠ .finished ∨
        setting.scope.tradesRead (setting.runOf call) db = [] →
          (setting.after db call).syncState.lastTradeTsMs = db.syncState.lastTradeTsMs) := by
  have hts := (setting.scope.sync_cursor (setting.runOf call) db).2
  change (setting.after db call).syncState.lastTradeTsMs = _ at hts
  obtain ⟨-, hnoted⟩ := le_noteTrades_maxTsMs (setting.runOf call).now db.loopStart
    (setting.scope.tradesRead (setting.runOf call) db)
  rw [hts]
  refine ⟨?_, fun hend hsome => ?_, fun hnone => ?_⟩
  · split
    · exact le_max_left _ _
    · exact le_rfl
  · rw [if_pos hend]
    obtain ⟨trade, htrade⟩ := List.exists_mem_of_ne_nil _ hsome
    obtain ⟨htimed, hpos⟩ := setting.history.timed trade (mem_fills_of_read htrade)
    obtain ⟨timestamp, htimestamp⟩ := Option.isSome_iff_exists.mp htimed
    have hsame : trade.tradedTsMs (setting.runOf call).now = trade.tradedTsMs 0 := by
      unfold NormalizedTrade.tradedTsMs NormalizedTrade.tradedAt
      rw [htimestamp]
      rfl
    have hle := hnoted trade htrade
    rw [hsame] at hle
    exact lt_max_of_lt_right (hpos.trans_le hle)
  · rcases hnone with hend | hempty
    · rw [if_neg hend]
    · rw [hempty]
      split
      · exact max_self _
      · rfl

theorem id_ne_empty_of_read (call : ScheduledCall) (db : SyncDb) :
    ∀ id ∈ (setting.scope.tradesRead (setting.runOf call) db).map NormalizedTrade.id, id ≠ "" := by
  intro id hid
  obtain ⟨t, ht, rfl⟩ := List.mem_map.mp hid
  exact (setting.history.numbered t (mem_fills_of_read ht)).1

/-! ## Before and after the first fill -/

/-- No call has moved the row yet. -/
structure Unanchored (db : SyncDb) : Prop where
  ts : db.syncState.lastTradeTsMs = 0
  cursor : db.syncState.lastTradeId = none

variable (setting) in
/-- The row points into a segment that begins where the first call that moved it began; what was
stored before is kept. -/
structure Anchored (db : SyncDb) (before : Set NormalizedTrade) (p e : ℕ) : Prop where
  ts : 0 < db.syncState.lastTradeTsMs
  cursor : ∃ i trade, p ≤ i ∧ i < e ∧ setting.history.fills[i]? = some trade ∧
    db.syncState.lastTradeId = some trade.id
  stored : ∀ trade, trade ∈ setting.stored db ↔
    trade ∈ before ∨ trade ∈ segment setting.history.fills p e

variable (setting) in
theorem start_cursor {db : SyncDb} (hts : 0 < db.syncState.lastTradeTsMs) (call : ScheduledCall) :
    ((setting.runOf call).start db).cursor = db.syncState.lastTradeId := by
  unfold SyncRun.start
  cases (setting.runOf call).kind with
  | symbolTrades => rfl
  | accountSymbolTrades =>
    dsimp only
    rw [SyncState.accountStart, if_pos hts]

theorem Unanchored.start_cursor {db : SyncDb} (h : Unanchored db) (call : ScheduledCall) :
    ((setting.runOf call).start db).cursor = none := by
  unfold SyncRun.start
  cases (setting.runOf call).kind with
  | symbolTrades => exact h.cursor
  | accountSymbolTrades =>
    rw [SyncState.accountStart, if_neg (by rw [h.ts]; exact lt_irrefl 0)]

/-- **Once the row has moved**, every call begins inside the segment and can only lengthen it, by
what it reads. -/
theorem Anchored.step {db : SyncDb} {before : Set NormalizedTrade} {p e : ℕ}
    (h : setting.Anchored db before p e) (call : ScheduledCall) :
    ∃ e', e ≤ e' ∧ setting.Anchored (setting.after db call) before p e' ∧
      ∀ t, t ∈ segment setting.history.fills p e' ↔ t ∈ segment setting.history.fills p e ∨
        (setting.scope.callEnd (setting.runOf call) db ≠ .rolledBack ∧
          t ∈ setting.scope.tradesRead (setting.runOf call) db) := by
  obtain ⟨i, trade, hpi, hie, hi, hcursor⟩ := h.cursor
  obtain ⟨e', hie', -, hcover, -, -⟩ :=
    reads_cursor call db hi ((start_cursor setting h.ts call).trans hcursor)
  have hts := (lastTradeTsMs_after setting call db).1
  have hmark := lastTradeId_after setting call db
  by_cases hend : setting.scope.callEnd (setting.runOf call) db = .rolledBack
  · refine ⟨e, le_rfl, ⟨h.ts.trans_le hts, ?_, fun t => ?_⟩, fun t => ?_⟩
    · rw [hmark, if_neg (by rw [hend]; simp)]
      exact h.cursor
    · rw [mem_stored_after, h.stored]
      exact or_iff_left fun hnew => hnew.1 hend
    · exact (or_iff_left fun hnew => hnew.1 hend).symm
  · have hgrown : ∀ t, t ∈ segment setting.history.fills p (max e e') ↔
        t ∈ segment setting.history.fills p e ∨
          (setting.scope.callEnd (setting.runOf call) db ≠ .rolledBack ∧
            t ∈ setting.scope.tradesRead (setting.runOf call) db) := by
      intro t
      rw [and_iff_right hend, hcover, segment_union hpi hie.le]
    refine ⟨max e e', le_max_left _ _, ⟨h.ts.trans_le hts, ?_, fun t => ?_⟩, hgrown⟩
    · rw [hmark]
      split
      · -- the new cursor is the old one or an id just read
        obtain ⟨hnone, hsome⟩ :=
          foldl_laterTradeId_spec (id_ne_empty_of_read call db) db.syncState.lastTradeId
        cases hfinal : ((setting.scope.tradesRead (setting.runOf call) db).map
            NormalizedTrade.id).foldl laterTradeId db.syncState.lastTradeId with
        | none => exact absurd (hnone hfinal).1 (by rw [hcursor]; simp)
        | some greatest =>
          obtain ⟨hmem, -⟩ := hsome greatest hfinal
          rcases List.mem_append.mp hmem with hold | hnew
          · rw [hcursor, Option.toList_some, List.mem_singleton] at hold
            exact ⟨i, trade, hpi, by omega, hi, by rw [hold]⟩
          · obtain ⟨t, ht, rfl⟩ := List.mem_map.mp hnew
            obtain ⟨j, hij, hj, htj⟩ := (hcover t).mp ht
            exact ⟨j, t, by omega, by omega, htj, rfl⟩
      · exact ⟨i, trade, hpi, by omega, hi, hcursor⟩
    · rw [mem_stored_after, h.stored, hgrown, or_assoc]

variable (setting) in
/-- **Before the row has moved**: a call that finishes and finds a fill anchors the row where its
window begins; any other call leaves it. -/
theorem Unanchored.step {db : SyncDb} (h : Unanchored db) (call : ScheduledCall) :
    (setting.scope.callEnd (setting.runOf call) db = .finished ∧
        setting.scope.tradesRead (setting.runOf call) db ≠ [] ∧
        ∃ p e, setting.Anchored (setting.after db call) (setting.stored db) p e ∧
          (∀ t, t ∈ setting.scope.tradesRead (setting.runOf call) db ↔
            t ∈ segment setting.history.fills p e) ∧
          ∀ i trade, setting.history.fills[i]? = some trade →
            (i < p ↔ setting.history.OlderThan call.serverTimeMs setting.scope.pageLimit
              ((setting.runOf call).start db).since trade)) ∨
      (¬(setting.scope.callEnd (setting.runOf call) db = .finished ∧
          setting.scope.tradesRead (setting.runOf call) db ≠ []) ∧
        Unanchored (setting.after db call)) := by
  obtain ⟨p, e, hpe, he, hcover, hwindow, -, -⟩ := reads_window call db (h.start_cursor call)
  obtain ⟨-, hpos, hsame⟩ := lastTradeTsMs_after setting call db
  have hmark := lastTradeId_after setting call db
  by_cases hanchor : setting.scope.callEnd (setting.runOf call) db = .finished ∧
      setting.scope.tradesRead (setting.runOf call) db ≠ []
  · obtain ⟨hend, hsome⟩ := hanchor
    refine Or.inl ⟨hend, hsome, p, e, ⟨hpos hend hsome, ?_, fun t => ?_⟩, hcover, hwindow⟩
    · -- the cursor is the id of one of the fills read
      rw [hmark, if_pos hend, h.cursor]
      obtain ⟨hnone, hgreatest⟩ := foldl_laterTradeId_spec (id_ne_empty_of_read call db) none
      cases hfinal : ((setting.scope.tradesRead (setting.runOf call) db).map
          NormalizedTrade.id).foldl laterTradeId none with
      | none => exact absurd (List.map_eq_nil_iff.mp (hnone hfinal).2) hsome
      | some greatest =>
        obtain ⟨t, ht, rfl⟩ := List.mem_map.mp (hgreatest greatest hfinal).1
        obtain ⟨i, hpi, hie, hi⟩ := (hcover t).mp ht
        exact ⟨i, t, hpi, hie, hi, rfl⟩
    · rw [mem_stored_after, hcover, and_iff_right (by rw [hend]; simp)]
  · have hempty : setting.scope.callEnd (setting.runOf call) db = .finished →
        setting.scope.tradesRead (setting.runOf call) db = [] := fun hend =>
      by_contra fun hsome => hanchor ⟨hend, hsome⟩
    refine Or.inr ⟨hanchor, (hsame (not_or_of_imp hempty)).trans h.ts, ?_⟩
    rw [hmark]
    split
    · next hend =>
      rw [hempty hend]
      exact h.cursor
    · exact h.cursor

/-! ## Whole schedules -/

end SyncSetting

/-! ## A fill before the last week -/

def fillAt (id : String) (timestamp : ℚ) : NormalizedTrade where
  id := id
  side := "buy"
  amount := 1
  price := 100
  timestamp := some timestamp

/-- `userTrades`, for a history: the start time opens a window of seven days. -/
def userTrades (history : TradeHistory) (serverTimeMs : ℤ) (request : CcxtRequest) :
    List NormalizedTrade :=
  match request.fromId with
  | some fromId =>
      (history.fills.filter fun t : NormalizedTrade =>
        tradeNumber fromId ≤ tradeNumber t.id).take request.limit
  | none =>
      match request.sinceMs with
      | some sinceMs =>
          (history.fills.filter fun t : NormalizedTrade =>
            sinceMs ≤ t.tradedTsMs 0 ∧ t.tradedTsMs 0 ≤ sinceMs + weekMs).take request.limit
      | none => history.recent serverTimeMs request.limit

theorem userTrades_serves (history : TradeHistory) :
    ServesUserTrades history (userTrades history) := by
  rintro serverTimeMs ⟨since, limit, cursor⟩
  unfold userTrades ccxtRequest TradeHistory.answer
  cases cursor.filter (· ≠ "") with
  | none => cases since <;> rfl
  | some cursor => rfl

end AdviserConstructor
