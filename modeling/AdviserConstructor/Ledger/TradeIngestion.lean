import AdviserConstructor.Ledger.TradeSync
import AdviserConstructor.Library.StepSystem

/-!
# What the trade sync ingests

Every sequence of calls of the two routines is considered: repeated ones, ones that the exchange
interrupts or that are rolled back, in any order and with any pages.  The exchange data do not
change: an id always comes with the same fill.

* `Mirrors`: the rows with an id are the fills with an id that some call has stored, one row each,
  with the attributes the exchange gave them and the attribution that one of the calls resolved;
* `mirrors_run`: this holds after every sequence of calls;
* `mirrors_step`: a call that reads nothing new, and attributes the fills as their rows do, leaves
  all these rows as they were, except for the time of ingestion.
-/

namespace AdviserConstructor

open StepSystem

/-! ## Exchange data -/

/-- The fills of an account, one for each id. -/
structure ExchangeFills (scope : SyncScope) where
  fills : Set NormalizedTrade
  one_each : ∀ trade ∈ fills, ∀ trade' ∈ fills, trade.id ≠ "" →
    scope.ledgerKey trade = scope.ledgerKey trade' → trade = trade'

/-- A call that is answered from these fills. -/
structure ExchangeCall {scope : SyncScope} (exchange : ExchangeFills scope) where
  run : SyncRun
  answers : ∀ page request trades, run.fetch page request = .page trades →
    ∀ trade ∈ trades, trade ∈ exchange.fills

/-- The row has the attributes of the fill. -/
structure LedgerEntry.Reflects (entry : LedgerEntry) (trade : NormalizedTrade) : Prop where
  orderId : entry.exchangeOrderId = trade.orderId
  clientOrderId : entry.clientOrderId = extractClientOrderId trade
  side : entry.side = trade.side
  price : entry.price = trade.price
  amount : entry.amount = trade.amount
  cost : entry.cost = trade.cost
  feeCost : entry.feeCost = trade.feeCost
  feeCurrency : entry.feeCurrency = trade.feeCurrency
  tradedAt : ∀ timestamp ∈ trade.timestamp, entry.tradedAt = timestamp
  realizedPnl : entry.realizedPnl = extractRealizedPnl trade.raw
  rawTrade : entry.rawTrade = trade.raw

/-- The row without the column that every call writes anew, when it was ingested. -/
def LedgerEntry.withoutStamp (entry : LedgerEntry) : LedgerEntry := { entry with ingestedAt := 0 }

/-- The rows with an id, without this column. -/
def namedFills (ledger : TradeLedger) : List (LedgerKey × LedgerEntry) :=
  (ledger.entries.filter fun row => row.1.exchangeTradeId ≠ "").map fun row =>
    (row.1, row.2.withoutStamp)

/-! ## One row -/

theorem reflects_ledgerRow (scope : SyncScope) (run : SyncRun) (trade : NormalizedTrade) :
    (scope.ledgerRow run trade).2.Reflects trade where
  orderId := rfl
  clientOrderId := rfl
  side := rfl
  price := rfl
  amount := rfl
  cost := rfl
  feeCost := rfl
  feeCurrency := rfl
  tradedAt timestamp h := by
    change trade.timestamp.getD run.now = timestamp
    rw [Option.mem_def.mp h, Option.getD_some]
  realizedPnl := rfl
  rawTrade := rfl

section Row

variable {scope : SyncScope} {run : SyncRun} {trade : NormalizedTrade} {entry : LedgerEntry}

theorem LedgerEntry.Reflects.updatedBy (h : entry.Reflects trade) :
    (entry.updatedBy (scope.ledgerRow run trade).2).Reflects trade ∧
      (entry.origin = resolveOrigin run.tables scope.accountId trade →
        (entry.updatedBy (scope.ledgerRow run trade).2).withoutStamp = entry.withoutStamp) := by
  refine ⟨⟨rfl, rfl, h.side, h.price, h.amount, rfl, rfl, rfl, h.tradedAt, rfl, rfl⟩,
    fun horigin => ?_⟩
  cases entry
  simp only [LedgerEntry.updatedBy, LedgerEntry.withoutStamp, LedgerEntry.mk.injEq, true_and]
  exact ⟨h.orderId.symm, h.clientOrderId.symm, h.cost.symm, h.feeCost.symm, h.feeCurrency.symm,
    horigin.symm, h.realizedPnl.symm, h.rawTrade.symm⟩

end Row

theorem namedFills_upsertRow {ledger : TradeLedger} {row : LedgerKey × LedgerEntry}
    (h : row.1.exchangeTradeId ≠ "" → ∃ existing, ledger.get? row.1 = some existing ∧
      (existing.updatedBy row.2).withoutStamp = existing.withoutStamp) :
    namedFills (upsertRow ledger row) = namedFills ledger := by
  -- what is written under the key of the row shows only if it has an id
  have hwritten : ∀ written : LedgerEntry,
      (row.1.exchangeTradeId ≠ "" → ∃ existing, ledger.get? row.1 = some existing ∧
        written.withoutStamp = existing.withoutStamp) →
      namedFills (ledger.assign row.1 written) = namedFills ledger := by
    intro written hsame
    unfold namedFills
    by_cases hmem : row.1 ∈ ledger.entries.map Prod.fst
    · rw [InsertionDict.entries_assign_of_mem written hmem, InsertionDict.overwrite,
        List.filter_map, List.map_map]
      have hkeys : ((fun e : LedgerKey × LedgerEntry => decide (e.1.exchangeTradeId ≠ "")) ∘
          fun e => if e.1 = row.1 then (e.1, written) else e) =
          fun e => decide (e.1.exchangeTradeId ≠ "") := by
        funext e
        simp only [Function.comp_apply]
        split <;> rfl
      rw [hkeys]
      refine List.map_congr_left fun e he => ?_
      obtain ⟨hin, hnamed⟩ := List.mem_filter.mp he
      simp only [Function.comp_apply]
      by_cases heq : e.1 = row.1
      · rw [if_pos heq]
        obtain ⟨existing, hget, hstamp⟩ := hsame (heq ▸ of_decide_eq_true hnamed)
        have hvalue : e.2 = existing :=
          InsertionDict.eq_of_mem_of_fst_eq (heq ▸ hin) (InsertionDict.get?_eq_some_iff.mp hget)
        rw [hvalue, hstamp]
      · rw [if_neg heq]
    · rw [InsertionDict.entries_assign_of_not_mem written hmem]
      have hunnamed : row.1.exchangeTradeId = "" := by
        by_contra hnamed
        obtain ⟨existing, hget, -⟩ := hsame hnamed
        exact hmem (List.mem_map.mpr ⟨_, InsertionDict.get?_eq_some_iff.mp hget, rfl⟩)
      simp [hunnamed]
  unfold upsertRow
  cases hget : ledger.get? row.1 with
  | none =>
    refine hwritten row.2 fun hnamed => ?_
    obtain ⟨existing, hsome, -⟩ := h hnamed
    exact absurd (hget.symm.trans hsome) (by simp)
  | some existing =>
    refine hwritten _ fun hnamed => ?_
    obtain ⟨existing', hsome, hstamp⟩ := h hnamed
    obtain rfl := Option.some.inj (hget.symm.trans hsome)
    exact ⟨existing, hget, hstamp⟩

/-! ## The ledger and the fills -/

/-- The database, with the fills that the calls so far have stored and the tables they have
attributed them by. -/
structure IngestedDb where
  db : SyncDb := {}
  ingested : List NormalizedTrade := []
  tables : List OriginTables := []

section Ledger

variable {scope : SyncScope} {exchange : ExchangeFills scope}

/-- One call; what is rolled back is not stored. -/
def IngestedDb.step (s : IngestedDb) (call : ExchangeCall exchange) : Option IngestedDb :=
  some
    { db := scope.sync s.db call.run
      ingested := s.ingested ++
        if scope.callEnd call.run s.db = .rolledBack then [] else
          scope.tradesRead call.run s.db
      tables := s.tables ++ [call.run.tables] }

/-- The rows with an id are the stored fills with an id. -/
structure Mirrors (scope : SyncScope) (exchange : ExchangeFills scope) (ledger : TradeLedger)
    (ingested : List NormalizedTrade) (tables : List OriginTables) : Prop where
  from_exchange : ∀ trade ∈ ingested, trade ∈ exchange.fills
  row_of_fill : ∀ trade ∈ ingested, TradeLedger.Has ledger (scope.ledgerKey trade)
  fill_of_row : ∀ key entry, ledger.get? key = some entry → key.exchangeTradeId ≠ "" →
    ∃ trade ∈ ingested, scope.ledgerKey trade = key ∧ entry.Reflects trade ∧
      ∃ used ∈ tables, entry.origin = resolveOrigin used scope.accountId trade

variable {ingested : List NormalizedTrade} {ledger : TradeLedger}

theorem Mirrors.reflects {tables : List OriginTables}
    (h : Mirrors scope exchange ledger ingested tables) {trade : NormalizedTrade}
    (htrade : trade ∈ exchange.fills) (hnamed : trade.id ≠ "") {entry : LedgerEntry}
    (hget : ledger.get? (scope.ledgerKey trade) = some entry) :
    entry.Reflects trade ∧ ∃ used ∈ tables,
      entry.origin = resolveOrigin used scope.accountId trade := by
  obtain ⟨found, hfound, hkey, hreflects⟩ := h.fill_of_row _ _ hget hnamed
  have heq : trade = found :=
    exchange.one_each trade htrade found (h.from_exchange found hfound) hnamed hkey.symm
  exact heq ▸ hreflects

theorem Mirrors.store {tables : List OriginTables}
    (h : Mirrors scope exchange ledger ingested tables) {run : SyncRun} (hrun : run.tables ∈ tables)
    {trade : NormalizedTrade} (htrade : trade ∈ exchange.fills) :
    Mirrors scope exchange (upsertRow ledger (scope.ledgerRow run trade))
      (ingested ++ [trade]) tables where
  from_exchange := by
    intro found hfound
    rcases List.mem_append.mp hfound with hold | hnew
    · exact h.from_exchange found hold
    · exact List.mem_singleton.mp hnew ▸ htrade
  row_of_fill := by
    intro found hfound
    have hhas := has_foldl_upsertRow ledger [scope.ledgerRow run trade] (scope.ledgerKey found)
    rcases List.mem_append.mp hfound with hold | hnew
    · exact hhas.mpr (Or.inl (h.row_of_fill found hold))
    · rw [List.mem_singleton.mp hnew] at hhas ⊢
      exact hhas.mpr (Or.inr (List.mem_singleton_self _))
  fill_of_row := by
    intro key entry hget hnamed
    rw [get?_upsertRow] at hget
    change (if key = scope.ledgerKey trade then _ else _) = _ at hget
    by_cases hkey : key = scope.ledgerKey trade
    · -- the row of the fill itself: new, or updated from the fill it reflects
      subst hkey
      rw [if_pos rfl] at hget
      refine ⟨trade, List.mem_append_right _ (List.mem_singleton_self _), rfl, ?_⟩
      cases hold : ledger.get? (scope.ledgerKey trade) with
      | none =>
        rw [hold] at hget
        obtain rfl := Option.some.inj hget
        exact ⟨reflects_ledgerRow scope run trade, run.tables, hrun, rfl⟩
      | some existing =>
        rw [hold] at hget
        obtain rfl := Option.some.inj hget
        exact ⟨(h.reflects htrade hnamed hold).1.updatedBy.1, run.tables, hrun, rfl⟩
    · rw [if_neg hkey] at hget
      obtain ⟨found, hfound, hrow, hreflects⟩ := h.fill_of_row key entry hget hnamed
      exact ⟨found, List.mem_append_left _ hfound, hrow, hreflects⟩

/-- The call attributes the fill as the row of its key does. -/
def AttributedAs (scope : SyncScope) (tables : OriginTables) (ledger : TradeLedger)
    (trade : NormalizedTrade) : Prop :=
  ∀ entry, ledger.get? (scope.ledgerKey trade) = some entry →
    entry.origin = resolveOrigin tables scope.accountId trade

theorem Mirrors.namedFills_store {tables : List OriginTables}
    (h : Mirrors scope exchange ledger ingested tables) (run : SyncRun) {trade : NormalizedTrade}
    (htrade : trade ∈ exchange.fills)
    (hold : trade.id ≠ "" → trade ∈ ingested ∧ AttributedAs scope run.tables ledger trade) :
    namedFills (upsertRow ledger (scope.ledgerRow run trade)) = namedFills ledger := by
  refine namedFills_upsertRow fun hnamed => ?_
  obtain ⟨hingested, hattributed⟩ := hold hnamed
  obtain ⟨existing, hget⟩ := Option.isSome_iff_exists.mp (h.row_of_fill trade hingested)
  exact ⟨existing, hget,
    (h.reflects htrade hnamed hget).1.updatedBy.2 (hattributed existing hget)⟩

theorem AttributedAs.upsertRow {run : SyncRun} {trade other : NormalizedTrade}
    (htrade : trade ∈ exchange.fills) (hother : other ∈ exchange.fills) (hnamed : other.id ≠ "")
    (h : AttributedAs scope run.tables ledger other) :
    AttributedAs scope run.tables (upsertRow ledger (scope.ledgerRow run trade)) other := by
  intro entry hget
  rw [get?_upsertRow] at hget
  change (if scope.ledgerKey other = scope.ledgerKey trade then _ else _) = _ at hget
  by_cases hkey : scope.ledgerKey other = scope.ledgerKey trade
  · obtain rfl := exchange.one_each other hother trade htrade hnamed hkey
    rw [if_pos rfl] at hget
    cases hold : ledger.get? (scope.ledgerKey other) with
    | none =>
      rw [hold] at hget
      obtain rfl := Option.some.inj hget
      rfl
    | some existing =>
      rw [hold] at hget
      obtain rfl := Option.some.inj hget
      rfl
  · rw [if_neg hkey] at hget
    exact h entry hget

theorem Mirrors.storeAll {tables : List OriginTables} {run : SyncRun} (hrun : run.tables ∈ tables)
    {trades : List NormalizedTrade} (htrades : ∀ trade ∈ trades, trade ∈ exchange.fills)
    (h : Mirrors scope exchange ledger ingested tables) :
    Mirrors scope exchange ((trades.map (scope.ledgerRow run)).foldl upsertRow ledger)
        (ingested ++ trades) tables ∧
      ((∀ trade ∈ trades, trade.id ≠ "" →
          trade ∈ ingested ∧ AttributedAs scope run.tables ledger trade) →
        namedFills ((trades.map (scope.ledgerRow run)).foldl upsertRow ledger) =
          namedFills ledger) := by
  induction trades generalizing ledger ingested with
  | nil => exact ⟨by rwa [List.append_nil], fun _ => rfl⟩
  | cons trade trades ih =>
    obtain ⟨htrade, hrest⟩ := List.forall_mem_cons.mp htrades
    obtain ⟨hmirrors, hsame⟩ := ih hrest (h.store hrun htrade)
    rw [List.append_assoc] at hmirrors
    refine ⟨hmirrors, fun hold => ?_⟩
    obtain ⟨hfirst, hothers⟩ := List.forall_mem_cons.mp hold
    have hafter := hsame fun other hmem hnamed =>
      ⟨List.mem_append_left _ (hothers other hmem hnamed).1,
        (hothers other hmem hnamed).2.upsertRow htrade (hrest other hmem) hnamed⟩
    rw [List.map_cons, List.foldl_cons, hafter]
    exact h.namedFills_store run htrade hfirst

theorem Mirrors.more {tables : List OriginTables}
    (h : Mirrors scope exchange ledger ingested tables) (used : OriginTables) :
    Mirrors scope exchange ledger ingested (tables ++ [used]) where
  from_exchange := h.from_exchange
  row_of_fill := h.row_of_fill
  fill_of_row key entry hget hnamed := by
    obtain ⟨trade, htrade, hkey, hreflects, old, hold, horigin⟩ :=
      h.fill_of_row key entry hget hnamed
    exact ⟨trade, htrade, hkey, hreflects, old, List.mem_append_left _ hold, horigin⟩

/-- **One call**: the ledger goes on mirroring the stored fills, and a call that reads nothing new
and attributes it as before changes no row with an id but for the time of ingestion. -/
theorem mirrors_step {s s' : IngestedDb} {call : ExchangeCall exchange}
    (h : Mirrors scope exchange s.db.ledger s.ingested s.tables) (hs : s.step call = some s') :
    Mirrors scope exchange s'.db.ledger s'.ingested s'.tables ∧
      ((∀ trade ∈ scope.tradesRead call.run s.db, trade.id ≠ "" →
          trade ∈ s.ingested ∧ AttributedAs scope call.run.tables s.db.ledger trade) →
        namedFills s'.db.ledger = namedFills s.db.ledger) := by
  obtain rfl := Option.some.inj hs
  have hread : ∀ trade ∈ scope.tradesRead call.run s.db, trade ∈ exchange.fills := by
    intro trade htrade
    obtain ⟨page, request, trades, hanswer, hmem⟩ := SyncScope.tradesRead_mem htrade
    exact call.answers page request trades hanswer trade hmem
  have hstored := (h.more call.run.tables).storeAll
    (List.mem_append_right _ (List.mem_singleton_self call.run.tables)) hread
  have hsync := scope.sync_eq call.run s.db
  cases hend : scope.callEnd call.run s.db with
  | rolledBack =>
    rw [hend] at hsync
    rw [hsync, if_pos rfl, List.append_nil]
    exact ⟨h.more _, fun _ => rfl⟩
  | interrupted =>
    rw [hend] at hsync
    rw [hsync]
    exact hstored
  | finished =>
    rw [hend] at hsync
    rw [hsync]
    exact hstored

theorem mirrors_initial : Mirrors scope exchange InsertionDict.empty [] [] where
  from_exchange _ h := absurd h List.not_mem_nil
  row_of_fill _ h := absurd h List.not_mem_nil
  fill_of_row _ _ h := absurd h (by simp)

theorem mirrors_run {calls : List (ExchangeCall exchange)} {s : IngestedDb}
    (hrun : run IngestedDb.step {} calls = some s) :
    Mirrors scope exchange s.db.ledger s.ingested s.tables :=
  run_invariant IngestedDb.step
    (I := fun s => Mirrors scope exchange s.db.ledger s.ingested s.tables)
    (fun _ _ _ h hs => (mirrors_step h hs).1) mirrors_initial hrun

end Ledger

end AdviserConstructor
