import AdviserConstructor.Position.TaskParams

/-!
# Synchronizing the trade ledger with the exchange

Two routines copy the fills of a futures symbol into `exchange_trade_ledger`: the per-config one
(`syncSymbolTrades`, a window of some days at first) and the account-wide one
(`syncAccountSymbolTrades`, the full history at first).  They share one row of
`exchange_trade_sync_state`, with the newest trade time and the trade id to page from.

Both read pages until the exchange has no more, upsert every page and move the row at the end.  The
loop is the same up to one difference: the account-wide routine skips fills without an id.  The two
end differently when a request fails with an exchange error: the per-config routine raises, and its
callers roll back; the account-wide one commits the pages it has stored and leaves the cursor where
it was.

The exchange is the argument `fetch`: what it answers to the n-th request of a run.  Trade times are
seconds, as rationals.

* `syncPages_eq` reads the loop as a fold over the pages that the run reads (`readPages`), which do
  not depend on the database;
* `storePages_eq` reads the fold as one over the fills of these pages.
-/

namespace AdviserConstructor

open DecimalText

/-! ## Fills -/

/-- The raw payload of a fill, with its `info` part where that is a dictionary. -/
structure RawTrade where
  fields : TaskParams := .empty
  info : Option TaskParams := none
  deriving DecidableEq

/-- `NormalizedTrade`. -/
structure NormalizedTrade where
  id : String
  orderId : Option String := none
  symbol : String := ""
  side : String
  amount : ℚ
  price : ℚ
  cost : Option ℚ := none
  feeCost : ℚ := 0
  feeCurrency : Option String := none
  timestamp : Option ℚ := none
  raw : RawTrade := {}
  deriving DecidableEq

/-- `extract_realized_pnl`: the `info` part is asked first. -/
def extractRealizedPnl (raw : RawTrade) : Option ℚ :=
  (raw.info.toList ++ [raw.fields]).findSome? fun source =>
    (source.lookup "realizedPnl").toFloat?

/-- A value that is a string with something in it. -/
def PyVal.nonEmptyStr : PyVal → Option String
  | .str s => if s ≠ "" then some s else Option.none
  | _ => Option.none

/-- `_extract_client_order_id`. -/
def extractClientOrderId (trade : NormalizedTrade) : Option String :=
  let direct :=
    if (trade.raw.fields.lookup "clientOrderId").truthy then
      trade.raw.fields.lookup "clientOrderId"
    else trade.raw.fields.lookup "orderLinkId"
  direct.nonEmptyStr.or <|
    trade.raw.info.bind fun info =>
      ["clientOrderId", "orderLinkId", "origClientOrderId"].findSome? fun key =>
        (info.lookup key).nonEmptyStr

/-! ## Whose fill it is -/

/-- A row of `exchange_order_metadata`, as the lookup reads it. -/
structure OrderMetadata where
  accountId : ℕ
  exchangeOrderId : Option String
  clientOrderId : Option String
  source : String
  configId : Option ℕ
  positionId : Option ℕ
  historyId : Option ℕ

/-- A row of `auto_trade_positions`, as the lookup reads it. -/
structure PositionOrders where
  id : ℕ
  accountId : ℕ
  configId : Option ℕ
  openOrderId : Option String
  closeOrderId : Option String
  openHistoryId : Option ℕ
  closeHistoryId : Option ℕ

/-- The two tables that attribute a fill, in the order of their ids. -/
structure OriginTables where
  metadata : List OrderMetadata := []
  positions : List PositionOrders := []

/-- `_OriginResolution`. -/
structure OriginResolution where
  origin : String
  confidence : String
  configId : Option ℕ
  positionId : Option ℕ
  openHistoryId : Option ℕ
  closeHistoryId : Option ℕ
  deriving DecidableEq, Repr

/-- A column that is not `NULL` and has the value asked for. -/
def columnIs (column value : Option String) : Bool := column.isSome && column = value

/-- `_resolve_origin`: the newest metadata row of the order, else the newest position that was
opened or closed with it. -/
def resolveOrigin (tables : OriginTables) (accountId : ℕ) (trade : NormalizedTrade) :
    OriginResolution :=
  let clientOrderId := extractClientOrderId trade
  let named := (trade.orderId.any (· ≠ "")) || clientOrderId.any (· ≠ "")
  let metadata :=
    if named then
      tables.metadata.reverse.find? fun row =>
        row.accountId = accountId &&
          (columnIs row.exchangeOrderId trade.orderId || columnIs row.clientOrderId clientOrderId)
    else none
  match metadata with
  | some row =>
      { origin := if "auto_trade_".toList <+: row.source.toList then "platform" else "external"
        confidence := "strong"
        configId := row.configId
        positionId := row.positionId
        openHistoryId := if row.source = "auto_trade_open" then row.historyId else none
        closeHistoryId := if row.source = "auto_trade_close" then row.historyId else none }
  | none =>
      let position := tables.positions.reverse.find? fun row =>
        row.accountId = accountId &&
          (columnIs row.openOrderId trade.orderId || columnIs row.closeOrderId trade.orderId ||
            columnIs row.openOrderId clientOrderId || columnIs row.closeOrderId clientOrderId)
      match position with
      | some row =>
          { origin := "platform"
            confidence := "weak"
            configId := row.configId
            positionId := some row.id
            openHistoryId := row.openHistoryId
            closeHistoryId := row.closeHistoryId }
      | none => ⟨"external", "none", none, none, none, none⟩

/-! ## The ledger -/

/-- The columns of `uq_exchange_trade_ledger_trade_identity`. -/
structure LedgerKey where
  accountId : ℕ
  exchangeName : String
  marketType : String
  symbol : String
  exchangeTradeId : String
  deriving DecidableEq, Repr

/-- The other columns of a row of `exchange_trade_ledger`. -/
structure LedgerEntry where
  userId : ℕ
  exchangeOrderId : Option String
  clientOrderId : Option String
  side : String
  price : ℚ
  amount : ℚ
  cost : Option ℚ
  feeCost : ℚ
  feeCurrency : Option String
  tradedAt : ℚ
  ingestedAt : ℚ
  origin : OriginResolution
  realizedPnl : Option ℚ
  rawTrade : RawTrade
  deriving DecidableEq

/-- The table, by the unique constraint. -/
abbrev TradeLedger := InsertionDict LedgerKey LedgerEntry

/-- The `ON CONFLICT` update: the columns of `update_columns`, and no others. -/
def LedgerEntry.updatedBy (existing excluded : LedgerEntry) : LedgerEntry :=
  { existing with
    exchangeOrderId := excluded.exchangeOrderId
    clientOrderId := excluded.clientOrderId
    cost := excluded.cost
    feeCost := excluded.feeCost
    feeCurrency := excluded.feeCurrency
    realizedPnl := excluded.realizedPnl
    origin := excluded.origin
    rawTrade := excluded.rawTrade
    ingestedAt := excluded.ingestedAt }

/-- Insert a row, or update the row with its key. -/
def upsertRow (ledger : TradeLedger) (row : LedgerKey × LedgerEntry) : TradeLedger :=
  match ledger.get? row.1 with
  | some existing => ledger.assign row.1 (existing.updatedBy row.2)
  | none => ledger.assign row.1 row.2

/-- The database behind the session. -/
inductive Dialect where
  | sqlite | postgresql
  deriving DecidableEq, Repr

/-- `_upsert_ledger_rows`; PostgreSQL refuses a statement that meets one row twice. -/
def upsertLedgerRows (dialect : Dialect) (ledger : TradeLedger)
    (rows : List (LedgerKey × LedgerEntry)) : Option TradeLedger :=
  if dialect = .postgresql ∧ ¬(rows.map Prod.fst).Nodup then none
  else some (rows.foldl upsertRow ledger)

theorem get?_upsertRow (ledger : TradeLedger) (row : LedgerKey × LedgerEntry) (key : LedgerKey) :
    (upsertRow ledger row).get? key =
      if key = row.1 then
        some ((ledger.get? key).elim row.2 fun existing => existing.updatedBy row.2)
      else ledger.get? key := by
  unfold upsertRow
  by_cases hkey : key = row.1
  · rw [if_pos hkey, hkey]
    cases ledger.get? row.1 with
    | none => exact InsertionDict.get?_assign_self ..
    | some existing => exact InsertionDict.get?_assign_self ..
  · rw [if_neg hkey]
    cases ledger.get? row.1 with
    | none => exact InsertionDict.get?_assign_of_ne hkey
    | some existing => exact InsertionDict.get?_assign_of_ne hkey

def TradeLedger.Has (ledger : TradeLedger) (key : LedgerKey) : Prop :=
  (ledger.get? key).isSome = true

theorem has_foldl_upsertRow (ledger : TradeLedger) (rows : List (LedgerKey × LedgerEntry))
    (key : LedgerKey) :
    TradeLedger.Has (rows.foldl upsertRow ledger) key ↔
      TradeLedger.Has ledger key ∨ key ∈ rows.map Prod.fst := by
  induction rows generalizing ledger with
  | nil => simp
  | cons row rows ih =>
    have hone : TradeLedger.Has (upsertRow ledger row) key ↔
        TradeLedger.Has ledger key ∨ key = row.1 := by
      unfold TradeLedger.Has
      rw [get?_upsertRow]
      by_cases hkey : key = row.1 <;> simp [hkey]
    rw [List.foldl_cons, ih, hone, List.map_cons, List.mem_cons, or_assoc]

/-! ## One run -/

/-- What a service instance and its arguments fix. -/
structure SyncScope where
  userId : ℕ
  accountId : ℕ
  exchangeName : String
  symbol : String
  marketType : String := "futures"
  exchangeDefaultPageLimit : ℕ := 100
  dialect : Dialect := .postgresql

/-- `_page_limit`. -/
def SyncScope.pageLimit (scope : SyncScope) : ℕ := max 10 (min scope.exchangeDefaultPageLimit 200)

/-- A row of `exchange_trade_sync_state`. -/
structure SyncState where
  lastTradeTsMs : ℤ := 0
  lastTradeId : Option String := none
  lastSyncAt : Option ℚ := none
  lastBackfillAt : Option ℚ := none
  errorCount : ℕ := 0
  deriving DecidableEq, Repr

/-- The rows of one account, symbol and market type. -/
structure SyncDb where
  state : Option SyncState := none
  ledger : TradeLedger := .empty

/-- A request for a page. -/
structure FetchRequest where
  since : Option ℚ
  limit : ℕ
  cursor : Option String
  deriving DecidableEq, Repr

/-- What comes back. -/
inductive FetchAnswer where
  | page (trades : List NormalizedTrade)
  /-- an `ExchangeServiceError` -/
  | exchangeError (code message : String)
  | raised

/-- `_next_futures_trades_cursor`. -/
def nextFuturesTradesCursor (trades : List NormalizedTrade) (previousCursor : Option String) :
    Option String :=
  match trades.getLast? with
  | none => none
  | some trade =>
      if trade.id = "" then none
      else if previousCursor = some trade.id then none
      else some trade.id

/-- The two routines. -/
inductive SyncKind where
  | symbolTrades | accountSymbolTrades
  deriving DecidableEq, Repr

/-- One call: when it is made, the window of the per-config routine, what the exchange answers to
the requests, and the tables that attribute the fills. -/
structure SyncRun where
  kind : SyncKind
  now : ℚ
  backfillDays : ℕ := 30
  fetch : ℕ → FetchRequest → FetchAnswer
  tables : OriginTables := {}

/-- The variables of the paging loop. -/
structure SyncLoop where
  ledger : TradeLedger
  insertedOrUpdated : ℕ := 0
  maxTsMs : ℤ
  maxTradeId : Option String

/-- How the loop is left. -/
inductive LoopOutcome where
  | finished (loop : SyncLoop)
  | exchangeError (loop : SyncLoop) (code message : String)
  | raised

/-- `_to_utc(trade.timestamp) or now`. -/
def NormalizedTrade.tradedAt (trade : NormalizedTrade) (now : ℚ) : ℚ := trade.timestamp.getD now

/-- `int(traded_at.timestamp() * 1000)`. -/
def NormalizedTrade.tradedTsMs (trade : NormalizedTrade) (now : ℚ) : ℤ :=
  truncate (trade.tradedAt now * 1000)

/-- `trade.id > max_trade_id`, a comparison of texts. -/
def laterTradeId (maxTradeId : Option String) (id : String) : Option String :=
  if id ≠ "" ∧ maxTradeId.all (textBefore · id) = true then some id else maxTradeId

def SyncLoop.noteTrade (now : ℚ) (loop : SyncLoop) (trade : NormalizedTrade) : SyncLoop :=
  { loop with
    maxTsMs := if loop.maxTsMs < trade.tradedTsMs now then trade.tradedTsMs now else loop.maxTsMs
    maxTradeId := laterTradeId loop.maxTradeId trade.id }

namespace SyncScope

variable (scope : SyncScope)

/-- The key of a fill: `trade.symbol or symbol`. -/
def ledgerKey (trade : NormalizedTrade) : LedgerKey where
  accountId := scope.accountId
  exchangeName := scope.exchangeName
  marketType := scope.marketType
  symbol := if trade.symbol = "" then scope.symbol else trade.symbol
  exchangeTradeId := trade.id

def ledgerRow (run : SyncRun) (trade : NormalizedTrade) : LedgerKey × LedgerEntry :=
  (scope.ledgerKey trade,
    { userId := scope.userId
      exchangeOrderId := trade.orderId
      clientOrderId := extractClientOrderId trade
      side := trade.side
      price := trade.price
      amount := trade.amount
      cost := trade.cost
      feeCost := trade.feeCost
      feeCurrency := trade.feeCurrency
      tradedAt := trade.tradedAt run.now
      ingestedAt := run.now
      origin := resolveOrigin run.tables scope.accountId trade
      realizedPnl := extractRealizedPnl trade.raw
      rawTrade := trade.raw })

/-- The fills of a page that a routine stores: the account-wide one skips those without an id. -/
def storedTrades (kind : SyncKind) (trades : List NormalizedTrade) : List NormalizedTrade :=
  match kind with
  | .symbolTrades => trades
  | .accountSymbolTrades => trades.filter fun trade => trade.id ≠ ""

/-- A page: every fill is noted, and their rows are upserted in one statement. -/
def storePage (run : SyncRun) (loop : SyncLoop) (trades : List NormalizedTrade) :
    Option SyncLoop :=
  let stored := storedTrades run.kind trades
  let loop := stored.foldl (SyncLoop.noteTrade run.now) loop
  (upsertLedgerRows scope.dialect loop.ledger (stored.map (scope.ledgerRow run))).map fun ledger =>
    { loop with ledger := ledger, insertedOrUpdated := loop.insertedOrUpdated + stored.length }

/-- The paging loop of both routines, for at most so many pages. -/
def syncPages (run : SyncRun) (since : Option ℚ) :
    ℕ → ℕ → Option String → SyncLoop → LoopOutcome
  | 0, _, _, loop => .finished loop
  | left + 1, page, cursor, loop =>
      match run.fetch page ⟨since, scope.pageLimit, cursor⟩ with
      | .exchangeError code message => .exchangeError loop code message
      | .raised => .raised
      | .page [] => .finished loop
      | .page (trade :: trades) =>
          match scope.storePage run loop (trade :: trades) with
          | none => .raised
          | some loop' =>
              match nextFuturesTradesCursor (trade :: trades) cursor with
              | none => .finished loop'
              | some next =>
                  if some next = cursor then .finished loop'
                  else syncPages run since left (page + 1) (some next) loop'

end SyncScope

/-- `_SYNC_OVERLAP_MS`. -/
def syncOverlapMs : ℤ := 2 * 60 * 1000

/-- Two minutes before the newest known trade. -/
def SyncState.overlapStart (state : SyncState) : ℚ :=
  (max 0 (state.lastTradeTsMs - syncOverlapMs) : ℤ) / 1000

/-- Where `sync_symbol_trades` starts to read: the window of its first run, the overlap later, and
half a day as long as no trade is known. -/
def SyncState.symbolSince (state : SyncState) (backfillDays : ℕ) (now : ℚ) : ℚ :=
  if state.lastBackfillAt = none then now - backfillDays * 86400
  else if 0 < state.lastTradeTsMs then state.overlapStart
  else now - 12 * 3600

/-- The first call of `sync_symbol_trades` notes when it was made. -/
def SyncState.backfilled (state : SyncState) (now : ℚ) : SyncState :=
  if state.lastBackfillAt = none then { state with lastBackfillAt := some now } else state

@[simp] theorem SyncState.backfilled_lastTradeTsMs (state : SyncState) (now : ℚ) :
    (state.backfilled now).lastTradeTsMs = state.lastTradeTsMs := by
  unfold backfilled
  split <;> rfl

/-- The row as both routines leave it after their last page. -/
def SyncState.advanced (state : SyncState) (loop : SyncLoop) (now : ℚ) : SyncState :=
  { state with
    lastTradeTsMs := max state.lastTradeTsMs loop.maxTsMs
    lastTradeId := loop.maxTradeId
    lastSyncAt := some now
    errorCount := 0 }

/-- Where a run starts to read, and how many pages it may read. -/
structure SyncStart where
  since : Option ℚ
  cursor : Option String
  maxPages : ℕ
  deriving DecidableEq, Repr

/-- The start of `sync_symbol_trades`. -/
def SyncState.symbolStart (state : SyncState) (backfillDays : ℕ) (now : ℚ) : SyncStart :=
  ⟨some (state.symbolSince backfillDays now), state.lastTradeId, 20⟩

/-- The start of `sync_account_symbol_trades`: incremental once a trade is known, the full history
from the exchange origin before. -/
def SyncState.accountStart (state : SyncState) : SyncStart :=
  if 0 < state.lastTradeTsMs then ⟨some state.overlapStart, state.lastTradeId, 20⟩
  else ⟨none, none, 200⟩

namespace SyncDb

/-- `_get_or_create_sync_state`. -/
def syncState (db : SyncDb) : SyncState := db.state.getD {}

/-- The loop's variables before the first page. -/
def loopStart (db : SyncDb) : SyncLoop where
  ledger := db.ledger
  maxTsMs := db.syncState.lastTradeTsMs
  maxTradeId := db.syncState.lastTradeId

end SyncDb

namespace SyncScope

variable (scope : SyncScope)

/-- `sync_symbol_trades`; `none` when it raises. -/
def syncSymbolTrades (run : SyncRun) (db : SyncDb) : Option SyncDb :=
  let state := db.syncState
  let start := state.symbolStart run.backfillDays run.now
  match scope.syncPages run start.since start.maxPages 0 start.cursor db.loopStart with
  | .finished loop => some ⟨some ((state.backfilled run.now).advanced loop run.now), loop.ledger⟩
  | .exchangeError .. => none
  | .raised => none

/-- `sync_account_symbol_trades`; `none` when it raises. -/
def syncAccountSymbolTrades (run : SyncRun) (db : SyncDb) : Option SyncDb :=
  let state := db.syncState
  let start := state.accountStart
  match scope.syncPages run start.since start.maxPages 0 start.cursor db.loopStart with
  | .finished loop => some ⟨some (state.advanced loop run.now), loop.ledger⟩
  | .exchangeError loop .. =>
      some
        ⟨some { state with errorCount := state.errorCount + 1, lastSyncAt := some run.now },
          loop.ledger⟩
  | .raised => none

/-- A call with its caller, who rolls the session back when the call raises. -/
def sync (db : SyncDb) (run : SyncRun) : SyncDb :=
  match run.kind with
  | .symbolTrades => (scope.syncSymbolTrades run db).getD db
  | .accountSymbolTrades => (scope.syncAccountSymbolTrades run db).getD db

end SyncScope

/-! ## The pages that a run reads -/

/-- Why a run reads no further page. -/
inductive ReadEnd where
  | exhausted
  | capped
  | exchangeError (code message : String)
  | raised
  deriving DecidableEq, Repr

/-- The pages that a run reads, and why it reads no more. -/
def readPages (fetch : ℕ → FetchRequest → FetchAnswer) (since : Option ℚ) (limit : ℕ) :
    ℕ → ℕ → Option String → List (List NormalizedTrade) × ReadEnd
  | 0, _, _ => ([], .capped)
  | left + 1, page, cursor =>
      match fetch page ⟨since, limit, cursor⟩ with
      | .exchangeError code message => ([], .exchangeError code message)
      | .raised => ([], .raised)
      | .page [] => ([], .exhausted)
      | .page (trade :: trades) =>
          match nextFuturesTradesCursor (trade :: trades) cursor with
          | none => ([trade :: trades], .exhausted)
          | some next =>
              let rest := readPages fetch since limit left (page + 1) (some next)
              ((trade :: trades) :: rest.1, rest.2)

/-- What the loop makes of the end of the reading. -/
def ReadEnd.outcome (loop : SyncLoop) : ReadEnd → LoopOutcome
  | .exhausted | .capped => .finished loop
  | .exchangeError code message => .exchangeError loop code message
  | .raised => .raised

theorem nextFuturesTradesCursor_ne {trades : List NormalizedTrade} {cursor : Option String}
    {next : String} (h : nextFuturesTradesCursor trades cursor = some next) :
    some next ≠ cursor := by
  unfold nextFuturesTradesCursor at h
  split at h
  · cases h
  · split at h
    · cases h
    · split at h
      · cases h
      · rename_i hne
        rw [← Option.some.inj h]
        exact Ne.symm hne

namespace SyncScope

variable (scope : SyncScope) (run : SyncRun)

/-- **The loop stores the pages that the run reads**, one after the other; what it reads does not
depend on what it stores. -/
theorem syncPages_eq (since : Option ℚ) (left page : ℕ) (cursor : Option String)
    (loop : SyncLoop) :
    scope.syncPages run since left page cursor loop =
      match (readPages run.fetch since scope.pageLimit left page cursor).1.foldlM
          (scope.storePage run) loop with
      | none => .raised
      | some loop' =>
          (readPages run.fetch since scope.pageLimit left page cursor).2.outcome loop' := by
  induction left generalizing page cursor loop with
  | zero => rfl
  | succ left ih =>
    rw [syncPages, readPages]
    cases hanswer : run.fetch page ⟨since, scope.pageLimit, cursor⟩ with
    | exchangeError code message => rfl
    | raised => rfl
    | page trades =>
      cases trades with
      | nil => rfl
      | cons trade trades =>
        dsimp only
        cases hnext : nextFuturesTradesCursor (trade :: trades) cursor with
        | none =>
          rw [List.foldlM_cons]
          cases scope.storePage run loop (trade :: trades) <;> rfl
        | some next =>
          rw [List.foldlM_cons]
          cases hstore : scope.storePage run loop (trade :: trades) with
          | none => rfl
          | some loop' =>
            dsimp only
            rw [if_neg (nextFuturesTradesCursor_ne hnext), ih]
            rfl

/-- The fills of the pages that the routine stores. -/
def keptTrades (pages : List (List NormalizedTrade)) : List NormalizedTrade :=
  pages.flatMap (storedTrades run.kind)

/-- No statement meets a row twice, or the database does not mind. -/
def PagesFit (pages : List (List NormalizedTrade)) : Prop :=
  ∀ page ∈ pages, scope.dialect = .postgresql →
    ((storedTrades run.kind page).map scope.ledgerKey).Nodup

instance (pages : List (List NormalizedTrade)) : Decidable (scope.PagesFit run pages) :=
  inferInstanceAs (Decidable (∀ page ∈ pages, scope.dialect = .postgresql →
    ((storedTrades run.kind page).map scope.ledgerKey).Nodup))

/-- The loop's variables after some fills. -/
def storeTrades (loop : SyncLoop) (trades : List NormalizedTrade) : SyncLoop where
  ledger := (trades.map (scope.ledgerRow run)).foldl upsertRow loop.ledger
  insertedOrUpdated := loop.insertedOrUpdated + trades.length
  maxTsMs := (trades.foldl (SyncLoop.noteTrade run.now) loop).maxTsMs
  maxTradeId := (trades.foldl (SyncLoop.noteTrade run.now) loop).maxTradeId

theorem noteTrades_ledger (now : ℚ) (loop : SyncLoop) (trades : List NormalizedTrade) :
    (trades.foldl (SyncLoop.noteTrade now) loop).ledger = loop.ledger ∧
      (trades.foldl (SyncLoop.noteTrade now) loop).insertedOrUpdated =
        loop.insertedOrUpdated := by
  induction trades generalizing loop with
  | nil => exact ⟨rfl, rfl⟩
  | cons trade trades ih =>
    obtain ⟨hledger, hcount⟩ := ih (loop.noteTrade now trade)
    exact ⟨hledger, hcount⟩

theorem ledgerRow_keys (trades : List NormalizedTrade) :
    (trades.map (scope.ledgerRow run)).map Prod.fst = trades.map scope.ledgerKey := by
  rw [List.map_map]
  rfl

theorem pagesFit_cons (page : List NormalizedTrade) (pages : List (List NormalizedTrade)) :
    scope.PagesFit run (page :: pages) ↔ scope.PagesFit run [page] ∧ scope.PagesFit run pages := by
  unfold PagesFit
  rw [List.forall_mem_cons, List.forall_mem_singleton]

theorem storePage_eq (loop : SyncLoop) (page : List NormalizedTrade) :
    scope.storePage run loop page =
      if scope.PagesFit run [page] then
        some (scope.storeTrades run loop (storedTrades run.kind page)) else none := by
  obtain ⟨hledger, hcount⟩ := noteTrades_ledger run.now loop (storedTrades run.kind page)
  have hfit : scope.PagesFit run [page] ↔ ¬(scope.dialect = .postgresql ∧
      ¬((storedTrades run.kind page).map scope.ledgerKey).Nodup) := by
    rw [PagesFit, List.forall_mem_singleton, not_and_not_right]
  unfold storePage upsertLedgerRows storeTrades
  dsimp only
  rw [ledgerRow_keys, hledger, hcount]
  by_cases hdup : scope.dialect = .postgresql ∧
      ¬((storedTrades run.kind page).map scope.ledgerKey).Nodup
  · rw [if_pos hdup, if_neg (fun h => hfit.mp h hdup)]
    rfl
  · rw [if_neg hdup, if_pos (hfit.mpr hdup)]
    rfl

theorem storeTrades_append (loop : SyncLoop) (trades trades' : List NormalizedTrade) :
    scope.storeTrades run (scope.storeTrades run loop trades) trades' =
      scope.storeTrades run loop (trades ++ trades') := by
  have hnoted : ∀ (trades : List NormalizedTrade) (a b : SyncLoop),
      a.maxTsMs = b.maxTsMs → a.maxTradeId = b.maxTradeId →
        (trades.foldl (SyncLoop.noteTrade run.now) a).maxTsMs =
            (trades.foldl (SyncLoop.noteTrade run.now) b).maxTsMs ∧
          (trades.foldl (SyncLoop.noteTrade run.now) a).maxTradeId =
            (trades.foldl (SyncLoop.noteTrade run.now) b).maxTradeId := by
    intro trades
    induction trades with
    | nil => exact fun a b hts hid => ⟨hts, hid⟩
    | cons trade trades ih =>
      intro a b hts hid
      refine ih _ _ ?_ ?_
      · simp only [SyncLoop.noteTrade, hts]
      · simp only [SyncLoop.noteTrade, hid]
  obtain ⟨hts, hid⟩ := hnoted trades' (scope.storeTrades run loop trades)
    (trades.foldl (SyncLoop.noteTrade run.now) loop) rfl rfl
  rw [storeTrades, hts, hid]
  simp only [storeTrades, List.map_append, List.foldl_append, List.length_append, Nat.add_assoc]

/-- The pages are stored as one list of fills. -/
theorem storePages_eq (loop : SyncLoop) (pages : List (List NormalizedTrade)) :
    pages.foldlM (scope.storePage run) loop =
      if scope.PagesFit run pages then
        some (scope.storeTrades run loop (keptTrades run pages)) else none := by
  induction pages generalizing loop with
  | nil =>
    rfl
  | cons page pages ih =>
    rw [List.foldlM_cons, storePage_eq]
    by_cases hpage : scope.PagesFit run [page]
    · rw [if_pos hpage]
      refine (ih _).trans ?_
      rw [storeTrades_append]
      by_cases hpages : scope.PagesFit run pages
      · rw [if_pos hpages, if_pos ((scope.pagesFit_cons run page pages).mpr ⟨hpage, hpages⟩)]
        rfl
      · rw [if_neg hpages, if_neg fun h => hpages ((scope.pagesFit_cons run page pages).mp h).2]
    · rw [if_neg hpage, if_neg fun h => hpage ((scope.pagesFit_cons run page pages).mp h).1]
      rfl

end SyncScope

/-! ## What a call does -/

def SyncRun.start (run : SyncRun) (db : SyncDb) : SyncStart :=
  match run.kind with
  | .symbolTrades => db.syncState.symbolStart run.backfillDays run.now
  | .accountSymbolTrades => db.syncState.accountStart

theorem SyncRun.start_symbolTrades {run : SyncRun} (h : run.kind = .symbolTrades) (db : SyncDb) :
    run.start db = db.syncState.symbolStart run.backfillDays run.now := by
  rw [SyncRun.start, h]

theorem SyncRun.start_accountSymbolTrades {run : SyncRun} (h : run.kind = .accountSymbolTrades)
    (db : SyncDb) : run.start db = db.syncState.accountStart := by
  rw [SyncRun.start, h]

/-- The pages that a call reads, and why it reads no more. -/
def SyncScope.reading (scope : SyncScope) (run : SyncRun) (db : SyncDb) :
    List (List NormalizedTrade) × ReadEnd :=
  readPages run.fetch (run.start db).since scope.pageLimit (run.start db).maxPages 0
    (run.start db).cursor

/-- The fills that a call stores, if it is not rolled back. -/
def SyncScope.tradesRead (scope : SyncScope) (run : SyncRun) (db : SyncDb) :
    List NormalizedTrade :=
  SyncScope.keptTrades run (scope.reading run db).1

/-- The row of the sync state, as a call leaves it after its last page. -/
def SyncRun.finalState (run : SyncRun) (db : SyncDb) (loop : SyncLoop) : SyncState :=
  match run.kind with
  | .symbolTrades => (db.syncState.backfilled run.now).advanced loop run.now
  | .accountSymbolTrades => db.syncState.advanced loop run.now

/-- How a call ends. -/
inductive CallEnd where
  /-- the last page is stored and the row moves -/
  | finished
  /-- the account-wide routine keeps the pages it has stored and leaves the cursor -/
  | interrupted
  | rolledBack
  deriving DecidableEq, Repr

/-- How a call ends, from what it reads. -/
def SyncScope.callEnd (scope : SyncScope) (run : SyncRun) (db : SyncDb) : CallEnd :=
  if scope.PagesFit run (scope.reading run db).1 then
    match (scope.reading run db).2, run.kind with
    | .exhausted, _ | .capped, _ => .finished
    | .exchangeError .., .accountSymbolTrades => .interrupted
    | .exchangeError .., .symbolTrades | .raised, _ => .rolledBack
  else .rolledBack

/-- **What a call does**, in the three ways it can end. -/
theorem SyncScope.sync_eq (scope : SyncScope) (run : SyncRun) (db : SyncDb) :
    scope.sync db run =
      let loop := scope.storeTrades run db.loopStart (scope.tradesRead run db)
      match scope.callEnd run db with
      | .finished => ⟨some (run.finalState db loop), loop.ledger⟩
      | .interrupted =>
          ⟨some
            { db.syncState with
              errorCount := db.syncState.errorCount + 1
              lastSyncAt := some run.now },
            loop.ledger⟩
      | .rolledBack => db := by
  have hpages := scope.syncPages_eq run (run.start db).since (run.start db).maxPages 0
    (run.start db).cursor db.loopStart
  rw [scope.storePages_eq] at hpages
  change scope.syncPages run _ _ 0 _ _ = match if scope.PagesFit run (scope.reading run db).1 then
    some (scope.storeTrades run db.loopStart (scope.tradesRead run db)) else none with
    | none => .raised
    | some loop' => (scope.reading run db).2.outcome loop' at hpages
  unfold sync callEnd
  cases hkind : run.kind with
  | symbolTrades =>
    rw [SyncRun.start_symbolTrades hkind] at hpages
    have hfinal : run.finalState db = fun loop =>
        (db.syncState.backfilled run.now).advanced loop run.now := by
      funext loop
      rw [SyncRun.finalState, hkind]
    rw [syncSymbolTrades, hpages, hfinal]
    by_cases hfit : scope.PagesFit run (scope.reading run db).1
    · rw [if_pos hfit, if_pos hfit]
      cases (scope.reading run db).2 <;> rfl
    · rw [if_neg hfit, if_neg hfit]
      rfl
  | accountSymbolTrades =>
    rw [SyncRun.start_accountSymbolTrades hkind] at hpages
    have hfinal : run.finalState db = fun loop => db.syncState.advanced loop run.now := by
      funext loop
      rw [SyncRun.finalState, hkind]
    rw [syncAccountSymbolTrades, hpages, hfinal]
    by_cases hfit : scope.PagesFit run (scope.reading run db).1
    · rw [if_pos hfit, if_pos hfit]
      cases (scope.reading run db).2 <;> rfl
    · rw [if_neg hfit, if_neg hfit]
      rfl

theorem SyncScope.sync_ledger (scope : SyncScope) (run : SyncRun) (db : SyncDb) :
    (scope.sync db run).ledger =
      if scope.callEnd run db = .rolledBack then db.ledger
      else (scope.storeTrades run db.loopStart (scope.tradesRead run db)).ledger := by
  rw [sync_eq]
  cases scope.callEnd run db <;> rfl

theorem SyncScope.sync_cursor (scope : SyncScope) (run : SyncRun) (db : SyncDb) :
    (scope.sync db run).syncState.lastTradeId =
        (if scope.callEnd run db = .finished then
          (scope.storeTrades run db.loopStart (scope.tradesRead run db)).maxTradeId
        else db.syncState.lastTradeId) ∧
      (scope.sync db run).syncState.lastTradeTsMs =
        (if scope.callEnd run db = .finished then
          max db.syncState.lastTradeTsMs
            (scope.storeTrades run db.loopStart (scope.tradesRead run db)).maxTsMs
        else db.syncState.lastTradeTsMs) := by
  rw [sync_eq]
  cases scope.callEnd run db with
  | finished =>
    unfold SyncRun.finalState
    cases run.kind with
    | symbolTrades =>
      refine ⟨rfl, ?_⟩
      rw [← db.syncState.backfilled_lastTradeTsMs run.now]
      rfl
    | accountSymbolTrades => exact ⟨rfl, rfl⟩
  | interrupted => exact ⟨rfl, rfl⟩
  | rolledBack => exact ⟨rfl, rfl⟩

/-! ## What a call stores -/

theorem readPages_mem {fetch : ℕ → FetchRequest → FetchAnswer} {since : Option ℚ} {limit : ℕ}
    {left page : ℕ} {cursor : Option String} {trades : List NormalizedTrade}
    (h : trades ∈ (readPages fetch since limit left page cursor).1) :
    ∃ page request, fetch page request = .page trades := by
  induction left generalizing page cursor with
  | zero => exact absurd h List.not_mem_nil
  | succ left ih =>
    rw [readPages] at h
    cases hanswer : fetch page ⟨since, limit, cursor⟩ with
    | exchangeError code message =>
      rw [hanswer] at h
      cases h
    | raised =>
      rw [hanswer] at h
      cases h
    | page found =>
      rw [hanswer] at h
      cases found with
      | nil => exact absurd h List.not_mem_nil
      | cons trade rest =>
        dsimp only at h
        cases hnext : nextFuturesTradesCursor (trade :: rest) cursor with
        | none =>
          rw [hnext] at h
          exact ⟨page, _, (List.mem_singleton.mp h) ▸ hanswer⟩
        | some next =>
          rw [hnext] at h
          rcases List.mem_cons.mp h with rfl | hmem
          · exact ⟨page, _, hanswer⟩
          · exact ih hmem

theorem SyncScope.tradesRead_mem {scope : SyncScope} {run : SyncRun} {trade : NormalizedTrade}
    {db : SyncDb} (h : trade ∈ scope.tradesRead run db) :
    ∃ page request trades, run.fetch page request = .page trades ∧ trade ∈ trades := by
  obtain ⟨trades, hpage, hmem⟩ := List.mem_flatMap.mp h
  obtain ⟨page, request, hanswer⟩ := readPages_mem hpage
  refine ⟨page, request, trades, hanswer, ?_⟩
  cases hkind : run.kind with
  | symbolTrades =>
    rw [hkind] at hmem
    exact hmem
  | accountSymbolTrades =>
    rw [hkind] at hmem
    exact List.mem_of_mem_filter hmem

theorem SyncScope.has_storeTrades (scope : SyncScope) (run : SyncRun) (loop : SyncLoop)
    (trades : List NormalizedTrade) (key : LedgerKey) :
    TradeLedger.Has (scope.storeTrades run loop trades).ledger key ↔
      TradeLedger.Has loop.ledger key ∨ ∃ trade ∈ trades, scope.ledgerKey trade = key := by
  rw [SyncScope.storeTrades, has_foldl_upsertRow, SyncScope.ledgerRow_keys, List.mem_map]

end AdviserConstructor
