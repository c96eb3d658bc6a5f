import Mathlib.Data.Rat.Defs
import Mathlib.Algebra.Order.Ring.Rat
import Mathlib.Data.List.Infix
import Mathlib.Order.Interval.Finset.Nat
import Mathlib.Data.Nat.Count
import AdviserConstructor.Library.DecimalText
import AdviserConstructor.Library.Retry

/-!
# The market entry of the adapter for spot and futures

`app/services/execution/ccxt_adapter.py`: `place_futures_market_order` opens the client, isolates
the margin, sends the entry through `_create_order_with_idempotency`, and for Binance entries with a
stop or a target goes on to hydrate the entry and to place the two brackets.
`_create_order_with_idempotency` repeats the request through `_call_with_retry` and looks the order
up by its client order id only after the last try has failed.

What the venue answers is a record of `Replies`: an entry request is executed and answered,
refused, or executed while its answer is lost.  A request that only reads is given by what is left
of it after its own tries: the rows, or nothing.  The amounts are exact; symbols, prices, costs and
time stamps decide nothing and are left out.

* `createOrderWithIdempotency_eq_ok`: which order it returns, in terms of the replies.
* `entry_once_iff`: a call executes at most one entry, and returns the one it executed, exactly if
  nothing executes, or the only request that executes is the last one and answered, or it is lost
  and every other one is refused and the look-up finds it, and nothing raises behind it.
* `entry_twice`: the answer to the first request is lost, and the second one executes too.
-/

namespace AdviserConstructor

namespace CcxtAdapter

open DecimalText

/-! ## Errors -/

/-- The exceptions of the library that `_map_ccxt_error` tells apart. -/
inductive CcxtKind where
  | authenticationError | permissionDenied | badSymbol | insufficientFunds | rateLimitExceeded
  | requestTimeout | networkError | exchangeNotAvailable | exchangeError | other
  deriving DecidableEq, Repr

/-- An exception that a call of the library raises. -/
structure CcxtFailure where
  kind : CcxtKind
  message : String
  deriving DecidableEq, Repr

/-- `ExchangeServiceError`. -/
structure ExchangeServiceError where
  code : String
  message : String
  retryable : Bool := false
  deriving DecidableEq, Repr

/-- `_map_ccxt_error`. -/
def mapCcxtError (exc : CcxtFailure) : ExchangeServiceError :=
  match exc.kind with
  | .authenticationError | .permissionDenied =>
      { code := "authentication_failed", message := exc.message }
  | .badSymbol => { code := "invalid_symbol", message := exc.message }
  | .insufficientFunds => { code := "insufficient_funds", message := exc.message }
  | .rateLimitExceeded =>
      { code := "rate_limited", message := exc.message, retryable := true }
  | .requestTimeout | .networkError | .exchangeNotAvailable =>
      { code := "temporary_unavailable", message := exc.message, retryable := true }
  | .exchangeError => { code := "exchange_error", message := exc.message }
  | .other => { code := "unexpected_error", message := exc.message }

/-- What ends a placement without an order: an error of the service, or of closing the client. -/
inductive Raised where
  | service (error : ExchangeServiceError)
  | closing (exc : CcxtFailure)
  deriving DecidableEq, Repr

/-- `_looks_like_duplicate_id_error`. -/
def looksLikeDuplicateIdError (message : String) : Bool :=
  ["duplicate", "orderlinkid", "clientorderid", "client order id"].any fun text =>
    decide (text.toList <:+: (lowered message).toList)

/-! ## Orders -/

/-- An order payload of the venue. -/
structure RawOrder where
  id : String
  clientOrderId : Option String := none
  infoOrderLinkId : Option String := none
  infoClientOrderId : Option String := none
  infoOrigClientOrderId : Option String := none
  side : Option String := none
  type : Option String := none
  status : Option String := none
  amount : Option ℚ := none
  filled : Option ℚ := none
  remaining : Option ℚ := none
  deriving DecidableEq, Repr

/-- A trade of the account. -/
structure RawTrade where
  order : String
  amount : ℚ
  deriving DecidableEq, Repr

/-- `NormalizedOrder`. -/
structure NormalizedOrder where
  id : String
  clientOrderId : Option String
  amount : ℚ
  filled : ℚ
  remaining : ℚ
  deriving DecidableEq, Repr

/-- A text that Python takes for true. -/
def truthy (text : Option String) : Option String := text.filter (· ≠ "")

namespace RawOrder

/-- The first non-empty client order id under `info`. -/
def infoClientIds (row : RawOrder) : Option String :=
  (truthy row.infoOrderLinkId).or
    ((truthy row.infoClientOrderId).or (truthy row.infoOrigClientOrderId))

/-- The id that `_find_order_by_client_order_id` compares: an empty text in the row still counts. -/
def lookupClientOrderId (row : RawOrder) : Option String := row.clientOrderId.or row.infoClientIds

/-- `_extract_client_order_id`. -/
def extractClientOrderId (row : RawOrder) : Option String :=
  (truthy row.clientOrderId).or row.infoClientIds

/-- `_merge_order_payload`. -/
def mergeOrderPayload (base fresh : RawOrder) : RawOrder where
  id := fresh.id
  clientOrderId := fresh.clientOrderId.or base.clientOrderId
  infoOrderLinkId := fresh.infoOrderLinkId.or base.infoOrderLinkId
  infoClientOrderId := fresh.infoClientOrderId.or base.infoClientOrderId
  infoOrigClientOrderId := fresh.infoOrigClientOrderId.or base.infoOrigClientOrderId
  side := fresh.side.or base.side
  type := fresh.type.or base.type
  status := fresh.status.or base.status
  amount := fresh.amount.or base.amount
  filled := fresh.filled.or base.filled
  remaining := fresh.remaining.or base.remaining

/-- `_has_meaningful_order_fields`. -/
def hasMeaningfulOrderFields (row : RawOrder) : Bool :=
  (truthy row.side).isSome && (truthy row.type).isSome && row.amount.isSome && row.status.isSome

/-- `_enrich_order_from_trades`. -/
def enrichOrderFromTrades (row : RawOrder) (trades : List RawTrade) : RawOrder :=
  if trades = [] then row
  else
    let total := (trades.map (·.amount)).sum
    let filled := if row.filled.getD 0 ≤ 0 then total else row.filled.getD 0
    let amount := if row.amount.getD 0 ≤ 0 ∧ 0 < filled then filled else row.amount.getD 0
    let remaining :=
      if row.remaining = none ∧ 0 < amount ∧ 0 ≤ filled then some (max (amount - filled) 0)
      else row.remaining
    { row with
      filled := if row.filled.getD 0 ≤ 0 then some total else row.filled
      amount := if row.amount.getD 0 ≤ 0 ∧ 0 < filled then some filled else row.amount
      remaining := remaining
      status :=
        if row.status = none ∧ 0 < filled then
          some (if remaining.getD 0 ≤ 0 then "closed" else "open")
        else row.status }

/-- `_fill_order_fallbacks`. -/
def fillOrderFallbacks (row : RawOrder) (side type : String) (amount : ℚ) : RawOrder :=
  let filledAmount := row.amount.getD amount
  let filled := row.filled.getD 0
  { row with
    side := some (row.side.getD side)
    type := some (row.type.getD type)
    amount := some filledAmount
    filled := some filled
    remaining := some (row.remaining.getD (max (filledAmount - filled) 0))
    status := some (row.status.getD "open") }

/-- `_normalize_order`. -/
def normalizeOrder (row : RawOrder) (fallbackAmount : ℚ) : NormalizedOrder :=
  let amount := row.amount.getD fallbackAmount
  let filled := row.filled.getD 0
  { id := row.id
    clientOrderId := row.extractClientOrderId
    amount := amount
    filled := filled
    remaining := row.remaining.getD (max (amount - filled) 0) }

end RawOrder

/-! ## Replies of the venue -/

/-- A failure that `_call_with_retry` answers with another try. -/
structure RetryableFailure extends CcxtFailure where
  isRetryable : (mapCcxtError toCcxtFailure).retryable = true

/-- The answer to a request for an order.  A reused client order id is no reason to refuse a market
order: the venue refuses it only while the earlier order is open. -/
inductive CreateReply where
  | executed (order : RawOrder)
  | refused (exc : CcxtFailure)
  /-- executed, but the caller sees a failure that it may retry -/
  | lost (order : RawOrder) (exc : RetryableFailure)

def CreateReply.seen : CreateReply → Except ExchangeServiceError RawOrder
  | .executed order => .ok order
  | .refused exc => .error (mapCcxtError exc)
  | .lost _ exc => .error (mapCcxtError exc.toCcxtFailure)

/-- The order that a request leaves on the venue. -/
def CreateReply.order? : CreateReply → Option RawOrder
  | .executed order => some order
  | .refused _ => none
  | .lost order _ => some order

/-- The rows of the open and of the closed orders, or nothing where the request failed. -/
structure Lookup where
  openOrders : Option (List RawOrder)
  closedOrders : Option (List RawOrder)

/-- The first row of the open orders, and then of the closed ones, that fits. -/
def Lookup.find (lookup : Lookup) (fits : RawOrder → Bool) : Option RawOrder :=
  ((lookup.openOrders.getD []).find? fits).or ((lookup.closedOrders.getD []).find? fits)

/-- `_find_order_by_id`. -/
def findOrderById (lookup : Lookup) (orderId : String) : Option RawOrder :=
  lookup.find fun row => decide (row.id = orderId)

/-- `_find_order_by_client_order_id`. -/
def findOrderByClientOrderId (lookup : Lookup) (clientOrderId : String) : Option RawOrder :=
  lookup.find fun row => decide (row.lookupClientOrderId = some clientOrderId)

/-- The two look-ups of a round of `_hydrate_created_order`. -/
structure HydrateRound where
  byId : Lookup
  byClientOrderId : Lookup

/-- The replies to the requests for an order, and to the look-up behind them. -/
structure OrderReplies where
  create : ℕ → CreateReply
  lookup : Lookup

/-- What the venue answers in the course of a placement. -/
structure Replies where
  opening : Option ExchangeServiceError
  margin : Option ExchangeServiceError
  entry : OrderReplies
  hydrate : Fin 4 → HydrateRound
  /-- the trades of the hydration, or nothing -/
  orderTrades : Option (List RawTrade)
  /-- the trades of `_resolve_filled_amount_fast`, or nothing -/
  fillTrades : Option (List RawTrade)
  stopLoss : OrderReplies
  takeProfit : OrderReplies
  close : Option CcxtFailure

/-! ## Creating an order -/

/-- The tries of `_call_with_retry`. -/
def attempts (exchangeMaxRetries : ℤ) : ℕ := (max 1 exchangeMaxRetries).toNat

theorem attempts_pos (exchangeMaxRetries : ℤ) : 0 < attempts exchangeMaxRetries := by
  rw [attempts]
  omega

/-- `_call_with_retry(exchange.create_order, …)`: what it returns or raises, and the number of the
last request. -/
def callWithRetry (exchangeMaxRetries : ℤ) (create : ℕ → CreateReply) :
    Except ExchangeServiceError RawOrder × ℕ :=
  Retry.attempt ExchangeServiceError.retryable (fun k => (create k).seen)
    (attempts exchangeMaxRetries - 1) 0

/-- The error behind which the order is looked up. -/
def shouldTryRecover (error : ExchangeServiceError) : Bool :=
  looksLikeDuplicateIdError error.message || error.retryable

/-- `_create_order_with_idempotency`. -/
def createOrderWithIdempotency (exchangeMaxRetries : ℤ) (clientOrderId : Option String)
    (replies : OrderReplies) : Except ExchangeServiceError RawOrder :=
  match (callWithRetry exchangeMaxRetries replies.create).1 with
  | .ok order => .ok order
  | .error error =>
      match truthy clientOrderId with
      | none => .error error
      | some clientId =>
          if shouldTryRecover error then
            match findOrderByClientOrderId replies.lookup clientId with
            | some existing => .ok existing
            | none => .error error
          else .error error

/-- The orders that the requests leave on the venue, in the order of the requests. -/
def ordersLeft (exchangeMaxRetries : ℤ) (create : ℕ → CreateReply) : List RawOrder :=
  (List.range ((callWithRetry exchangeMaxRetries create).2 + 1)).filterMap fun k =>
    (create k).order?

/-! ## The placement -/

/-- The exchanges that the adapter knows. -/
inductive ExchangeName where
  | bybit | binance | other
  deriving DecidableEq, Repr

/-- The arguments of `place_futures_market_order`. -/
structure PlaceRequest where
  exchange : ExchangeName
  exchangeMaxRetries : ℤ := 3
  side : String
  amount : ℚ
  reduceOnly : Bool := false
  clientOrderId : Option String := none
  takeProfitPrice : Option ℚ := none
  stopLossPrice : Option ℚ := none

/-- `_child_client_order_id`. -/
def childClientOrderId (base affix : String) : Option String :=
  if base = "" then none
  else some (String.ofList (base.toList.take (64 - affix.length)) ++ affix)

/-- The rounds of `_hydrate_created_order`. -/
def hydrateRounds (createdId : String) (clientOrderId : Option String) :
    List HydrateRound → RawOrder → RawOrder
  | [], best => best
  | round :: rounds, best =>
      let byId := if createdId = "" then none else findOrderById round.byId createdId
      let candidate :=
        byId.or ((truthy clientOrderId).bind (findOrderByClientOrderId round.byClientOrderId))
      match candidate with
      | none => hydrateRounds createdId clientOrderId rounds best
      | some row =>
          if (best.mergeOrderPayload row).hasMeaningfulOrderFields then best.mergeOrderPayload row
          else hydrateRounds createdId clientOrderId rounds (best.mergeOrderPayload row)

/-- `_hydrate_created_order`. -/
def hydrateCreatedOrder (req : PlaceRequest) (replies : Replies) (created : RawOrder) : RawOrder :=
  let best := hydrateRounds created.id req.clientOrderId (List.ofFn replies.hydrate) created
  let trades :=
    if created.id = "" then []
    else (replies.orderTrades.getD []).filter fun trade => trade.order = created.id
  (best.enrichOrderFromTrades trades).fillOrderFallbacks req.side "market" req.amount

/-- `_resolve_filled_amount_fast`. -/
def resolveFilledAmountFast (replies : Replies) (entry : NormalizedOrder) : ℚ :=
  let executed := max entry.filled (max (entry.amount - entry.remaining) 0)
  let fallback := if 0 < entry.amount then entry.amount else 0
  if 0 < executed then executed
  else
    match replies.fillTrades with
    | none => fallback
    | some trades =>
        let filled := ((trades.filter fun t => t.order = entry.id).map (·.amount)).sum
        if 0 < filled then filled else fallback

/-- The quantity that the brackets close, or nothing where the code raises. -/
def bracketAmount (req : PlaceRequest) (replies : Replies) (entry : NormalizedOrder) : Option ℚ :=
  let resolved := resolveFilledAmountFast replies entry
  if 0 < resolved then some resolved
  else if 0 < req.amount then some req.amount
  else none

/-- The client order id of which those of the brackets are made. -/
def baseClientId (req : PlaceRequest) (entry : NormalizedOrder) : String :=
  ((truthy req.clientOrderId).or (truthy entry.clientOrderId)).getD entry.id

/-- A bracket of the entry, where its price is given. -/
def placeBracket (req : PlaceRequest) (price : Option ℚ) (clientOrderId : Option String)
    (replies : OrderReplies) : Except ExchangeServiceError Unit :=
  match price with
  | none => .ok ()
  | some _ =>
      (createOrderWithIdempotency req.exchangeMaxRetries clientOrderId replies).map fun _ => ()

/-- `_place_binance_futures_market_with_brackets`, behind the entry `created`. -/
def placeBrackets (req : PlaceRequest) (replies : Replies) (created : RawOrder) :
    Except ExchangeServiceError NormalizedOrder := do
  let entry := (hydrateCreatedOrder req replies created).normalizeOrder req.amount
  match bracketAmount req replies entry with
  | none =>
      throw { code := "exchange_error"
              message := "Could not resolve executed quantity for Binance futures entry." }
  | some _ =>
      let base := baseClientId req entry
      placeBracket req req.stopLossPrice (childClientOrderId base "-sl") replies.stopLoss
      placeBracket req req.takeProfitPrice (childClientOrderId base "-tp") replies.takeProfit
      return entry

/-- The entry is placed with brackets of its own. -/
def WithBrackets (req : PlaceRequest) : Prop :=
  req.exchange = .binance ∧ req.reduceOnly = false ∧
    (req.takeProfitPrice ≠ none ∨ req.stopLossPrice ≠ none)

instance (req : PlaceRequest) : Decidable (WithBrackets req) :=
  inferInstanceAs (Decidable (_ ∧ _ ∧ _))

/-- What the code does behind the entry `created`. -/
def finishEntry (req : PlaceRequest) (replies : Replies) (created : RawOrder) :
    Except ExchangeServiceError NormalizedOrder :=
  if WithBrackets req then placeBrackets req replies created
  else .ok (created.normalizeOrder req.amount)

/-- What is raised in the client before a request for the entry is sent. -/
def raisedBefore (req : PlaceRequest) (replies : Replies) : Option ExchangeServiceError :=
  replies.opening.or
    (if req.exchange = .binance ∧ req.reduceOnly = true then none else replies.margin)

/-- A placement: the entries that it leaves on the venue, and what it returns or raises. -/
structure Placement where
  entries : List RawOrder
  result : Except Raised NormalizedOrder

/-- The client is closed, whatever has happened. -/
def closeClient (replies : Replies) (result : Except ExchangeServiceError NormalizedOrder) :
    Except Raised NormalizedOrder :=
  match replies.close with
  | some exc => .error (.closing exc)
  | none => result.mapError .service

/-- `place_futures_market_order`. -/
def placeFuturesMarketOrder (req : PlaceRequest) (replies : Replies) : Placement :=
  if req.exchange = .other then
    { entries := []
      result := .error <| .service
        { code := "unsupported_exchange"
          message := "Auto-trade futures v1 supports Bybit and Binance USDT-M only." } }
  else
    match raisedBefore req replies with
    | some error => { entries := [], result := closeClient replies (.error error) }
    | none =>
        { entries := ordersLeft req.exchangeMaxRetries replies.entry.create
          result :=
            closeClient replies <|
              (createOrderWithIdempotency req.exchangeMaxRetries req.clientOrderId
                replies.entry).bind (finishEntry req replies) }

/-! ## The order that is returned -/

/-- Request number `n` is the last of those that `_call_with_retry` sends. -/
abbrev IsLastRequest (exchangeMaxRetries : ℤ) (create : ℕ → CreateReply) (n : ℕ) : Prop :=
  Retry.IsLast ExchangeServiceError.retryable (fun k => (create k).seen)
    (attempts exchangeMaxRetries) n

theorem exists_isLastRequest (exchangeMaxRetries : ℤ) (create : ℕ → CreateReply) :
    ∃ n, IsLastRequest exchangeMaxRetries create n :=
  ⟨_, (Retry.exists_isLast (attempts_pos exchangeMaxRetries)).1⟩

variable {create : ℕ → CreateReply} {exchangeMaxRetries : ℤ}

theorem IsLastRequest.callWithRetry_eq {n : ℕ} (hn : IsLastRequest exchangeMaxRetries create n) :
    callWithRetry exchangeMaxRetries create = ((create n).seen, n) :=
  Retry.IsLast.eq_attempt hn

/-- The look-up behind the last error finds `row`. -/
def Recovers (clientOrderId : Option String) (lookup : Lookup) (error : ExchangeServiceError)
    (row : RawOrder) : Prop :=
  shouldTryRecover error = true ∧
    (truthy clientOrderId).bind (findOrderByClientOrderId lookup) = some row

/-- The last reply is the order `row`, or an error behind which the look-up finds it. -/
def Answers (exchangeMaxRetries : ℤ) (clientOrderId : Option String) (replies : OrderReplies)
    (row : RawOrder) : Prop :=
  ∃ n, IsLastRequest exchangeMaxRetries replies.create n ∧
    (replies.create n = .executed row ∨
      ∃ error, (replies.create n).seen = .error error ∧
        Recovers clientOrderId replies.lookup error row)

theorem createOrderWithIdempotency_of_error {clientOrderId : Option String} {replies : OrderReplies}
    {error : ExchangeServiceError} {row : RawOrder}
    (hcall : (callWithRetry exchangeMaxRetries replies.create).1 = .error error) :
    createOrderWithIdempotency exchangeMaxRetries clientOrderId replies = .ok row ↔
      Recovers clientOrderId replies.lookup error row := by
  rw [createOrderWithIdempotency, hcall, Recovers]
  cases truthy clientOrderId with
  | none =>
    exact ⟨nofun, fun h => nomatch h.2⟩
  | some clientId =>
    rw [Option.bind_some]
    by_cases hrecover : shouldTryRecover error = true
    · simp only [hrecover, if_true, true_and]
      cases findOrderByClientOrderId replies.lookup clientId with
      | none => exact ⟨nofun, nofun⟩
      | some existing => simp only [Except.ok.injEq, Option.some.injEq]
    · simp only [if_neg hrecover]
      exact ⟨nofun, fun h => absurd h.1 hrecover⟩

theorem CreateReply.seen_eq_ok {reply : CreateReply} {order : RawOrder} :
    reply.seen = .ok order ↔ reply = .executed order := by
  cases reply with
  | executed other => simp only [seen, Except.ok.injEq, executed.injEq]
  | refused exc => exact ⟨nofun, nofun⟩
  | lost other exc => exact ⟨nofun, nofun⟩

/-- Which order `_create_order_with_idempotency` returns. -/
theorem createOrderWithIdempotency_eq_ok {clientOrderId : Option String} {replies : OrderReplies}
    {row : RawOrder} :
    createOrderWithIdempotency exchangeMaxRetries clientOrderId replies = .ok row ↔
      Answers exchangeMaxRetries clientOrderId replies row := by
  obtain ⟨n, hn⟩ := exists_isLastRequest exchangeMaxRetries replies.create
  have hcall := hn.callWithRetry_eq
  have hlast : Answers exchangeMaxRetries clientOrderId replies row ↔
      replies.create n = .executed row ∨ ∃ error, (replies.create n).seen = .error error ∧
        Recovers clientOrderId replies.lookup error row := by
    refine ⟨fun ⟨m, hm, h⟩ => ?_, fun h => ⟨n, hn, h⟩⟩
    rwa [hn.unique hm]
  rw [hlast]
  cases hseen : (replies.create n).seen with
  | ok order =>
    have hexec := CreateReply.seen_eq_ok.mp hseen
    rw [createOrderWithIdempotency, hcall, hseen, hexec]
    simp only [Except.ok.injEq, CreateReply.executed.injEq, reduceCtorEq, false_and, exists_false,
      or_false]
  | error error =>
    have hnot : replies.create n ≠ .executed row := by
      intro h
      rw [h] at hseen
      cases hseen
    have hfst : (callWithRetry exchangeMaxRetries replies.create).1 = .error error := by
      rw [hcall]
      exact hseen
    rw [createOrderWithIdempotency_of_error hfst]
    constructor
    · exact fun h => .inr ⟨error, rfl, h⟩
    · rintro (h | ⟨error', herror, h⟩)
      · exact absurd h hnot
      · cases herror
        exact h

/-! ## Behind the entry -/

/-- The entry that the brackets are placed for. -/
def hydratedEntry (req : PlaceRequest) (replies : Replies) (created : RawOrder) :
    NormalizedOrder :=
  (hydrateCreatedOrder req replies created).normalizeOrder req.amount

/-- Behind the entry `created` nothing raises, and what is returned has the id `id`. -/
structure Settles (req : PlaceRequest) (replies : Replies) (created : RawOrder) (id : String) :
    Prop where
  closes : replies.close = none
  plain : ¬WithBrackets req → created.id = id
  sameId : WithBrackets req → (hydratedEntry req replies created).id = id
  quantity : WithBrackets req →
    0 < resolveFilledAmountFast replies (hydratedEntry req replies created) ∨ 0 < req.amount
  stopLoss : WithBrackets req → req.stopLossPrice ≠ none → ∃ row,
    Answers req.exchangeMaxRetries
      (childClientOrderId (baseClientId req (hydratedEntry req replies created)) "-sl")
      replies.stopLoss row
  takeProfit : WithBrackets req → req.takeProfitPrice ≠ none → ∃ row,
    Answers req.exchangeMaxRetries
      (childClientOrderId (baseClientId req (hydratedEntry req replies created)) "-tp")
      replies.takeProfit row

variable {req : PlaceRequest}

theorem bracketAmount_ne_none {replies : Replies} {entry : NormalizedOrder} :
    bracketAmount req replies entry ≠ none ↔
      0 < resolveFilledAmountFast replies entry ∨ 0 < req.amount := by
  rw [bracketAmount]
  by_cases hresolved : 0 < resolveFilledAmountFast replies entry
  · simp only [hresolved, if_true, ne_eq, reduceCtorEq, not_false_eq_true, true_or]
  · by_cases hamount : 0 < req.amount
    · simp only [hresolved, hamount, if_false, if_true, ne_eq, reduceCtorEq, not_false_eq_true,
        or_true]
    · simp only [hresolved, hamount, if_false, ne_eq, not_true_eq_false, or_self]

theorem placeBracket_eq_ok {price : Option ℚ} {clientOrderId : Option String}
    {replies : OrderReplies} :
    placeBracket req price clientOrderId replies = .ok () ↔
      (price ≠ none → ∃ row, Answers req.exchangeMaxRetries clientOrderId replies row) := by
  cases price with
  | none => exact ⟨fun _ h => absurd rfl h, fun _ => rfl⟩
  | some value =>
    rw [placeBracket]
    have hmap : ∀ x : Except ExchangeServiceError RawOrder,
        x.map (fun _ => ()) = .ok () ↔ ∃ row, x = .ok row := by
      intro x
      cases x with
      | error e => simp only [Except.map, reduceCtorEq, exists_false]
      | ok row => exact ⟨fun _ => ⟨row, rfl⟩, fun _ => rfl⟩
    rw [hmap]
    simp only [createOrderWithIdempotency_eq_ok, ne_eq, reduceCtorEq, not_false_eq_true,
      forall_const]

theorem placeBrackets_eq_ok {replies : Replies} {created : RawOrder} {order : NormalizedOrder} :
    placeBrackets req replies created = .ok order ↔
      bracketAmount req replies (hydratedEntry req replies created) ≠ none ∧
      placeBracket req req.stopLossPrice
        (childClientOrderId (baseClientId req (hydratedEntry req replies created)) "-sl")
        replies.stopLoss = .ok () ∧
      placeBracket req req.takeProfitPrice
        (childClientOrderId (baseClientId req (hydratedEntry req replies created)) "-tp")
        replies.takeProfit = .ok () ∧
      hydratedEntry req replies created = order := by
  show (match bracketAmount req replies (hydratedEntry req replies created) with
    | none => _
    | some _ => _) = _ ↔ _
  cases bracketAmount req replies (hydratedEntry req replies created) with
  | none => exact ⟨nofun, fun h => absurd rfl h.1⟩
  | some quantity =>
    show (placeBracket req req.stopLossPrice
        (childClientOrderId (baseClientId req (hydratedEntry req replies created)) "-sl")
        replies.stopLoss).bind _ = _ ↔ _
    cases placeBracket req req.stopLossPrice
        (childClientOrderId (baseClientId req (hydratedEntry req replies created)) "-sl")
        replies.stopLoss with
    | error error => exact ⟨nofun, fun h => nomatch h.2.1⟩
    | ok _ =>
      show (placeBracket req req.takeProfitPrice
          (childClientOrderId (baseClientId req (hydratedEntry req replies created)) "-tp")
          replies.takeProfit).bind _ = _ ↔ _
      cases placeBracket req req.takeProfitPrice
          (childClientOrderId (baseClientId req (hydratedEntry req replies created)) "-tp")
          replies.takeProfit with
      | error error => exact ⟨nofun, fun h => nomatch h.2.2.1⟩
      | ok _ =>
        show Except.ok (hydratedEntry req replies created) = _ ↔ _
        simp only [Except.ok.injEq, ne_eq, reduceCtorEq, not_false_eq_true, true_and]

theorem settles_iff {replies : Replies} {created : RawOrder} {id : String} :
    Settles req replies created id ↔
      replies.close = none ∧
        ∃ order, finishEntry req replies created = .ok order ∧ order.id = id := by
  by_cases hbrackets : WithBrackets req
  · rw [finishEntry, if_pos hbrackets]
    constructor
    · intro h
      refine ⟨h.closes, _, placeBrackets_eq_ok.mpr ⟨
        bracketAmount_ne_none.mpr (h.quantity hbrackets),
        placeBracket_eq_ok.mpr (h.stopLoss hbrackets),
        placeBracket_eq_ok.mpr (h.takeProfit hbrackets), rfl⟩, h.sameId hbrackets⟩
    · rintro ⟨hclose, order, horder, hid⟩
      obtain ⟨hquantity, hstop, htake, rfl⟩ := placeBrackets_eq_ok.mp horder
      exact
        { closes := hclose
          plain := fun h => absurd hbrackets h
          sameId := fun _ => hid
          quantity := fun _ => bracketAmount_ne_none.mp hquantity
          stopLoss := fun _ => placeBracket_eq_ok.mp hstop
          takeProfit := fun _ => placeBracket_eq_ok.mp htake }
  · rw [finishEntry, if_neg hbrackets]
    constructor
    · intro h
      exact ⟨h.closes, _, rfl, h.plain hbrackets⟩
    · rintro ⟨hclose, order, horder, hid⟩
      cases horder
      exact
        { closes := hclose
          plain := fun _ => hid
          sameId := fun h => absurd h hbrackets
          quantity := fun h => absurd h hbrackets
          stopLoss := fun h => absurd h hbrackets
          takeProfit := fun h => absurd h hbrackets }

/-! ## At most one entry -/

/-- At most one entry is executed, and if one is, it is returned. -/
structure EntryOnce (p : Placement) : Prop where
  atMostOne : p.entries.length ≤ 1
  returned : ∀ order ∈ p.entries, ∃ r, p.result = .ok r ∧ r.id = order.id

def CreateReply.IsLost (reply : CreateReply) : Prop := ∃ order exc, reply = .lost order exc

def CreateReply.IsRefused (reply : CreateReply) : Prop := ∃ exc, reply = .refused exc

/-- When a placement executes at most one entry and returns the one it executes. -/
inductive EntryClear (req : PlaceRequest) (replies : Replies) : Prop where
  | unsent (h : req.exchange = .other ∨ raisedBefore req replies ≠ none)
  /-- no answer is lost, and nothing raises behind the entry if there is one -/
  | answered (n : ℕ) (hn : IsLastRequest req.exchangeMaxRetries replies.entry.create n)
      (hkept : ∀ k ≤ n, ¬(replies.entry.create k).IsLost)
      (hsettles : ∀ order, replies.entry.create n = .executed order →
        Settles req replies order order.id)
  /-- one answer is lost, the other requests are refused, and the look-up finds the entry -/
  | recovered (n k : ℕ) (order : RawOrder) (exc : RetryableFailure)
      (error : ExchangeServiceError) (row : RawOrder)
      (hn : IsLastRequest req.exchangeMaxRetries replies.entry.create n) (hk : k ≤ n)
      (hlost : replies.entry.create k = .lost order exc)
      (hothers : ∀ j ≤ n, j ≠ k → (replies.entry.create j).IsRefused)
      (herror : (replies.entry.create n).seen = .error error)
      (hrecovers : Recovers req.clientOrderId replies.entry.lookup error row)
      (hsettles : Settles req replies row order.id)

theorem length_ordersLeft_le_one {n : ℕ} (hn : IsLastRequest exchangeMaxRetries create n) :
    (ordersLeft exchangeMaxRetries create).length ≤ 1 ↔
      ∀ j ≤ n, ∀ k ≤ n, (create j).order?.isSome = true → (create k).order?.isSome = true →
        j = k := by
  have hcount : (ordersLeft exchangeMaxRetries create).length =
      ((Finset.range (n + 1)).filter fun k => (create k).order?.isSome = true).card := by
    rw [ordersLeft, hn.callWithRetry_eq, List.length_filterMap_eq_countP,
      ← Nat.count_eq_card_filter_range]
    simp only [Nat.count, Bool.decide_eq_true]
  rw [hcount, Finset.card_le_one]
  simp only [Finset.mem_filter, Finset.mem_range, Nat.lt_succ_iff]
  constructor
  · exact fun h j hj k hk hjs hks => h j ⟨hj, hjs⟩ k ⟨hk, hks⟩
  · exact fun h j hj k hk => h j hj.1 k hk.1 hj.2 hk.2

theorem mem_ordersLeft {n : ℕ} (hn : IsLastRequest exchangeMaxRetries create n) {order : RawOrder} :
    order ∈ ordersLeft exchangeMaxRetries create ↔ ∃ k ≤ n, (create k).order? = some order := by
  rw [ordersLeft, hn.callWithRetry_eq, List.mem_filterMap]
  simp only [List.mem_range, Nat.lt_succ_iff]

theorem not_executed_of_lt {n k : ℕ} (hn : IsLastRequest exchangeMaxRetries create n) (hk : k < n)
    (order : RawOrder) : create k ≠ .executed order := by
  intro h
  obtain ⟨error, herror, _⟩ := hn.earlier k hk
  simp only [h, CreateReply.seen, reduceCtorEq] at herror

theorem result_eq_ok {replies : Replies} (hknown : req.exchange ≠ .other)
    (hsent : raisedBefore req replies = none) (id : String) :
    (∃ r, (placeFuturesMarketOrder req replies).result = .ok r ∧ r.id = id) ↔
      ∃ row, createOrderWithIdempotency req.exchangeMaxRetries req.clientOrderId replies.entry =
        .ok row ∧ Settles req replies row id := by
  rw [placeFuturesMarketOrder, if_neg hknown, hsent]
  simp only [settles_iff, closeClient]
  cases createOrderWithIdempotency req.exchangeMaxRetries req.clientOrderId replies.entry with
  | error error =>
    cases replies.close with
    | some exc => exact ⟨fun ⟨_, h, _⟩ => (nomatch h), fun ⟨_, h, _⟩ => nomatch h⟩
    | none => exact ⟨fun ⟨_, h, _⟩ => (nomatch h), fun ⟨_, h, _⟩ => nomatch h⟩
  | ok row =>
    cases replies.close with
    | some exc => exact ⟨fun ⟨_, h, _⟩ => (nomatch h), fun ⟨_, _, h, _⟩ => nomatch h⟩
    | none =>
      show (∃ r, ((finishEntry req replies row).mapError Raised.service) = .ok r ∧ r.id = id) ↔ _
      cases hfinish : finishEntry req replies row with
      | error error =>
        refine ⟨fun ⟨_, h, _⟩ => (nomatch h), ?_⟩
        rintro ⟨row', hrow, _, order, horder, _⟩
        cases hrow
        rw [hfinish] at horder
        cases horder
      | ok order =>
        constructor
        · rintro ⟨r, hr, hid⟩
          cases hr
          exact ⟨row, rfl, rfl, order, hfinish, hid⟩
        · rintro ⟨row', hrow, _, order', horder, hid⟩
          cases hrow
          rw [hfinish] at horder
          cases horder
          exact ⟨order, rfl, hid⟩

theorem entryOnce_of_unsent {replies : Replies}
    (h : req.exchange = .other ∨ raisedBefore req replies ≠ none) :
    EntryOnce (placeFuturesMarketOrder req replies) := by
  have hentries : (placeFuturesMarketOrder req replies).entries = [] := by
    rw [placeFuturesMarketOrder]
    by_cases hother : req.exchange = .other
    · rw [if_pos hother]
    · obtain ⟨error, herror⟩ := Option.ne_none_iff_exists'.mp (h.resolve_left hother)
      rw [if_neg hother, herror]
  constructor
  · rw [hentries]
    exact Nat.zero_le 1
  · rw [hentries]
    exact fun order horder => absurd horder List.not_mem_nil

/-- **At most one entry.**  A placement executes at most one entry, and returns the one that it has
executed, exactly if no answer is lost and nothing raises behind the entry, or one is lost, every
other request is refused, and the look-up finds the order. -/
theorem entry_once_iff (req : PlaceRequest) (replies : Replies) :
    EntryOnce (placeFuturesMarketOrder req replies) ↔ EntryClear req replies := by
  by_cases hsent : req.exchange = .other ∨ raisedBefore req replies ≠ none
  · exact ⟨fun _ => .unsent hsent, fun _ => entryOnce_of_unsent hsent⟩
  obtain ⟨hknown, hraised⟩ := not_or.mp hsent
  rw [not_not] at hraised
  obtain ⟨n, hn⟩ := exists_isLastRequest req.exchangeMaxRetries replies.entry.create
  have hentries : (placeFuturesMarketOrder req replies).entries =
      ordersLeft req.exchangeMaxRetries replies.entry.create := by
    rw [placeFuturesMarketOrder, if_neg hknown, hraised]
  have hlen := length_ordersLeft_le_one hn
  constructor
  · rintro ⟨hone, hreturned⟩
    rw [hentries, hlen] at hone
    rw [hentries] at hreturned
    by_cases hkept : ∀ k ≤ n, ¬(replies.entry.create k).IsLost
    · refine .answered n hn hkept fun order horder => ?_
      have hmem := (mem_ordersLeft hn).mpr ⟨n, le_rfl, congrArg CreateReply.order? horder⟩
      obtain ⟨row, hrow, hsettles⟩ :=
        (result_eq_ok hknown hraised order.id).mp (hreturned order hmem)
      have hanswer : createOrderWithIdempotency req.exchangeMaxRetries req.clientOrderId
          replies.entry = .ok order :=
        createOrderWithIdempotency_eq_ok.mpr ⟨n, hn, .inl horder⟩
      rw [hanswer] at hrow
      cases hrow
      exact hsettles
    · push Not at hkept
      obtain ⟨k, hk, order, exc, hlost⟩ := hkept
      have hleft : (replies.entry.create k).order? = some order := by rw [hlost]; rfl
      have hothers : ∀ j ≤ n, j ≠ k → (replies.entry.create j).IsRefused := by
        intro j hj hne
        cases hreply : replies.entry.create j with
        | refused exc' => exact ⟨exc', rfl⟩
        | executed other =>
          exact absurd (hone j hj k hk (by rw [hreply]; rfl) (by rw [hleft]; rfl)) hne
        | lost other exc' =>
          exact absurd (hone j hj k hk (by rw [hreply]; rfl) (by rw [hleft]; rfl)) hne
      obtain ⟨row, hrow, hsettles⟩ := (result_eq_ok hknown hraised order.id).mp
        (hreturned order ((mem_ordersLeft hn).mpr ⟨k, hk, hleft⟩))
      obtain ⟨m, hm, hexecuted | ⟨error, herror, hrecovers⟩⟩ :=
        createOrderWithIdempotency_eq_ok.mp hrow
      · -- the last request is the lost one or a refused one
        rw [hm.unique hn] at hexecuted
        by_cases hnk : n = k
        · rw [hnk, hlost] at hexecuted
          cases hexecuted
        · obtain ⟨exc', hrefused⟩ := hothers n le_rfl hnk
          rw [hrefused] at hexecuted
          cases hexecuted
      · rw [hm.unique hn] at herror
        exact .recovered n k order exc error row hn hk hlost hothers herror hrecovers hsettles
  · intro hclear
    cases hclear with
    | unsent h => exact absurd h hsent
    | answered m hm hkept hsettles =>
      cases hm.unique hn
      -- without a lost answer only the last request can leave an order
      have honly : ∀ j ≤ n, (replies.entry.create j).order?.isSome = true →
          j = n ∧ ∃ order, replies.entry.create j = .executed order := by
        intro j hj hsome
        cases hreply : replies.entry.create j with
        | executed order =>
          refine ⟨?_, order, rfl⟩
          by_contra hne
          exact not_executed_of_lt hn (by omega) order hreply
        | refused exc =>
          rw [hreply] at hsome
          cases hsome
        | lost order exc => exact absurd ⟨order, exc, hreply⟩ (hkept j hj)
      constructor
      · rw [hentries, hlen]
        intro j hj k hk hjs hks
        rw [(honly j hj hjs).1, (honly k hk hks).1]
      · rw [hentries]
        intro order horder
        obtain ⟨j, hj, hleft⟩ := (mem_ordersLeft hn).mp horder
        obtain ⟨rfl, other, hexecuted⟩ := honly j hj (by rw [hleft]; rfl)
        rw [hexecuted] at hleft
        cases hleft
        exact (result_eq_ok hknown hraised _).mpr ⟨order,
          createOrderWithIdempotency_eq_ok.mpr ⟨j, hn, .inl hexecuted⟩, hsettles order hexecuted⟩
    | recovered m k order exc error row hm hk hlost hothers herror hrecovers hsettles =>
      cases hm.unique hn
      have honly : ∀ j ≤ n, (replies.entry.create j).order?.isSome = true → j = k := by
        intro j hj hsome
        by_contra hne
        obtain ⟨exc', hrefused⟩ := hothers j hj hne
        rw [hrefused] at hsome
        cases hsome
      constructor
      · rw [hentries, hlen]
        intro j hj i hi hjs his
        rw [honly j hj hjs, honly i hi his]
      · rw [hentries]
        intro other hother
        obtain ⟨j, hj, hleft⟩ := (mem_ordersLeft hn).mp hother
        rw [honly j hj (by rw [hleft]; rfl), hlost] at hleft
        cases hleft
        exact (result_eq_ok hknown hraised _).mpr ⟨row,
          createOrderWithIdempotency_eq_ok.mpr ⟨n, hn, .inr ⟨error, herror, hrecovers⟩⟩, hsettles⟩

/-- A venue that executes the first request, loses the answer, and executes the second request. -/
def lostAnswer : Replies where
  opening := none
  margin := none
  entry :=
    { create := fun k =>
        if k = 0 then
          .lost { id := "1", clientOrderId := some "at-1", filled := some 1 }
            { kind := .requestTimeout, message := "timed out", isRetryable := rfl }
        else .executed { id := "2", clientOrderId := some "at-1", filled := some 1 }
      lookup := ⟨some [], some []⟩ }
  hydrate := fun _ => ⟨⟨some [], some []⟩, ⟨some [], some []⟩⟩
  orderTrades := some []
  fillTrades := some []
  stopLoss := ⟨fun _ => .executed { id := "3" }, ⟨some [], some []⟩⟩
  takeProfit := ⟨fun _ => .executed { id := "4" }, ⟨some [], some []⟩⟩
  close := none

/-- The answer to the first request of an entry is lost, and the second one executes as well. -/
theorem entry_twice :
    ¬∀ (req : PlaceRequest) (replies : Replies),
      EntryOnce (placeFuturesMarketOrder req replies) := by
  intro h
  have htwo : (placeFuturesMarketOrder
      { exchange := .bybit, side := "buy", amount := 1, clientOrderId := some "at-1" }
      lostAnswer).entries.length = 2 := by decide +kernel
  have hone := (h { exchange := .bybit, side := "buy", amount := 1, clientOrderId := some "at-1" }
    lostAnswer).atMostOne
  omega

end CcxtAdapter

end AdviserConstructor
