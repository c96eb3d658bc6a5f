import Mathlib.Data.List.Infix
import AdviserConstructor.Exchange.Adapter

/-!
# Moving a stop on Binance

`cancel_and_replace_sl` of `app/services/exchange/binance_adapter.py` with everything it calls:
the resolution of the stop's side, the cancel, the four placement attempts, the recovery of
duplicate client ids, the error classifier and the final look at the position.

The exchange is a book of live stop orders together with its answers.  `Replies` holds one
answer for every request that one call can make, and an answer says both what the adapter is
told and what happened on the book, because a request whose response is lost may have been
carried out.  `_signed_request` is not opened up: a request ends in a payload, a
`BinanceAPIError` or another exception.  Prices and quantities are sent as the exchange client
formats them, through `pricePrecision` and `amountPrecision`.
-/

namespace AdviserConstructor

/-! ## Answers of the exchange -/

/-- `BinanceAPIError`, with the code and the message of its payload. -/
structure BinanceAPIError where
  statusCode : ℤ
  code : Option ℤ
  message : String
  deriving DecidableEq, Repr

/-- A live stop order on the book. -/
structure StopOrder where
  orderId : String
  clientAlgoId : String
  side : OrderSide
  triggerPrice : ℚ
  quantity : ℚ
  closePosition : Bool
  deriving DecidableEq, Repr

/-- The exchange as far as the stops of one symbol go: the side of its open position and the
book. -/
structure Exchange where
  positionSide : PositionSide
  orders : List StopOrder
  deriving DecidableEq, Repr

/-- The answer to a cancel. -/
inductive CancelReply where
  | accepted
  | rejected (effective : Bool)
  | raised (message : String) (effective : Bool)
  deriving DecidableEq, Repr

def CancelReply.effective : CancelReply → Bool
  | .accepted => true
  | .rejected effective | .raised _ effective => effective

/-- The answer to a placement; `landed` is the id of an order that is on the book although the
adapter was told otherwise. -/
inductive PlaceReply where
  | accepted (orderId : String)
  | rejected (error : BinanceAPIError) (landed : Option String)
  | raised (message : String) (landed : Option String)
  deriving DecidableEq, Repr

/-- The id of the order that the request put on the book. -/
def PlaceReply.placedId : PlaceReply → Option String
  | .accepted orderId => some orderId
  | .rejected _ landed | .raised _ landed => landed

/-- The answer to a lookup by client id. -/
inductive LookupReply where
  | found (order : StopOrder)
  | notFound
  | raised (message : String)
  deriving DecidableEq, Repr

/-- The answers to all requests of one call. -/
structure Replies where
  /-- `get_position` in `_resolve_stop_loss_side` -/
  side : PositionReply
  /-- the cancel before the placement, or behind it on the reduce-only path -/
  cancel : CancelReply
  /-- the cancel after a closePosition conflict -/
  cancelConflict : CancelReply
  place : ℕ → PlaceReply
  lookup : ℕ → LookupReply
  /-- `get_position` in the classification of an attempt -/
  classify : ℕ → PositionReply
  /-- `get_position` after the last attempt -/
  exhausted : PositionReply
  pricePrecision : ℚ → ℚ := id
  amountPrecision : ℚ → ℚ := id

/-- The arguments of `cancel_and_replace_sl`. -/
structure ReplaceSl where
  symbol : String
  existingOrderId : String
  newTriggerPrice : ℚ
  newQuantity : ℚ
  clientOrderId : String
  closePosition : Bool := true
  deriving DecidableEq, Repr

namespace BinanceAdapter

/-! ## Error codes -/

/-- `BINANCE_IMMEDIATE_TRIGGER_CODES`. -/
def immediateTriggerCodes : List ℤ := [-2021, -4131, -4046]

/-- `BINANCE_REDUCE_ONLY_CONFLICT_CODES`. -/
def reduceOnlyConflictCodes : List ℤ := [-2022, -2010]

/-- `BINANCE_RATE_LIMIT_CODES`. -/
def rateLimitCodes : List ℤ := [-1003, -1015, -1016]

/-- `BINANCE_CLOSE_POSITION_CONFLICT_CODES`. -/
def closePositionConflictCodes : List ℤ := [-4130]

def hasCode (error : BinanceAPIError) (codes : List ℤ) : Bool :=
  match error.code with
  | some code => code ∈ codes
  | none => false

/-- The text occurs in the characters. -/
def occursIn (text : String) (chars : List Char) : Bool := decide (text.toList <:+: chars)

/-- `_is_duplicate_client_id_error`. -/
def isDuplicateClientIdError (error : BinanceAPIError) : Bool :=
  let lower := error.message.toList.map Char.toLower
  hasCode error [-4045, -2022, -2010, -1100] ||
    (occursIn "duplicate" lower && occursIn "client" lower)

/-- `_is_close_position_conflict_error`. -/
def isClosePositionConflictError (error : BinanceAPIError) : Bool :=
  let normalized := (error.message.toList.map Char.toLower).filter (· ≠ ' ')
  hasCode error closePositionConflictCodes ||
    (occursIn "gte" normalized && occursIn "closeposition" normalized)

/-! ## Requests -/

/-- The dust bound below which a position counts as flat. -/
def flatEpsilon : ℚ := 1 / 1000000000

/-- The position is known to be flat. -/
def verifiedFlat : PositionReply → Bool
  | .raised => false
  | .noPosition => true
  | .snapshot live => |live.size| ≤ flatEpsilon

/-- `_resolve_stop_loss_side`. -/
def resolveStopLossSide : PositionReply → OrderSide
  | .snapshot live => if live.side = .short then .buy else .sell
  | .noPosition | .raised => .sell

/-- `_client_algo_id`; client order ids are ASCII. -/
def clientAlgoId (clientOrderId : String) : String :=
  let raw := clientOrderId.toList.filter fun c => c.isAlphanum || c ∈ "._:-/".toList
  String.ofList (if raw = [] then "algo".toList else raw.take 36)

def attemptClientId (clientOrderId : String) (attempt : ℕ) : String :=
  String.ofList
    ((if attempt = 0 then clientOrderId
      else clientOrderId ++ "-r" ++ toString attempt).toList.take 36)

/-- `_cancel_existing_sl`: whether the exchange confirmed the cancel. -/
def cancelExistingSl (reply : CancelReply) (x : Exchange) (orderId : String) :
    Except TaskError Bool × Exchange :=
  let x :=
    if reply.effective then { x with orders := x.orders.filter fun o => o.orderId ≠ orderId }
    else x
  match reply with
  | .accepted => (.ok true, x)
  | .rejected _ => (.ok false, x)
  | .raised message _ => (.error (.other message), x)

theorem cancelExistingSl_book (reply : CancelReply) (x : Exchange) (orderId : String) :
    (cancelExistingSl reply x orderId).2 =
      if reply.effective then { x with orders := x.orders.filter fun o => o.orderId ≠ orderId }
      else x := by
  cases reply <;> rfl

/-- How a placement request ended. -/
inductive Placement where
  | accepted (order : ConditionalOrderResult)
  | rejected (error : BinanceAPIError)
  | raised (message : String)
  deriving DecidableEq, Repr

/-- The order that `place_stop_loss` asks for, under the id that the exchange gives it. -/
def stopOrder (r : Replies) (side : OrderSide) (quantity triggerPrice : ℚ)
    (clientOrderId : String) (closePosition : Bool) (orderId : String) : StopOrder where
  orderId := orderId
  clientAlgoId := clientAlgoId clientOrderId
  side := side
  triggerPrice := r.pricePrecision triggerPrice
  quantity :=
    if closePosition then (if 0 < quantity then quantity else 0) else r.amountPrecision quantity
  closePosition := closePosition

/-- The result that reports a stop order. -/
def stopLossResult (order : StopOrder) : ConditionalOrderResult where
  exchangeOrderId := order.orderId
  clientOrderId := order.clientAlgoId
  orderType := .stopLoss
  triggerPrice := order.triggerPrice
  quantity := order.quantity

/-- `place_stop_loss`: the request of one attempt. -/
def placeStopLoss (r : Replies) (reply : PlaceReply) (x : Exchange) (side : OrderSide)
    (quantity triggerPrice : ℚ) (clientOrderId : String) (closePosition : Bool) :
    Placement × Exchange :=
  let sent := stopOrder r side quantity triggerPrice clientOrderId closePosition
  let x :=
    match reply.placedId with
    | some orderId => { x with orders := x.orders ++ [sent orderId] }
    | none => x
  match reply with
  | .accepted orderId => (.accepted (stopLossResult (sent orderId)), x)
  | .rejected error _ => (.rejected error, x)
  | .raised message _ => (.raised message, x)

theorem placeStopLoss_orders (r : Replies) (reply : PlaceReply) (x : Exchange) (side : OrderSide)
    (quantity triggerPrice : ℚ) (clientOrderId : String) (closePosition : Bool) :
    (placeStopLoss r reply x side quantity triggerPrice clientOrderId closePosition).2.orders =
      x.orders ++ (reply.placedId.map
        (stopOrder r side quantity triggerPrice clientOrderId closePosition)).toList := by
  unfold placeStopLoss
  cases hid : reply.placedId with
  | none => cases reply <;> exact (List.append_nil _).symm
  | some newId => cases reply <;> rfl

/-- `_lookup_algo_by_client_id`. -/
def lookupAlgoByClientId : LookupReply → Except TaskError (Option ConditionalOrderResult)
  | .found order => .ok (some (stopLossResult order))
  | .notFound => .ok none
  | .raised message => .error (.other message)

/-- `_classify_error`; `none` is an error that it cannot place. -/
def classifyError (error : BinanceAPIError) (live : PositionReply) : Option TaskError :=
  if hasCode error immediateTriggerCodes then some (.wouldImmediatelyTrigger error.code)
  else if hasCode error rateLimitCodes || (500 ≤ error.statusCode && error.statusCode < 600) then
    some (.transient error.message)
  else if hasCode error reduceOnlyConflictCodes then
    if live = .raised then none
    else if verifiedFlat live then some (.positionAlreadyFlat error.code)
    else some (.transient error.message)
  else none

/-! ## The attempts -/

/-- How the attempts ended. -/
inductive Attempts where
  | placed (order : ConditionalOrderResult)
  | gaveUp (lastError : Option BinanceAPIError)
  | raised (error : TaskError)
  deriving DecidableEq, Repr

/-- `has_real_existing`. -/
def hasRealExisting (existingOrderId : String) : Bool :=
  existingOrderId ≠ "" && existingOrderId ≠ "active-sl"

/-- What follows a rejected attempt that was not recovered; `continue` takes the next one. -/
def afterRejection (r : Replies) (req : ReplaceSl) (attempt : ℕ) (error : BinanceAPIError)
    (resolved : Bool) (x : Exchange) (continue_ : Bool → Exchange → Attempts × Exchange) :
    Attempts × Exchange :=
  if req.closePosition && hasRealExisting req.existingOrderId &&
      isClosePositionConflictError error then
    if resolved then (.gaveUp (some error), x)
    else
      match cancelExistingSl r.cancelConflict x req.existingOrderId with
      | (.error raised, x) => (.raised raised, x)
      | (.ok true, x) => continue_ true x
      | (.ok false, x) => (.gaveUp (some error), x)
  else
    match classifyError error (r.classify attempt) with
    | some (.wouldImmediatelyTrigger code) => (.raised (.wouldImmediatelyTrigger code), x)
    | some (.positionAlreadyFlat code) => (.raised (.positionAlreadyFlat code), x)
    | _ => continue_ resolved x

/-- The placement loop over the attempts that are left.  `lastError` is the rejection of the
attempt before, and `resolved` that the exchange has confirmed the cancel of the old stop. -/
def attemptLoop (r : Replies) (req : ReplaceSl) (side : OrderSide) :
    List ℕ → Option BinanceAPIError → Bool → Exchange → Attempts × Exchange
  | [], lastError, _, x => (.gaveUp lastError, x)
  | attempt :: rest, _, resolved, x =>
      match placeStopLoss r (r.place attempt) x side req.newQuantity req.newTriggerPrice
          (attemptClientId req.clientOrderId attempt) req.closePosition with
      | (.accepted order, x) => (.placed order, x)
      | (.raised message, x) => (.raised (.other message), x)
      | (.rejected error, x) =>
          if isDuplicateClientIdError error then
            match lookupAlgoByClientId (r.lookup attempt) with
            | .error raised => (.raised raised, x)
            | .ok (some recovered) => (.placed recovered, x)
            | .ok none =>
                afterRejection r req attempt error resolved x
                  (attemptLoop r req side rest (some error))
          else
            afterRejection r req attempt error resolved x
              (attemptLoop r req side rest (some error))

/-- What is raised when no attempt placed the order. -/
def exhaustedError (live : PositionReply) (lastError : Option BinanceAPIError) : TaskError :=
  if verifiedFlat live then .positionAlreadyFlat (lastError.bind BinanceAPIError.code)
  else .other "Unable to place replacement stop-loss after 3 retries."

/-- The part of `cancel_and_replace_sl` behind the attempts: look at the position if none
placed the order, and on the reduce-only path cancel the old stop last. -/
def concludeReplace (r : Replies) (req : ReplaceSl) :
    Attempts × Exchange → Except TaskError ConditionalOrderResult × Exchange
  | (.raised error, x) => (.error error, x)
  | (.gaveUp lastError, x) => (.error (exhaustedError r.exhausted lastError), x)
  | (.placed order, x) =>
      if !req.closePosition && hasRealExisting req.existingOrderId then
        match cancelExistingSl r.cancel x req.existingOrderId with
        | (.error raised, x) => (.error raised, x)
        | (.ok _, x) => (.ok order, x)
      else (.ok order, x)

/-- `cancel_and_replace_sl`. -/
def cancelAndReplaceSl (r : Replies) (x : Exchange) (req : ReplaceSl) :
    Except TaskError ConditionalOrderResult × Exchange :=
  let side := resolveStopLossSide r.side
  let cancelled :=
    if req.closePosition && hasRealExisting req.existingOrderId then
      cancelExistingSl r.cancel x req.existingOrderId
    else (.ok false, x)
  match cancelled with
  | (.error raised, x) => (.error raised, x)
  | (.ok resolved, x) =>
      concludeReplace r req (attemptLoop r req side [0, 1, 2, 3] none resolved x)

end BinanceAdapter

end AdviserConstructor
