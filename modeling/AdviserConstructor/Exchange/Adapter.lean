import Mathlib.Data.Rat.Defs
import AdviserConstructor.Library.DecimalText

/-!
# The adapter boundary

`app/services/exchange/adapter.py`: the data that crosses between the runtime and an exchange
adapter, and the exceptions an adapter raises.  Prices, quantities and times are floats in the
source and exact rationals here.

`AdapterCall` is a call of one of the adapter's order methods with its arguments, which is what
the order queue hands over.
-/

namespace AdviserConstructor

/-- `OrderSide`. -/
inductive OrderSide where
  | buy | sell
  deriving DecidableEq, Repr

/-- The string value of the enumeration member. -/
def OrderSide.value : OrderSide → String
  | .buy => "buy"
  | .sell => "sell"

/-- `PositionSide`. -/
inductive PositionSide where
  | long | short | both
  deriving DecidableEq, Repr

/-- The order type that a conditional order reports. -/
inductive ConditionalOrderType where
  | stopLoss | takeProfit | trailingStop
  deriving DecidableEq, Repr

/-- `ConditionalOrderResult`. -/
structure ConditionalOrderResult where
  exchangeOrderId : String
  clientOrderId : String
  orderType : ConditionalOrderType
  triggerPrice : ℚ
  quantity : ℚ
  deriving DecidableEq, Repr

/-- `PositionSnapshot`: what `get_position` reports of a live position. -/
structure PositionSnapshot where
  side : PositionSide
  size : ℚ
  markPrice : ℚ
  deriving DecidableEq, Repr

/-- The exceptions that end an order task, as the order queue tells them apart. -/
inductive TaskError where
  /-- `TransientExchangeError` -/
  | transient (message : String)
  /-- `PlacementWouldImmediatelyTriggerError` -/
  | wouldImmediatelyTrigger (code : Option ℤ)
  /-- `PositionAlreadyFlatError` -/
  | positionAlreadyFlat (code : Option ℤ)
  | other (message : String)
  deriving DecidableEq, Repr

/-- `str(error)`, which the emergency task quotes. -/
def TaskError.message : TaskError → String
  | .transient message => message
  | .wouldImmediatelyTrigger _ => "would-immediately-trigger"
  | .positionAlreadyFlat _ => "position already flat"
  | .other message => message

/-- A call of an order method of `ExchangeAdapter`, with its arguments. -/
inductive AdapterCall where
  | placeStopLoss (symbol : String) (side : OrderSide) (quantity triggerPrice : ℚ)
      (clientOrderId : String) (reduceOnly closePosition : Bool)
  | cancelAndReplaceSl (symbol existingOrderId : String) (newTriggerPrice newQuantity : ℚ)
      (clientOrderId : String) (closePosition : Bool)
  | placeTakeProfit (symbol : String) (side : OrderSide) (quantity triggerPrice : ℚ)
      (clientOrderId : String) (reduceOnly : Bool) (limitPrice : Option ℚ)
  | cancelAndReplaceTp (symbol existingOrderId : String) (newTriggerPrice newQuantity : ℚ)
      (clientOrderId : String) (limitPrice : Option ℚ)
  | partialClose (symbol : String) (side : OrderSide) (quantity : ℚ) (clientOrderId : String)
      (orderType : String) (price : Option ℚ)
  | cancelConditionalOrder (symbol orderId : String)
  deriving DecidableEq, Repr

/-- What `get_position` did when it was asked: a snapshot, no position, or an exception. -/
inductive PositionReply where
  | snapshot (live : PositionSnapshot)
  | noPosition
  | raised
  deriving DecidableEq, Repr

/-- What a caller of `get_position` that checks the type of the answer holds as `raw_live`,
before an exception is turned into `None`. -/
inductive RawLive where
  | reply (reply : PositionReply)
  /-- neither `None` nor a `PositionSnapshot` -/
  | unrecognised
  deriving DecidableEq, Repr

namespace RawLive

/-- `raw_live is None`; the `except` clause assigns `None` as well. -/
def isNone : RawLive → Bool
  | .reply .raised | .reply .noPosition => true
  | .reply (.snapshot _) | .unrecognised => false

/-- `live_size`. -/
def liveSize : RawLive → Option ℚ
  | .reply (.snapshot live) => some |live.size|
  | _ => none

/-- The exchange itself says that no more than `dust` is open. -/
def ReportsFlat (dust : ℚ) : RawLive → Prop
  | .reply .noPosition => True
  | .reply (.snapshot live) => |live.size| ≤ dust
  | .reply .raised | .unrecognised => False

end RawLive

end AdviserConstructor
