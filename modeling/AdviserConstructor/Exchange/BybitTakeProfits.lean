import AdviserConstructor.Exchange.Adapter
import AdviserConstructor.Library.PlainDecimal

/-!
# The ids of take-profit orders on Bybit

`app/services/exchange/bybit_adapter.py`: a take-profit of a part of the position is placed through
the trading-stop endpoint, which answers with an empty result, and the adapter reports the client's
own id in its place.  A later cancel or replacement hands that id to the order endpoints, which know
the exchange's ids; what they do not know is taken for the take-profit of the whole position.

The exchange is a parameter: the live take-profit orders of its state, its answers, and what they do
to these orders.

* `placeTakeProfit_eq_ok`: the order that a placement adds, and the id that it reports.
* `cancelConditionalOrder_partialMode`, `cancelAndReplaceTp_partialMode`: with the exchange's id the
  order is cancelled, and replaced by one of the given price and quantity.
* `usable_iff`: the id that is reported can be used exactly if the exchange has given the order that
  same id, and it is not the id of a position's protection.
-/

namespace AdviserConstructor

namespace BybitAdapter

open DecimalText

/-! ## Symbols and ids -/

/-- `_normalize_symbol`. -/
def normalizeSymbol (symbol : String) : String :=
  uppered (String.ofList (strip ((symbol.toList.takeWhile (· ≠ ':')).filter (· ≠ '/'))))

/-- `_POSITION_TPSL_ORDER_PREFIX`. -/
def positionTpslOrderPrefix : String := "bybit-position-tpsl"

def orderTypeName : ConditionalOrderType → String
  | .stopLoss => "stop_loss"
  | .takeProfit => "take_profit"
  | .trailingStop => "trailing_stop"

/-- `_position_tpsl_order_id`. -/
def positionTpslOrderId (symbol : String) (orderType : ConditionalOrderType) : String :=
  positionTpslOrderPrefix ++ ":" ++ orderTypeName orderType ++ ":" ++ normalizeSymbol symbol

/-- `_position_tpsl_order_type`. -/
def positionTpslOrderType (orderId : String) : Option ConditionalOrderType :=
  if (positionTpslOrderPrefix ++ ":").toList.isPrefixOf orderId.toList then
    match orderId.toList.splitOn ':' with
    | _ :: part :: _ :: _ =>
        let orderType := lowered (stripped (String.ofList part))
        if orderType = "stop_loss" then some .stopLoss
        else if orderType = "take_profit" then some .takeProfit
        else if orderType = "trailing_stop" then some .trailingStop
        else none
    | _ => none
  else none

/-! ## The exchange -/

/-- `tpslMode`: for a part of the position, or for all of it. -/
inductive TpslMode
  | partialMode | fullMode
  deriving DecidableEq, Repr

def TpslMode.text : TpslMode → String
  | .partialMode => "Partial"
  | .fullMode => "Full"

/-- A take-profit order on the book of the exchange. -/
structure TpOrder where
  orderId : String
  orderLinkId : String
  symbol : String
  tpslMode : TpslMode
  triggerPrice : String
  size : Option String
  deriving DecidableEq, Repr

/-- The order is for the whole position of a symbol. -/
def TpOrder.IsFull (symbol : String) (o : TpOrder) : Prop :=
  o.symbol = symbol ∧ o.tpslMode = .fullMode

instance (symbol : String) (o : TpOrder) : Decidable (o.IsFull symbol) :=
  inferInstanceAs (Decidable (_ ∧ _))

/-- A request to `/v5/position/trading-stop`. -/
structure TradingStop where
  symbol : String
  tpslMode : TpslMode
  takeProfit : Option String := none
  stopLoss : Option String := none
  trailingStop : Option String := none
  tpTriggerBy : Option String := none
  tpSize : Option String := none
  slSize : Option String := none
  tpOrderType : Option String := none
  tpLimitPrice : Option String := none
  orderLinkId : Option String := none
  deriving DecidableEq, Repr

/-- What is read of the answer to a trading-stop request. -/
structure Payload where
  retMsg : Option String := none
  orderId : Option String := none
  resultOrderId : Option String := none
  resultOrderStatus : Option String := none
  deriving DecidableEq, Repr

/-- `BybitAPIError`. -/
structure BybitAPIError where
  statusCode : ℕ
  payload : String
  deriving DecidableEq, Repr

/-- An item of the list that `/v5/order/realtime` gives. -/
structure RealtimeItem where
  orderId : String
  tpslMode : String
  deriving DecidableEq, Repr

/-- The exchange: the live take-profit orders of a state, each with an id that the exchange has
given it, the answers to requests, and what they do to the orders. -/
structure Bybit (σ : Type*) where
  orders : σ → List TpOrder
  tradingStop : TradingStop → σ → Except BybitAPIError Payload × σ
  cancel : String → String → σ → Except BybitAPIError Unit × σ
  realtime : String → String → σ → Except BybitAPIError (List RealtimeItem)
  /-- the side in the answer of `get_position`, `none` if it raises -/
  position : String → σ → Option (Option PositionSide)
  orderIds_nodup : ∀ s, ((orders s).map TpOrder.orderId).Nodup
  tradingStop_refused : ∀ request s error, (tradingStop request s).1 = .error error →
    orders (tradingStop request s).2 = orders s
  /-- an accepted one is answered with an empty result object -/
  tradingStop_empty : ∀ request s payload, (tradingStop request s).1 = .ok payload →
    payload.orderId = none ∧ payload.resultOrderId = none ∧ payload.resultOrderStatus = none
  /-- one for a part of the position adds an order -/
  tradingStop_partial : ∀ request s payload triggerPrice size,
    (tradingStop request s).1 = .ok payload → request.tpslMode = .partialMode →
      request.takeProfit = some triggerPrice → request.tpSize = some size →
        ∃ orderId, orders (tradingStop request s).2 = orders s ++
          [⟨orderId, request.orderLinkId.getD "", request.symbol, .partialMode, triggerPrice,
            some size⟩]
  /-- one for all of it leaves the orders for a part -/
  tradingStop_full : ∀ request s o, request.tpslMode = .fullMode → o.tpslMode = .partialMode →
    (o ∈ orders (tradingStop request s).2 ↔ o ∈ orders s)
  /-- and sets the one for the whole position -/
  tradingStop_setsFull : ∀ request s payload triggerPrice,
    (tradingStop request s).1 = .ok payload → request.tpslMode = .fullMode →
      request.takeProfit = some triggerPrice → triggerPrice ≠ "0" →
        ∃ o ∈ orders (tradingStop request s).2, o.IsFull request.symbol ∧
          o.triggerPrice = triggerPrice
  /-- an order is cancelled by the exchange's id -/
  cancel_live : ∀ s, ∀ o ∈ orders s, (cancel o.symbol o.orderId s).1 = .ok () ∧
    orders (cancel o.symbol o.orderId s).2 = (orders s).filter (· ≠ o)
  cancel_unknown : ∀ s symbol orderId, (∀ o ∈ orders s, o.symbol = symbol → o.orderId ≠ orderId) →
    orders (cancel symbol orderId s).2 = orders s
  /-- an order is found by the exchange's id -/
  realtime_live : ∀ s, ∀ o ∈ orders s, ∃ items, realtime o.symbol o.orderId s = .ok items ∧
    (∃ item ∈ items, item.orderId = o.orderId) ∧
      ∀ item ∈ items, item.orderId = o.orderId → item.tpslMode = o.tpslMode.text
  realtime_unknown : ∀ s symbol orderId,
    (∀ o ∈ orders s, o.symbol = symbol → o.orderId ≠ orderId) →
      ∀ items, realtime symbol orderId s = .ok items → ∀ item ∈ items, item.orderId ≠ orderId

/-- `_price_to_precision` and `_amount_to_precision`, which give decimal texts. -/
structure Precision where
  price : String → ℚ → String
  amount : String → ℚ → String
  price_isSome : ∀ symbol x, (parseDecimal (price symbol x)).isSome
  amount_isSome : ∀ symbol x, (parseDecimal (amount symbol x)).isSome

namespace Precision

variable (precision : Precision) (symbol : String) (x : ℚ)

/-- `float(trigger_str)`. -/
def priceValue : ℚ :=
  (parseDecimal (precision.price symbol x)).get (precision.price_isSome symbol x)

/-- `float(qty_str)`. -/
def amountValue : ℚ :=
  (parseDecimal (precision.amount symbol x)).get (precision.amount_isSome symbol x)

end Precision

/-! ## Results -/

/-- `_normalize_status`. -/
def normalizeStatus (raw : String) : String :=
  match uppered raw with
  | "OK" => "new"
  | "NEW" => "new"
  | "UNTRIGGERED" => "new"
  | "ACTIVE" => "new"
  | "PARTIALLYFILLED" => "new"
  | "TRIGGERED" => "triggered"
  | "FILLED" => "triggered"
  | "CANCELED" => "cancelled"
  | "CANCELLED" => "cancelled"
  | "DEACTIVATED" => "cancelled"
  | "REJECTED" => "rejected"
  | _ => lowered raw

/-- `ConditionalOrderResult` with its status. -/
structure PlacedOrder extends ConditionalOrderResult where
  status : String
  isAlgo : Bool := false
  deriving DecidableEq, Repr

/-- `_conditional_result_from_payload`. -/
def conditionalResultFromPayload (payload : Payload) (orderType : ConditionalOrderType)
    (triggerPrice quantity : ℚ) (clientOrderId defaultExchangeOrderId : String) : PlacedOrder :=
  let exchangeOrderId :=
    (payload.resultOrderId.or payload.orderId).getD defaultExchangeOrderId
  { exchangeOrderId := if exchangeOrderId = "" then defaultExchangeOrderId else exchangeOrderId
    clientOrderId := clientOrderId
    orderType := orderType
    triggerPrice := triggerPrice
    quantity := quantity
    status := normalizeStatus ((payload.resultOrderStatus.or payload.retMsg).getD "new") }

/-! ## The adapter -/

section

variable {σ : Type*} (x : Bybit σ) (precision : Precision)

/-- `place_take_profit`; the side and `reduce_only` are not used. -/
def placeTakeProfit (symbol : String) (_side : OrderSide) (quantity triggerPrice : ℚ)
    (clientOrderId : String) (_reduceOnly : Bool) (limitPrice : Option ℚ) (s : σ) :
    Except BybitAPIError PlacedOrder × σ :=
  let request : TradingStop :=
    { symbol := normalizeSymbol symbol
      takeProfit := some (precision.price symbol triggerPrice)
      tpTriggerBy := some "MarkPrice"
      tpslMode := .partialMode
      tpSize := some (precision.amount symbol quantity)
      slSize := some (precision.amount symbol quantity)
      tpOrderType := some (if limitPrice.isSome then "Limit" else "Market")
      orderLinkId := some clientOrderId
      tpLimitPrice := limitPrice.map (precision.price symbol) }
  match x.tradingStop request s with
  | (.error error, s) => (.error error, s)
  | (.ok payload, s) =>
      (.ok (conditionalResultFromPayload payload .takeProfit
        (precision.priceValue symbol triggerPrice) (precision.amountValue symbol quantity)
        clientOrderId clientOrderId), s)

/-- `_cancel_position_trading_stop`. -/
def cancelPositionTradingStop (symbol : String) (orderType : ConditionalOrderType) (s : σ) :
    Bool × σ :=
  let request : TradingStop := { symbol := normalizeSymbol symbol, tpslMode := .fullMode }
  let request :=
    match orderType with
    | .stopLoss => { request with stopLoss := some "0" }
    | .takeProfit => { request with takeProfit := some "0" }
    | .trailingStop => { request with trailingStop := some "0" }
  match x.tradingStop request s with
  | (.error _, s) => (false, s)
  | (.ok _, s) => (true, s)

/-- `cancel_conditional_order`. -/
def cancelConditionalOrder (symbol orderId : String) (s : σ) : Bool × σ :=
  match positionTpslOrderType orderId with
  | some orderType => cancelPositionTradingStop x symbol orderType s
  | none =>
      match x.cancel (normalizeSymbol symbol) orderId s with
      | (.error _, s) => (false, s)
      | (.ok _, s) => (true, s)

/-- The loop over `raw_orders`. -/
def tpslModeOf (existingOrderId : String) : List RealtimeItem → TpslMode
  | [] => .fullMode
  | item :: items =>
      if item.orderId = existingOrderId then
        if lowered (stripped item.tpslMode) = "partial" then .partialMode
        else if lowered (stripped item.tpslMode) = "full" then .fullMode
        else tpslModeOf existingOrderId items
      else tpslModeOf existingOrderId items

/-- `_resolve_tpsl_mode`. -/
def resolveTpslMode (symbol existingOrderId : String) (s : σ) : TpslMode :=
  if (positionTpslOrderType existingOrderId).isSome then .fullMode
  else
    match x.realtime (normalizeSymbol symbol) existingOrderId s with
    | .error _ => .fullMode
    | .ok items => tpslModeOf existingOrderId items

/-- `_resolve_take_profit_side`. -/
def resolveTakeProfitSide (symbol : String) (s : σ) : OrderSide :=
  match x.position symbol s with
  | some (some .short) => .buy
  | _ => .sell

/-- `cancel_and_replace_tp`. -/
def cancelAndReplaceTp (symbol existingOrderId : String) (newTriggerPrice newQuantity : ℚ)
    (clientOrderId : String) (limitPrice : Option ℚ) (s : σ) :
    Except BybitAPIError PlacedOrder × σ :=
  match resolveTpslMode x symbol existingOrderId s with
  | .partialMode =>
      let s := (cancelConditionalOrder x symbol existingOrderId s).2
      let side := resolveTakeProfitSide x symbol s
      placeTakeProfit x precision symbol side newQuantity newTriggerPrice clientOrderId true
        limitPrice s
  | .fullMode =>
      let request : TradingStop :=
        { symbol := normalizeSymbol symbol
          tpslMode := .fullMode
          takeProfit := some (precision.price symbol newTriggerPrice)
          tpTriggerBy := some "MarkPrice"
          tpOrderType := some "Market" }
      match x.tradingStop request s with
      | (.error error, s) => (.error error, s)
      | (.ok payload, s) =>
          (.ok (conditionalResultFromPayload payload .takeProfit
            (precision.priceValue symbol newTriggerPrice) newQuantity clientOrderId
            (positionTpslOrderId symbol .takeProfit)), s)

/-- The id that is reported of a take-profit order can be used: as long as the order is live, a
cancel removes it, and a replacement that goes through leaves one of the new price and quantity in
its place and none for the whole position, if there was none before. -/
structure Usable (symbol : String) (order : TpOrder) (exchangeOrderId : String) : Prop where
  cancels : ∀ s, order ∈ x.orders s →
    x.orders (cancelConditionalOrder x symbol exchangeOrderId s).2 = (x.orders s).filter (· ≠ order)
  replaces : ∀ s newTriggerPrice newQuantity clientOrderId limitPrice result s',
    order ∈ x.orders s →
      cancelAndReplaceTp x precision symbol exchangeOrderId newTriggerPrice newQuantity
        clientOrderId limitPrice s = (.ok result, s') →
      ∃ order' : TpOrder, order'.symbol = normalizeSymbol symbol ∧
        order'.tpslMode = .partialMode ∧
        order'.triggerPrice = precision.price symbol newTriggerPrice ∧
        order'.size = some (precision.amount symbol newQuantity) ∧
        x.orders s' = (x.orders s).filter (· ≠ order) ++ [order']
  noFull : ∀ s newTriggerPrice newQuantity clientOrderId limitPrice result s',
    order ∈ x.orders s →
      cancelAndReplaceTp x precision symbol exchangeOrderId newTriggerPrice newQuantity
        clientOrderId limitPrice s = (.ok result, s') →
      (∀ o ∈ x.orders s, ¬ o.IsFull (normalizeSymbol symbol)) →
        ∀ o ∈ x.orders s', ¬ o.IsFull (normalizeSymbol symbol)

end

/-! ## Placements -/

section

variable {σ : Type*} {x : Bybit σ} {precision : Precision} {symbol exchangeOrderId : String}
  {s s' : σ} {order : TpOrder} {quantity triggerPrice : ℚ} {side : OrderSide}
  {clientOrderId : String} {reduceOnly : Bool} {limitPrice : Option ℚ} {result : PlacedOrder}

/-- **A placement** adds an order for a part of the position, and reports the client's id. -/
theorem placeTakeProfit_eq_ok
    (h : placeTakeProfit x precision symbol side quantity triggerPrice clientOrderId reduceOnly
      limitPrice s = (.ok result, s')) :
    result.exchangeOrderId = clientOrderId ∧
      ∃ order : TpOrder, order.orderLinkId = clientOrderId ∧
        order.symbol = normalizeSymbol symbol ∧ order.tpslMode = .partialMode ∧
        order.triggerPrice = precision.price symbol triggerPrice ∧
        order.size = some (precision.amount symbol quantity) ∧
        x.orders s' = x.orders s ++ [order] := by
  rw [placeTakeProfit] at h
  split at h
  · exact absurd (congrArg Prod.fst h) (by simp)
  · rename_i payload s'' hanswer
    obtain ⟨hresult, rfl⟩ := Prod.mk.inj h
    obtain rfl := Except.ok.inj hresult
    have hok := congrArg Prod.fst hanswer
    obtain ⟨hpayload, hid, -⟩ := x.tradingStop_empty _ _ _ hok
    obtain ⟨orderId, horders⟩ := x.tradingStop_partial _ _ _ _ _ hok rfl rfl rfl
    have hleft := congrArg x.orders (congrArg Prod.snd hanswer).symm
    refine ⟨?_, ⟨orderId, clientOrderId, normalizeSymbol symbol, .partialMode,
      precision.price symbol triggerPrice, some (precision.amount symbol quantity)⟩,
      rfl, rfl, rfl, rfl, rfl, hleft.trans horders⟩
    rw [conditionalResultFromPayload, hpayload, hid]
    show (if clientOrderId = "" then clientOrderId else clientOrderId) = clientOrderId
    exact ite_self _

/-! ## Cancels -/

/-- With the exchange's id an order is cancelled. -/
theorem cancelConditionalOrder_partialMode (hlive : order ∈ x.orders s)
    (hsymbol : order.symbol = normalizeSymbol symbol)
    (hplain : positionTpslOrderType order.orderId = none) :
    x.orders (cancelConditionalOrder x symbol order.orderId s).2 =
      (x.orders s).filter (· ≠ order) := by
  obtain ⟨hok, horders⟩ := x.cancel_live s order hlive
  rw [cancelConditionalOrder, hplain]
  rw [← hsymbol, ← horders]
  generalize x.cancel order.symbol order.orderId s = answer
  obtain ⟨answer, s'⟩ := answer
  cases answer with
  | error error => rfl
  | ok done => rfl

theorem mem_cancelPositionTradingStop (hlive : order ∈ x.orders s)
    (hpart : order.tpslMode = .partialMode) (orderType : ConditionalOrderType) :
    order ∈ x.orders (cancelPositionTradingStop x symbol orderType s).2 := by
  have hkeeps : ∀ request : TradingStop, request.tpslMode = .fullMode →
      order ∈ x.orders (match x.tradingStop request s with
        | (.error _, s) => (false, s)
        | (.ok _, s) => (true, s) : Bool × σ).2 := by
    intro request hfull
    have hmem := (x.tradingStop_full request s order hfull hpart).mpr hlive
    generalize x.tradingStop request s = answer at hmem
    obtain ⟨answer, s'⟩ := answer
    cases answer with
    | error error => exact hmem
    | ok payload => exact hmem
  cases orderType with
  | stopLoss => exact hkeeps _ rfl
  | takeProfit => exact hkeeps _ rfl
  | trailingStop => exact hkeeps _ rfl

/-- **With another id** an order is not cancelled. -/
theorem mem_cancelConditionalOrder (hlive : order ∈ x.orders s)
    (hpart : order.tpslMode = .partialMode)
    (hother : ¬(order.orderId = exchangeOrderId ∧ positionTpslOrderType exchangeOrderId = none)) :
    order ∈ x.orders (cancelConditionalOrder x symbol exchangeOrderId s).2 := by
  rw [cancelConditionalOrder]
  cases hposition : positionTpslOrderType exchangeOrderId with
  | some orderType => exact mem_cancelPositionTradingStop hlive hpart orderType
  | none =>
    have hne : order.orderId ≠ exchangeOrderId := fun hsame => hother ⟨hsame, hposition⟩
    have hmem : order ∈ x.orders (x.cancel (normalizeSymbol symbol) exchangeOrderId s).2 := by
      by_cases hfound : ∃ o ∈ x.orders s, o.symbol = normalizeSymbol symbol ∧
          o.orderId = exchangeOrderId
      · obtain ⟨o, ho, hsymbol, rfl⟩ := hfound
        rw [← hsymbol, (x.cancel_live s o ho).2]
        refine List.mem_filter.mpr ⟨hlive, decide_eq_true fun hsame => hne ?_⟩
        rw [hsame]
      · rw [x.cancel_unknown]
        · exact hlive
        · exact fun o ho hsymbol hsame => hfound ⟨o, ho, hsymbol, hsame⟩
    generalize x.cancel (normalizeSymbol symbol) exchangeOrderId s = answer at hmem
    obtain ⟨answer, s'⟩ := answer
    cases answer with
    | error error => exact hmem
    | ok done => exact hmem

/-! ## Replacements -/

theorem tpslModeOf_eq_partial {items : List RealtimeItem}
    (hfound : ∃ item ∈ items, item.orderId = exchangeOrderId)
    (hmode : ∀ item ∈ items, item.orderId = exchangeOrderId →
      item.tpslMode = TpslMode.partialMode.text) :
    tpslModeOf exchangeOrderId items = .partialMode := by
  induction items with
  | nil =>
    obtain ⟨item, hitem, -⟩ := hfound
    cases hitem
  | cons item items ih =>
    have htext : lowered (stripped TpslMode.partialMode.text) = "partial" := by decide +kernel
    rw [tpslModeOf]
    split
    · rename_i hsame
      rw [hmode item List.mem_cons_self hsame, if_pos htext]
    · rename_i hne
      refine ih ?_ fun item hitem => hmode item (List.mem_cons_of_mem _ hitem)
      obtain ⟨other, hother, hsame⟩ := hfound
      rcases List.mem_cons.mp hother with rfl | hrest
      · exact absurd hsame hne
      · exact ⟨other, hrest, hsame⟩

/-- **With the exchange's id** an order is replaced by one of the given price and quantity. -/
theorem cancelAndReplaceTp_partialMode (hlive : order ∈ x.orders s)
    (hsymbol : order.symbol = normalizeSymbol symbol) (hpart : order.tpslMode = .partialMode)
    (hplain : positionTpslOrderType order.orderId = none)
    (h : cancelAndReplaceTp x precision symbol order.orderId triggerPrice quantity clientOrderId
      limitPrice s = (.ok result, s')) :
    ∃ order' : TpOrder, order'.symbol = normalizeSymbol symbol ∧
      order'.tpslMode = .partialMode ∧
      order'.triggerPrice = precision.price symbol triggerPrice ∧
      order'.size = some (precision.amount symbol quantity) ∧
      x.orders s' = (x.orders s).filter (· ≠ order) ++ [order'] := by
  have hmode : resolveTpslMode x symbol order.orderId s = .partialMode := by
    obtain ⟨items, hitems, hfound, hmodes⟩ := x.realtime_live s order hlive
    rw [hsymbol] at hitems
    rw [hpart] at hmodes
    rw [resolveTpslMode, hplain, hitems]
    exact tpslModeOf_eq_partial hfound hmodes
  rw [cancelAndReplaceTp, hmode] at h
  obtain ⟨-, order', -, hsymbol', hmode', hprice, hsize, horders⟩ := placeTakeProfit_eq_ok h
  refine ⟨order', hsymbol', hmode', hprice, hsize, ?_⟩
  rw [horders, cancelConditionalOrder_partialMode hlive hsymbol hplain]

/-! ## Ids that can be used -/

theorem not_usable_of_other (hlive : order ∈ x.orders s) (hpart : order.tpslMode = .partialMode)
    (hother : ¬(order.orderId = exchangeOrderId ∧ positionTpslOrderType exchangeOrderId = none)) :
    ¬ Usable x precision symbol order exchangeOrderId := by
  intro husable
  have hkept := @mem_cancelConditionalOrder σ x symbol exchangeOrderId s order hlive hpart hother
  rw [husable.cancels s hlive] at hkept
  exact of_decide_eq_true (List.mem_filter.mp hkept).2 rfl

/-- **The ids of take-profit orders**: of an order that was placed, the id that was reported can be
used exactly if it is the exchange's id of the order, and not that of a position's protection. -/
theorem usable_iff
    (h : placeTakeProfit x precision symbol side quantity triggerPrice clientOrderId reduceOnly
      limitPrice s = (.ok result, s')) :
    ∃ order : TpOrder, order.orderLinkId = clientOrderId ∧
      order.symbol = normalizeSymbol symbol ∧ order.tpslMode = .partialMode ∧
      order.triggerPrice = precision.price symbol triggerPrice ∧
      order.size = some (precision.amount symbol quantity) ∧
      x.orders s' = x.orders s ++ [order] ∧
      (Usable x precision symbol order result.exchangeOrderId ↔
        order.orderId = clientOrderId ∧ positionTpslOrderType clientOrderId = none) := by
  obtain ⟨hid, order, hlink, hsymbol, hpart, hprice, hsize, horders⟩ := placeTakeProfit_eq_ok h
  refine ⟨order, hlink, hsymbol, hpart, hprice, hsize, horders, ?_⟩
  rw [hid]
  constructor
  · intro husable
    by_contra hother
    have hlive : order ∈ x.orders s' := by
      rw [horders]
      exact List.mem_append_right _ (List.mem_singleton_self order)
    exact not_usable_of_other hlive hpart hother husable
  · rintro ⟨rfl, hplain⟩
    have hreplaces := fun s newTriggerPrice newQuantity clientOrderId limitPrice result s' hlive
        h =>
      @cancelAndReplaceTp_partialMode σ x precision symbol s s' order newQuantity newTriggerPrice
        clientOrderId limitPrice result hlive hsymbol hpart hplain h
    refine ⟨fun s hlive => cancelConditionalOrder_partialMode hlive hsymbol hplain, hreplaces, ?_⟩
    intro s newTriggerPrice newQuantity clientOrderId limitPrice result s' hlive h hnone o ho
    obtain ⟨order', -, hmode, -, -, horders'⟩ := hreplaces _ _ _ _ _ _ _ hlive h
    rw [horders'] at ho
    rcases List.mem_append.mp ho with hold | hnew
    · exact hnone o (List.mem_filter.mp hold).1
    · rw [List.mem_singleton.mp hnew]
      exact fun hfull => absurd (hmode.symm.trans hfull.2) (by decide)

end

/-! ## A book of orders -/

section

/-- The longest id of a list of orders. -/
def longestId (orders : List TpOrder) : ℕ := (orders.map fun o => o.orderId.length).foldr max 0

/-- An id that no order has: the client's own, if the exchange takes it over and it is free, else
one that is longer than all others. -/
def freshOrderId (echo : Bool) (orderLinkId : String) (orders : List TpOrder) : String :=
  if echo ∧ orderLinkId ∉ orders.map TpOrder.orderId then orderLinkId
  else String.ofList (List.replicate (longestId orders + 1) 'x')

theorem length_le_longestId {orders : List TpOrder} {o : TpOrder} (ho : o ∈ orders) :
    o.orderId.length ≤ longestId orders := by
  induction orders with
  | nil => exact absurd ho List.not_mem_nil
  | cons head orders ih =>
    rcases List.mem_cons.mp ho with rfl | hrest
    · exact le_max_left _ _
    · exact (ih hrest).trans (le_max_right _ _)

theorem freshOrderId_notMem (echo : Bool) (orderLinkId : String) (orders : List TpOrder) :
    freshOrderId echo orderLinkId orders ∉ orders.map TpOrder.orderId := by
  rw [freshOrderId]
  split
  · rename_i hfree
    exact hfree.2
  · intro hmem
    obtain ⟨o, ho, hid⟩ := List.mem_map.mp hmem
    have hle := length_le_longestId ho
    rw [hid, String.length_ofList, List.length_replicate] at hle
    omega

/-- The orders of a book, with ids that are all different. -/
abbrev Book := { orders : List TpOrder // (orders.map TpOrder.orderId).Nodup }

namespace Book

variable (echo : Bool)

/-- An order is added under a fresh id. -/
def add (o : TpOrder) (book : Book) : Book :=
  ⟨book.1 ++ [{ o with orderId := freshOrderId echo o.orderLinkId book.1 }], by
    rw [List.map_append]
    refine List.Nodup.append book.2 (List.nodup_singleton _) ?_
    rw [List.disjoint_right]
    intro id hid
    rw [List.mem_singleton.mp hid]
    exact freshOrderId_notMem echo o.orderLinkId book.1⟩

def keep (p : TpOrder → Bool) (book : Book) : Book :=
  ⟨book.1.filter p, book.2.sublist (List.filter_sublist.map _)⟩

theorem eq_of_orderId (book : Book) {o o' : TpOrder} (ho : o ∈ book.1) (ho' : o' ∈ book.1)
    (hid : o.orderId = o'.orderId) : o = o' :=
  List.inj_on_of_nodup_map book.2 ho ho' hid

/-- A trading-stop request to the book. -/
def tradingStop (request : TradingStop) (book : Book) : Except BybitAPIError Payload × Book :=
  match request.tpslMode with
  | .partialMode =>
      match request.takeProfit, request.tpSize with
      | some triggerPrice, some size =>
          (.ok { retMsg := some "OK" },
            book.add echo ⟨"", request.orderLinkId.getD "", request.symbol, .partialMode,
              triggerPrice, some size⟩)
      | _, _ => (.error ⟨400, "tpSize"⟩, book)
  | .fullMode =>
      match request.takeProfit with
      | none => (.ok { retMsg := some "OK" }, book)
      | some triggerPrice =>
          let cleared := book.keep fun o => ¬ o.IsFull request.symbol
          if triggerPrice = "0" then (.ok { retMsg := some "OK" }, cleared)
          else
            (.ok { retMsg := some "OK" },
              cleared.add echo ⟨"", "", request.symbol, .fullMode, triggerPrice, none⟩)

def cancel (symbol orderId : String) (book : Book) : Except BybitAPIError Unit × Book :=
  if ∃ o ∈ book.1, o.symbol = symbol ∧ o.orderId = orderId then
    (.ok (), book.keep fun o => ¬(o.symbol = symbol ∧ o.orderId = orderId))
  else (.error ⟨400, "order not exists"⟩, book)

/-- The orders that are found by the exchange's id. -/
def realtime (symbol orderId : String) (book : Book) : List RealtimeItem :=
  (book.1.filter fun o => o.symbol = symbol ∧ o.orderId = orderId).map fun o =>
    ⟨o.orderId, o.tpslMode.text⟩

theorem mem_keep {p : TpOrder → Bool} {book : Book} {o : TpOrder} :
    o ∈ (book.keep p).1 ↔ o ∈ book.1 ∧ p o = true :=
  List.mem_filter

theorem mem_tradingStop_full {request : TradingStop} {book : Book} {o : TpOrder}
    (hmode : request.tpslMode = .fullMode) (hpart : o.tpslMode = .partialMode) :
    o ∈ (book.tradingStop echo request).2.1 ↔ o ∈ book.1 := by
  have hnot : ¬ o.IsFull request.symbol := fun hfull =>
    absurd (hpart.symm.trans hfull.2) (by decide)
  have hkeep : o ∈ (book.keep fun o => ¬ o.IsFull request.symbol).1 ↔ o ∈ book.1 := by
    rw [mem_keep, decide_eq_true_eq]
    exact and_iff_left hnot
  rw [tradingStop, hmode]
  cases request.takeProfit with
  | none => exact Iff.rfl
  | some triggerPrice =>
    dsimp only
    split
    · exact hkeep
    · refine Iff.trans List.mem_append ((or_iff_left fun hnew => ?_).trans hkeep)
      rw [List.mem_singleton.mp hnew] at hpart
      exact absurd (show TpslMode.fullMode = .partialMode from hpart) (by decide)

theorem found_iff {book : Book} {o other : TpOrder} (ho : o ∈ book.1) (hother : other ∈ book.1) :
    other.symbol = o.symbol ∧ other.orderId = o.orderId ↔ other = o := by
  constructor
  · exact fun hfound => book.eq_of_orderId hother ho hfound.2
  · rintro rfl
    exact ⟨rfl, rfl⟩

end Book

def bookExchange (echo : Bool) : Bybit Book where
  orders book := book.1
  tradingStop := Book.tradingStop echo
  cancel := Book.cancel
  realtime symbol orderId book := .ok (book.realtime symbol orderId)
  position _ _ := some (some .long)
  orderIds_nodup book := book.2
  tradingStop_refused := by
    rintro ⟨symbol, mode, takeProfit, _, _, _, tpSize, _, _, _, _⟩ book error h
    cases mode with
    | partialMode =>
      cases takeProfit with
      | none => rfl
      | some triggerPrice =>
        cases tpSize with
        | none => rfl
        | some size => exact absurd h (by simp [Book.tradingStop])
    | fullMode =>
      cases takeProfit with
      | none => rfl
      | some triggerPrice =>
        rw [Book.tradingStop] at h
        dsimp only at h
        split at h
        · exact absurd h (by simp)
        · exact absurd h (by simp)
  tradingStop_empty := by
    rintro ⟨symbol, mode, takeProfit, _, _, _, tpSize, _, _, _, _⟩ book payload h
    have hempty : payload = { retMsg := some "OK" } := by
      cases mode with
      | partialMode =>
        cases takeProfit with
        | none => exact absurd h (by simp [Book.tradingStop])
        | some triggerPrice =>
          cases tpSize with
          | none => exact absurd h (by simp [Book.tradingStop])
          | some size => exact (Except.ok.inj h).symm
      | fullMode =>
        cases takeProfit with
        | none => exact (Except.ok.inj h).symm
        | some triggerPrice =>
          rw [Book.tradingStop] at h
          dsimp only at h
          split at h
          · exact (Except.ok.inj h).symm
          · exact (Except.ok.inj h).symm
    rw [hempty]
    exact ⟨rfl, rfl, rfl⟩
  tradingStop_partial request book payload triggerPrice size _ hmode hprice hsize := by
    rw [Book.tradingStop, hmode, hprice, hsize]
    exact ⟨_, rfl⟩
  tradingStop_full _ _ _ hmode hpart := Book.mem_tradingStop_full echo hmode hpart
  tradingStop_setsFull request book payload triggerPrice _ hmode hprice hzero := by
    rw [Book.tradingStop, hmode, hprice]
    dsimp only
    rw [if_neg hzero]
    exact ⟨_, List.mem_append_right _ (List.mem_singleton_self _), ⟨rfl, rfl⟩, rfl⟩
  cancel_live book o ho := by
    rw [Book.cancel, if_pos ⟨o, ho, rfl, rfl⟩]
    refine ⟨rfl, List.filter_congr fun other hother => ?_⟩
    rw [decide_eq_decide, Book.found_iff ho hother]
  cancel_unknown book symbol orderId h := by
    rw [Book.cancel, if_neg]
    rintro ⟨o, ho, hsymbol, hid⟩
    exact h o ho hsymbol hid
  realtime_live book o ho := by
    refine ⟨_, rfl, ⟨⟨o.orderId, o.tpslMode.text⟩, ?_, rfl⟩, ?_⟩
    · exact List.mem_map.mpr ⟨o, List.mem_filter.mpr ⟨ho, decide_eq_true ⟨rfl, rfl⟩⟩, rfl⟩
    · rintro item hitem -
      obtain ⟨other, hother, rfl⟩ := List.mem_map.mp hitem
      obtain ⟨hmem, hfound⟩ := List.mem_filter.mp hother
      rw [(Book.found_iff ho hmem).mp (of_decide_eq_true hfound)]
  realtime_unknown book symbol orderId h items hitems item hitem := by
    rw [← Except.ok.inj hitems] at hitem
    obtain ⟨o, ho, rfl⟩ := List.mem_map.mp hitem
    obtain ⟨hmem, hfound⟩ := List.mem_filter.mp ho
    exact h o hmem (of_decide_eq_true hfound).1

/-- Prices and quantities in whole numbers. -/
def wholeNumbers : Precision where
  price _ x := String.ofList (natText ⌊x⌋.toNat)
  amount _ x := String.ofList (natText ⌊x⌋.toNat)
  price_isSome _ x := by
    rw [(parseDecimal_natText _).2]
    rfl
  amount_isSome _ x := by
    rw [(parseDecimal_natText _).2]
    rfl

def noOrders : Book := ⟨[], List.nodup_nil⟩

/-- An exchange that takes over the client's id: the id that is reported can be used. -/
theorem usable_takenOver :
    ∃ result book order,
      placeTakeProfit (bookExchange true) wholeNumbers "BTC/USDT:USDT" .sell 1 100 "tp-1" true none
        noOrders = (.ok result, book) ∧ book.1 = [order] ∧
      Usable (bookExchange true) wholeNumbers "BTC/USDT:USDT" order result.exchangeOrderId := by
  obtain ⟨result, book, h, hbook⟩ : ∃ result book,
      placeTakeProfit (bookExchange true) wholeNumbers "BTC/USDT:USDT" .sell 1 100 "tp-1" true none
          noOrders = (.ok result, book) ∧
        book.1.map TpOrder.orderId = ["tp-1"] := by
    refine ⟨_, _, rfl, ?_⟩
    decide +kernel
  obtain ⟨order, -, -, -, -, -, horders, hiff⟩ := usable_iff h
  have hone : book.1 = [order] := horders
  refine ⟨result, book, order, h, hone, hiff.mpr ⟨?_, by decide +kernel⟩⟩
  rw [hone] at hbook
  exact List.singleton_inj.mp hbook

/-- An exchange with ids of its own: the cancel fails, and the replacement of one take-profit out of
two is a take-profit for the whole position. -/
theorem not_usable_ownIds :
    ∃ result book, placeTakeProfit (bookExchange false) wholeNumbers "BTC/USDT:USDT" .sell 1 100
        "tp-1" true none noOrders = (.ok result, book) ∧
      (∃ order ∈ book.1, ¬ Usable (bookExchange false) wholeNumbers "BTC/USDT:USDT" order
        result.exchangeOrderId) ∧
      (cancelConditionalOrder (bookExchange false) "BTC/USDT:USDT" result.exchangeOrderId
        book).1 = false ∧
      (cancelAndReplaceTp (bookExchange false) wholeNumbers "BTC/USDT:USDT" result.exchangeOrderId
        110 1 "tp-2" none book).2.1.map (fun o => (o.tpslMode, o.triggerPrice, o.size)) =
        [(.partialMode, "100", some "1"), (.fullMode, "110", none)] := by
  obtain ⟨result, book, h, hids, hcancel, hreplaced⟩ : ∃ result book,
      placeTakeProfit (bookExchange false) wholeNumbers "BTC/USDT:USDT" .sell 1 100 "tp-1" true none
          noOrders = (.ok result, book) ∧
        book.1.map TpOrder.orderId = ["x"] ∧
        (cancelConditionalOrder (bookExchange false) "BTC/USDT:USDT" result.exchangeOrderId
          book).1 = false ∧
        (cancelAndReplaceTp (bookExchange false) wholeNumbers "BTC/USDT:USDT"
          result.exchangeOrderId 110 1 "tp-2" none book).2.1.map (fun o =>
            (o.tpslMode, o.triggerPrice, o.size)) =
          [(.partialMode, "100", some "1"), (.fullMode, "110", none)] :=
    ⟨_, _, rfl, by decide +kernel, by decide +kernel, by decide +kernel⟩
  obtain ⟨hid, order, -, -, hpart, -, -, horders⟩ := placeTakeProfit_eq_ok h
  have hone : book.1 = [order] := horders
  have hlive : order ∈ book.1 := by
    rw [hone]
    exact List.mem_singleton_self order
  refine ⟨result, book, h, ⟨order, hlive, ?_⟩, hcancel, hreplaced⟩
  rw [hid]
  refine @not_usable_of_other _ (bookExchange false) _ _ _ book order hlive hpart fun hsame => ?_
  rw [hone, List.map_singleton, hsame.1] at hids
  exact absurd (List.singleton_inj.mp hids) (by decide)

end

end BybitAdapter

end AdviserConstructor
