import AdviserConstructor.Exchange.BybitTakeProfits
import AdviserConstructor.Ws.StopEvents
import AdviserConstructor.Ws.Reductions

/-!
# Take-profit orders that fill in parts

The adapters turn what the exchanges say about an order into one vocabulary of order events, and
`_handle_tp_triggered_event` of `app/services/ws/manager.py` takes the first event of a level's
order that looks like a fill for the fill of the whole level.  An event looks like one as soon as
the trigger has fired or anything has executed: both exchanges report a part in the words in which
they report the whole.

A run here interleaves the executions of the order of one level with events of the order, or of the
order that it has turned into.  The events come in any number and order, and may say anything.

* `isFillEvent_normalizeOrderEvent`, `isFillEvent_normalizeExecutionEvent`,
  `isFillEvent_normalizeAlgoUpdate`, `isFillEvent_normalizeOrderTradeUpdate`: the messages of the
  two exchanges that look like fills.
* `position_of_run`: behind the first of them the context is that of processing the level once,
  however the order was split, and nothing changes it again.
* `oncePerOrder_iff`: the level is processed only once all of the order has executed in exactly
  those runs in which no event of the level's order looks like a fill before.
-/

namespace AdviserConstructor

open PositionContext StepSystem DecimalText

/-! ## What the exchanges say -/

/-- An item of Bybit's `order` topic, under its field names.  A number that does not parse is `0`;
the keys that another one stands in for may be missing. -/
structure BybitOrderItem where
  orderId : String := ""
  orderLinkId : String := ""
  orderStatus : String := "new"
  orderType : String := ""
  stopOrderType : String := ""
  takeProfit : Option ℚ := none
  stopLoss : Option ℚ := none
  triggerPrice : Option ℚ := none
  price : Option ℚ := none
  orderPrice : Option ℚ := none
  avgPrice : ℚ := 0
  qty : ℚ := 0
  cumExecQty : ℚ := 0
  reduceOnly : Bool := false
  closeOnTrigger : Bool := false

/-- An item of Bybit's `execution` topic, under its field names. -/
structure BybitExecutionItem where
  orderId : String := ""
  orderLinkId : String := ""
  execType : String := ""
  orderType : String := ""
  stopOrderType : String := ""
  takeProfit : Option ℚ := none
  stopLoss : Option ℚ := none
  triggerPrice : Option ℚ := none
  price : Option ℚ := none
  orderPrice : Option ℚ := none
  execPrice : Option ℚ := none
  execQty : ℚ := 0
  leavesQty : ℚ := 0
  orderQty : ℚ := 0
  markPrice : ℚ := 0

namespace BybitAdapter

/-- The number of a key is there, and positive. -/
def isPositive (value : Option ℚ) : Bool := value.any fun v => 0 < v

/-- `_normalize_order_type`. -/
def normalizeOrderType (stopOrderType : String) (takeProfit stopLoss : Option ℚ) : String :=
  let text := (lowered (stripped stopOrderType)).toList
  if "takeprofit".toList <:+: text then "take_profit"
  else if "stoploss".toList <:+: text then "stop_loss"
  else if "trailing".toList <:+: text then "trailing_stop"
  else if isPositive takeProfit then "take_profit"
  else if isPositive stopLoss then "stop_loss"
  else "unknown"

/-- `_normalize_ws_order_type`. -/
def normalizeWsOrderType (stopOrderType orderType : String) (takeProfit stopLoss : Option ℚ) :
    String :=
  let normalized := normalizeOrderType stopOrderType takeProfit stopLoss
  if normalized ≠ "unknown" then normalized
  else if lowered (stripped orderType) ≠ "" then lowered (stripped orderType)
  else "unknown"

/-- `_resolve_order_trigger_price`: the first of its candidates that is positive. -/
def resolveOrderTriggerPrice (candidates : List (Option ℚ)) : ℚ :=
  ((candidates.find? isPositive).getD none).getD 0

/-- The types of order that an event calls algo orders. -/
def isAlgoType (orderType : String) : Bool :=
  orderType ∈ ["stop_loss", "take_profit", "trailing_stop"]

/-- The event that `_normalize_order_events` makes of an item. -/
def normalizeOrderEvent (item : BybitOrderItem) : OrderEvent where
  orderId := stripped item.orderId
  clientOrderId := stripped item.orderLinkId
  orderType :=
    normalizeWsOrderType item.stopOrderType item.orderType item.takeProfit item.stopLoss
  status := lowered (stripped (normalizeStatus item.orderStatus))
  isAlgo := isAlgoType
    (normalizeWsOrderType item.stopOrderType item.orderType item.takeProfit item.stopLoss)
  reduceOnly := item.reduceOnly
  closeOnTrigger := item.closeOnTrigger
  filledQuantity := item.cumExecQty
  quantity := item.qty
  averagePrice := item.avgPrice
  price := (item.triggerPrice.or item.price).getD 0
  triggerPrice := resolveOrderTriggerPrice
    [item.triggerPrice, item.stopLoss, item.takeProfit, item.price, item.orderPrice]

/-- `_normalize_order_events`. -/
def normalizeOrderEvents (items : List BybitOrderItem) : List OrderEvent :=
  items.map normalizeOrderEvent

/-- The event that `_normalize_execution_events` makes of an item.  It is `triggered` once nothing
of the order is left. -/
def normalizeExecutionEvent (item : BybitExecutionItem) : OrderEvent where
  orderId := stripped item.orderId
  clientOrderId := stripped item.orderLinkId
  orderType :=
    normalizeWsOrderType item.stopOrderType item.orderType item.takeProfit item.stopLoss
  status := if 0 < item.execQty ∧ item.leavesQty ≤ 0 then "triggered" else "new"
  executionType := lowered (stripped item.execType)
  isAlgo := isAlgoType
    (normalizeWsOrderType item.stopOrderType item.orderType item.takeProfit item.stopLoss)
  filledQuantity := item.execQty
  quantity := item.execQty
  orderQuantity := item.orderQty
  price := (item.execPrice.or item.orderPrice).getD 0
  triggerPrice := resolveOrderTriggerPrice
    [item.triggerPrice, item.stopLoss, item.takeProfit, item.price, item.orderPrice]
  markPrice := item.markPrice

/-- `_normalize_execution_events`. -/
def normalizeExecutionEvents (items : List BybitExecutionItem) : List OrderEvent :=
  items.map normalizeExecutionEvent

end BybitAdapter

/-- The payload of an `ORDER_TRADE_UPDATE`, under its field names. -/
structure OrderTradeUpdate where
  /-- order id -/
  i : String := ""
  /-- client order id -/
  c : String := ""
  /-- type -/
  o : String := ""
  /-- execution type -/
  x : String := ""
  /-- order status -/
  X : String := ""
  /-- stop price -/
  sp : Option ℚ := none
  /-- price -/
  p : Option ℚ := none
  /-- average price -/
  ap : Option ℚ := none
  /-- price of the last fill -/
  L : ℚ := 0
  /-- quantity -/
  q : ℚ := 0
  /-- filled quantity, cumulated -/
  z : ℚ := 0
  /-- filled quantity of the last fill -/
  l : ℚ := 0
  /-- reduce only -/
  R : Bool := false
  /-- close position -/
  cp : Bool := false

/-- `_normalize_order_trade_update`. -/
def BinanceAdapter.normalizeOrderTradeUpdate (update : OrderTradeUpdate) : OrderEvent where
  orderId := stripped update.i
  clientOrderId := stripped update.c
  orderType := normalizeOrderType update.o
  status := lowered (stripped (normalizeStatus update.X))
  executionType := lowered (stripped update.x)
  reduceOnly := update.R
  closePosition := update.cp
  lastFilledQuantity := update.l
  filledQuantity := update.z
  quantity := update.q
  averagePrice := update.ap.getD 0
  lastFillPrice := update.L
  price := (update.sp.or (update.p.or update.ap)).getD 0
  triggerPrice := update.sp.getD 0

/-! ## Which of it looks like a fill -/

theorem OrderEvent.isFillEvent_iff (event : OrderEvent) :
    event.isFillEvent = true ↔ event.status ∈ ["filled", "triggered"] ∨
      event.executionType ∈ ["trade", "filled"] ∨
        0 < event.lastFilledQuantity ∨ 0 < event.filledQuantity := by
  rw [isFillEvent, Bool.or_eq_true, Bool.or_eq_true, Bool.or_eq_true, decide_eq_true_eq,
    decide_eq_true_eq, decide_eq_true_eq, decide_eq_true_eq, or_assoc, or_assoc]

namespace BybitAdapter

/-- **An order item looks like a fill** if its status says so after normalizing, or if anything has
executed. -/
theorem isFillEvent_normalizeOrderEvent (item : BybitOrderItem) :
    (normalizeOrderEvent item).isFillEvent = true ↔
      lowered (stripped (normalizeStatus item.orderStatus)) ∈ ["filled", "triggered"] ∨
        0 < item.cumExecQty := by
  have htype : ¬"" ∈ ["trade", "filled"] := by decide
  rw [OrderEvent.isFillEvent_iff, normalizeOrderEvent]
  rw [or_iff_right htype, or_iff_right (lt_irrefl 0)]

/-- **Every execution looks like a fill**, whatever it leaves of the order. -/
theorem isFillEvent_normalizeExecutionEvent (item : BybitExecutionItem) :
    (normalizeExecutionEvent item).isFillEvent = true ↔
      lowered (stripped item.execType) ∈ ["trade", "filled"] ∨ 0 < item.execQty := by
  rw [OrderEvent.isFillEvent_iff, normalizeExecutionEvent]
  dsimp only
  rw [or_iff_right (lt_irrefl 0)]
  refine or_iff_right_of_imp fun hstatus => .inr ?_
  split_ifs at hstatus with hwhole
  · exact hwhole.1
  · exact absurd hstatus (by decide)

end BybitAdapter

namespace BinanceAdapter

/-- **An algo update looks like a fill** as soon as its trigger has fired. -/
theorem isFillEvent_normalizeAlgoUpdate (update : AlgoUpdate) :
    (normalizeAlgoUpdate update).isFillEvent = true ↔
      normalizeStatus update.X ∈ ["filled", "triggered"] ∨
        lowered update.act ∈ ["trade", "filled"] ∨ 0 < update.aq := by
  rw [OrderEvent.isFillEvent_iff, normalizeAlgoUpdate]
  rw [or_self]

/-- **An order update looks like a fill** as soon as anything has executed. -/
theorem isFillEvent_normalizeOrderTradeUpdate (update : OrderTradeUpdate) :
    (normalizeOrderTradeUpdate update).isFillEvent = true ↔
      lowered (stripped (normalizeStatus update.X)) ∈ ["filled", "triggered"] ∨
        lowered (stripped update.x) ∈ ["trade", "filled"] ∨ 0 < update.l ∨ 0 < update.z := by
  rw [OrderEvent.isFillEvent_iff, normalizeOrderTradeUpdate]

end BinanceAdapter

/-! ## Runs -/

/-- The order of a level that has not been triggered, of a multi-TP position behind its entry. -/
structure LevelOrder where
  start : PositionContext
  level : ℕ
  quantity : ℚ
  underway : start.Underway
  level_lt : level < start.tpLevels.length
  waits : ¬start.Triggered level
  quantity_pos : 0 < quantity

/-- A position, its reconciler, and the order of one of its levels on the exchange. -/
structure OrderRun where
  position : PositionContext
  reconciler : Option ℚ := none
  executed : ℚ := 0
  tasks : List OrderTask := []

/-- What happens next. -/
inductive OrderRunEvent where
  | executed (quantity : ℚ)
  /-- an event of the order arrives, or of the order that it has turned into -/
  | told (event : OrderEvent) (answers : Answers)

namespace LevelOrder

variable (o : LevelOrder)

/-- The event is none of a stop order, and carries the id of the level and of no other one. -/
def addresses (event : OrderEvent) : Bool :=
  event.orderType ∉ ["stop_loss", "trailing_stop"] &&
    o.start.slExchangeOrderId ≠ some event.orderIdentifier &&
    o.start.tpLevels.zipIdx.all fun entry => carries event entry.1 = decide (entry.2 = o.level)

/-- The event is of the order that the level's order has turned into: it is none of a stop order,
and carries the id of no level. -/
def follows (event : OrderEvent) : Bool :=
  event.orderType ∉ ["stop_loss", "trailing_stop"] &&
    o.start.slExchangeOrderId ≠ some event.orderIdentifier && describesNoLevel o.start event

/-- The event is of the level's order and looks like a fill. -/
def saysFilled (event : OrderEvent) : Bool := event.isFillEvent && o.addresses event

/-- The context of processing the level exactly once. -/
def processed : PositionContext := o.start.processFill {} o.level

/-- The run before anything has happened. -/
def initial : OrderRun := { position := o.start }

def step (s : OrderRun) : OrderRunEvent → Option OrderRun
  | .executed quantity =>
      if 0 < quantity ∧ s.executed + quantity ≤ o.quantity then
        some { s with executed := s.executed + quantity }
      else none
  | .told event answers =>
      if o.addresses event = true ∨ o.follows event = true then
        let handled := s.position.routeLifecycleEvent answers event s.reconciler
        some
          { s with
            position := handled.settled answers
            reconciler := handled.reconciler
            tasks := s.tasks ++ handled.tasks }
      else none

/-- The level waits: it is not triggered, nothing is subtracted and nothing dispatched. -/
structure Waits (s : OrderRun) : Prop where
  status : ¬s.position.Triggered o.level
  quantity : s.position.currentQuantity = o.start.currentQuantity
  tasks : s.tasks = []

/-- The level waits until all of its order has executed, and ends in one context, whatever the parts
are and whatever is said of them. -/
structure OncePerOrder (events : List OrderRunEvent) : Prop where
  waits : ∀ before s, before <+: events → run o.step o.initial before = some s →
    s.executed < o.quantity → o.Waits s
  final : ∀ s, run o.step o.initial events = some s →
    (∃ event answers, .told event answers ∈ events ∧ o.saysFilled event = true) →
      s.position = o.processed

/-- An event of the level's order looks like a fill only if all of the order has executed, or the
level is triggered already. -/
def Clear (s : OrderRun) : OrderRunEvent → Prop
  | .executed _ => True
  | .told event _ =>
      o.saysFilled event = true → s.executed = o.quantity ∨ s.position.Triggered o.level

end LevelOrder

/-! ## What the handlers make of the events -/

namespace PositionContext

variable {position : PositionContext} {event : OrderEvent}

theorem mem_cleanupOrderIds_iff {answers : Answers} {id : String}
    (h : id ∈ position.slExchangeOrderId.toList ++
      (position.tpLevels.filter fun level => level.status ≠ .triggered).filterMap
        TPLevel.exchangeOrderId) : id ∈ position.cleanupOrderIds answers ↔ id ≠ "" := by
  rw [cleanupOrderIds, List.mem_append, knownConditionalOrderIds, List.mem_filter,
    fetchOpenConditionalOrderIds, List.mem_filter, decide_eq_true_eq]
  exact ⟨fun hid => hid.elim And.right And.right, fun hne => .inl ⟨h, hne⟩⟩

/-- **The cleanup writes the same** into the position, whatever the exchange says is open: what it
says only adds ids that are none of the position's. -/
theorem cancelRemaining_eq (answers : Answers) (position : PositionContext) :
    position.cancelRemaining answers = position.cancelRemaining {} := by
  have hstop : position.slExchangeOrderId.filter (· ∉ position.cleanupOrderIds answers) =
      position.slExchangeOrderId.filter (· ∉ position.cleanupOrderIds {}) := by
    cases hid : position.slExchangeOrderId with
    | none => rfl
    | some id =>
      have hmem := fun answers => @mem_cleanupOrderIds_iff position answers id (by simp [hid])
      rw [Option.filter_some, Option.filter_some]
      simp only [hmem]
  have hlevels : position.tpLevels.map (cancelLevel (position.cleanupOrderIds answers)) =
      position.tpLevels.map (cancelLevel (position.cleanupOrderIds {})) := by
    refine List.map_congr_left fun level hlevel => ?_
    rw [cancelLevel, cancelLevel]
    cases hid : level.exchangeOrderId with
    | none => rfl
    | some id =>
      dsimp only
      by_cases hopen : level.status ≠ .triggered
      · have hmem := fun answers => @mem_cleanupOrderIds_iff position answers id
          (List.mem_append_right _ (List.mem_filterMap.mpr
            ⟨level, List.mem_filter.mpr ⟨hlevel, decide_eq_true hopen⟩, hid⟩))
        simp only [hmem]
      · rw [if_neg fun h => hopen h.2, if_neg fun h => hopen h.2]
  rw [cancelRemaining, cancelRemaining, hstop, hlevels]

theorem processFill_answers (answers : Answers) (position : PositionContext) (i : ℕ) :
    position.processFill answers i = position.processFill {} i := by
  rw [processFill, processFill, cancelRemaining_eq]

def carriesId (event : OrderEvent) (id : Option String) : Bool :=
  id.any fun id => id ≠ "" && id ∈ event.ids

theorem carries_eq_carriesId (event : OrderEvent) (level : TPLevel) :
    carries event level = carriesId event level.exchangeOrderId := by
  rw [carries]
  cases level.exchangeOrderId with
  | none => rfl
  | some id => rfl

variable {levels levels' : List TPLevel}

theorem any_carries_congr
    (h : levels'.map TPLevel.exchangeOrderId = levels.map TPLevel.exchangeOrderId) :
    levels'.any (carries event) = levels.any (carries event) := by
  have hids : ∀ levels : List TPLevel, levels.any (carries event) =
      (levels.map TPLevel.exchangeOrderId).any (carriesId event) := by
    intro levels
    rw [List.any_map]
    exact congrArg levels.any (funext (carries_eq_carriesId event))
  rw [hids, hids, h]

theorem all_carries_congr {i : ℕ}
    (h : levels'.map TPLevel.exchangeOrderId = levels.map TPLevel.exchangeOrderId) :
    (levels'.zipIdx.all fun entry => carries event entry.1 = decide (entry.2 = i)) =
      levels.zipIdx.all fun entry => carries event entry.1 = decide (entry.2 = i) := by
  have hids : ∀ levels : List TPLevel,
      (levels.zipIdx.all fun entry => carries event entry.1 = decide (entry.2 = i)) =
        (levels.map TPLevel.exchangeOrderId).zipIdx.all fun entry =>
          carriesId event entry.1 = decide (entry.2 = i) := by
    intro levels
    rw [List.zipIdx_map, List.all_map]
    refine congrArg levels.zipIdx.all (funext fun entry => ?_)
    rw [carries_eq_carriesId]
    rfl
  rw [hids, hids, h]

/-- The position knows the orders of `p`, or has forgotten its stop. -/
structure SameOrders (p q : PositionContext) : Prop where
  levels : q.tpLevels.map TPLevel.exchangeOrderId = p.tpLevels.map TPLevel.exchangeOrderId
  stop : ∀ id, q.slExchangeOrderId = some id → p.slExchangeOrderId = some id

theorem sameOrders_fillPosition (position : PositionContext) (i : ℕ) :
    SameOrders position (position.fillPosition i) := by
  rw [fillPosition, MultiTp.handleTpTriggered]
  cases position.tpLevels[i]? with
  | none => exact ⟨rfl, fun _ => id⟩
  | some level =>
    dsimp only
    split_ifs
    · exact ⟨rfl, fun _ => id⟩
    · obtain ⟨machine, hmachine⟩ := closeOrContinue_eq (MultiTp.bookFill position i level)
      rw [hmachine]
      refine ⟨List.ext_getElem? fun j => ?_, fun _ => id⟩
      show ((position.tpLevels.modify i _).map _)[j]? = _
      rw [List.getElem?_map, List.getElem?_map, List.getElem?_modify, Option.map_eq_map,
        Option.map_map]
      refine congrArg₂ Option.map (funext fun level => ?_) rfl
      split_ifs
      · rfl
      · rfl

theorem sameOrders_processFill (answers : Answers) (position : PositionContext) (i : ℕ) :
    SameOrders position (position.processFill answers i) := by
  have hfill := sameOrders_fillPosition position i
  have hcancel : ∀ ids level, (cancelLevel ids level).exchangeOrderId = level.exchangeOrderId := by
    intro ids level
    rw [cancelLevel]
    split
    · split_ifs
      · rfl
      · rfl
    · rfl
  rw [processFill]
  split_ifs
  · refine ⟨?_, fun id hid => hfill.stop id (Option.filter_eq_some_iff.mp hid).1⟩
    show ((position.fillPosition i).tpLevels.map (cancelLevel _)).map TPLevel.exchangeOrderId = _
    rw [List.map_map, ← hfill.levels]
    exact List.map_congr_left fun level _ => hcancel _ level
  · exact hfill

theorem route_of_describesNoLevel (answers : Answers) (reconciler : Option ℚ)
    (h : position.Underway) (hlevels : position.tpLevels ≠ [])
    (htype : event.orderType ∉ ["stop_loss", "trailing_stop"])
    (hstop : position.slExchangeOrderId ≠ some event.orderIdentifier)
    (hother : describesNoLevel position event = true) :
    position.routeLifecycleEvent answers event reconciler =
      { position := position, reconciler := reconciler } := by
  have hsl : position.handleSlTriggeredEvent answers event reconciler = none := by
    have hnot : position.isSlTriggerEvent event = false := by
      rw [isSlTriggerEvent, decide_eq_false htype, Bool.and_eq_false_iff]
      right
      cases hid : position.slExchangeOrderId with
      | none => rfl
      | some id =>
        have hne : event.orderIdentifier ≠ id := fun hsame => hstop (by rw [hid, hsame])
        simp [hne]
    rw [handleSlTriggeredEvent, hnot]
    rfl
  have htp : position.handleTpTriggeredEvent answers event reconciler = none ∨
      position.handleTpTriggeredEvent answers event reconciler =
        some { position := position, reconciler := reconciler } := by
    rw [handleTpTriggeredEvent, if_pos (And.intro h.multi hlevels),
      TpRun.handleMultiTpEvent_of_describesNoLevel hother]
    split_ifs
    · exact .inl rfl
    · exact .inr rfl
  rw [routeLifecycleEvent, TpRun.handleEntryFillEvent_of_underway h, hsl, Option.none_or]
  rcases htp with htp | htp <;> rw [htp] <;> rfl

theorem route_of_not_isFillEvent (answers : Answers) (reconciler : Option ℚ)
    (h : position.Underway) (hfill : event.isFillEvent = false) :
    position.routeLifecycleEvent answers event reconciler =
      { position := position, reconciler := reconciler } := by
  have hsl : position.handleSlTriggeredEvent answers event reconciler = none := by
    rw [handleSlTriggeredEvent, isSlTriggerEvent, hfill]
    rfl
  have htp : position.handleTpTriggeredEvent answers event reconciler = none := by
    rw [handleTpTriggeredEvent, isTpTriggerEvent, hfill]
    rfl
  rw [routeLifecycleEvent, TpRun.handleEntryFillEvent_of_underway h, hsl, htp]
  rfl

end PositionContext

/-! ## The context of a run -/

namespace LevelOrder

variable {o : LevelOrder} {s t : OrderRun} {event : OrderEvent} {answers : Answers}

/-- The context is that of the start, with nothing dispatched, or that of processing the level. -/
structure Sound (o : LevelOrder) (s : OrderRun) : Prop where
  executed_le : s.executed ≤ o.quantity
  context : (s.position = o.start ∧ s.tasks = []) ∨ s.position = o.processed

theorem underway_processed : o.processed.Underway :=
  (processFill_advances o.underway o.level_lt {}).1

theorem triggered_processed : o.processed.Triggered o.level :=
  ((processFill_advances o.underway o.level_lt {}).2.2 o.level).mpr (.inr rfl)

theorem sound_initial (o : LevelOrder) : o.Sound o.initial :=
  ⟨o.quantity_pos.le, .inl ⟨rfl, rfl⟩⟩

theorem Sound.underway (h : o.Sound s) : s.position.Underway := by
  rcases h.context with ⟨hstart, -⟩ | hprocessed
  · exact hstart ▸ o.underway
  · exact hprocessed ▸ underway_processed

theorem Sound.sameOrders (h : o.Sound s) : SameOrders o.start s.position := by
  rcases h.context with ⟨hstart, -⟩ | hprocessed
  · exact hstart ▸ ⟨rfl, fun _ => id⟩
  · exact hprocessed ▸ sameOrders_processFill _ _ _

theorem Sound.waits_iff (h : o.Sound s) : o.Waits s ↔ s.position = o.start ∧ s.tasks = [] := by
  constructor
  · intro hwaits
    refine h.context.resolve_right fun hprocessed => hwaits.status ?_
    rw [hprocessed]
    exact triggered_processed
  · rintro ⟨hstart, htasks⟩
    exact ⟨hstart ▸ o.waits, by rw [hstart], htasks⟩

theorem Sound.triggered_iff (h : o.Sound s) :
    s.position.Triggered o.level ↔ s.position = o.processed := by
  constructor
  · intro htriggered
    refine h.context.resolve_left fun hstart => o.waits ?_
    rw [← hstart.1]
    exact htriggered
  · intro hprocessed
    rw [hprocessed]
    exact triggered_processed

theorem Sound.describesFill (h : o.Sound s) (hsaid : o.saysFilled event = true) :
    describesFill s.position event o.level = true := by
  have hsame := h.sameOrders
  have hlength : s.position.tpLevels.length = o.start.tpLevels.length := by
    have hmap := congrArg List.length hsame.levels
    rwa [List.length_map, List.length_map] at hmap
  rw [saysFilled, addresses, Bool.and_eq_true, Bool.and_eq_true, Bool.and_eq_true] at hsaid
  obtain ⟨hfill, ⟨htype, hstop⟩, hcarries⟩ := hsaid
  rw [decide_eq_true_eq] at hstop
  have hstop' : s.position.slExchangeOrderId ≠ some event.orderIdentifier := fun hid =>
    hstop (hsame.stop _ hid)
  rw [AdviserConstructor.describesFill, hfill, htype, decide_eq_true hstop', hlength,
    decide_eq_true o.level_lt, all_carries_congr hsame.levels, hcarries]
  rfl

theorem Sound.route_of_not_saysFilled (h : o.Sound s)
    (hof : o.addresses event = true ∨ o.follows event = true) (hsaid : o.saysFilled event = false) :
    s.position.routeLifecycleEvent answers event s.reconciler =
      { position := s.position, reconciler := s.reconciler } := by
  rcases hof with haddresses | hfollows
  · rw [saysFilled, haddresses, Bool.and_true] at hsaid
    exact route_of_not_isFillEvent answers s.reconciler h.underway hsaid
  · have hsame := h.sameOrders
    rw [follows, Bool.and_eq_true, Bool.and_eq_true, decide_eq_true_eq, decide_eq_true_eq]
      at hfollows
    obtain ⟨⟨htype, hstop⟩, hother⟩ := hfollows
    refine route_of_describesNoLevel answers s.reconciler h.underway ?_ htype
      (fun hid => hstop (hsame.stop _ hid)) ?_
    · intro hnil
      have hmap := congrArg List.length hsame.levels
      rw [hnil, List.map_nil, List.length_map, List.length_nil] at hmap
      exact absurd o.level_lt (by omega)
    · rw [describesNoLevel, any_carries_congr hsame.levels]
      exact hother

theorem exists_level_of_describesFill {position : PositionContext} {i : ℕ}
    (h : AdviserConstructor.describesFill position event i = true) :
    ∃ level, position.tpLevels[i]? = some level := by
  simp only [AdviserConstructor.describesFill, Bool.and_eq_true, decide_eq_true_eq] at h
  exact ⟨_, List.getElem?_eq_getElem h.1.2⟩

/-- **An event of the order** changes nothing, unless it looks like the fill of the level: behind
it the context is that of processing the level, whether it was before or not. -/
theorem told_cases (h : o.Sound s) (hstep : o.step s (.told event answers) = some t) :
    t.executed = s.executed ∧
      ((o.saysFilled event = false ∧ t.position = s.position ∧ t.tasks = s.tasks) ∨
        (o.saysFilled event = true ∧ t.position = o.processed)) := by
  rw [step] at hstep
  split at hstep
  · next hof =>
    obtain rfl := Option.some.inj hstep
    refine ⟨rfl, ?_⟩
    cases hsaid : o.saysFilled event with
    | false =>
      rw [h.route_of_not_saysFilled hof hsaid]
      exact .inl ⟨rfl, rfl, List.append_nil _⟩
    | true =>
      have hstate : s.position.state ≠ .entering := fun hentering =>
        h.underway.entered.1 (by rw [hentering]; decide)
      have hdescribes := h.describesFill hsaid
      obtain ⟨level, hlevel⟩ := exists_level_of_describesFill hdescribes
      have hsettled := (route_of_describesFill answers s.reconciler hstate h.underway.multi
        hdescribes hlevel).2.1
      have htriggered : level.status = .triggered ↔ s.position.Triggered o.level := by
        rw [Triggered, hlevel, Option.map_some, Option.some.injEq]
      refine .inr ⟨rfl, hsettled.trans ?_⟩
      rcases h.context with ⟨hstart, -⟩ | hprocessed
      · rw [if_neg fun hdone => o.waits (hstart ▸ htriggered.mp hdone), hstart,
          processFill_answers, processed]
      · rw [if_pos (htriggered.mpr (h.triggered_iff.mpr hprocessed)), hprocessed]
  · cases hstep

theorem sound_step (h : o.Sound s) {e : OrderRunEvent} (hstep : o.step s e = some t) :
    o.Sound t := by
  cases e with
  | executed quantity =>
    rw [step] at hstep
    split at hstep
    · next hguard =>
      obtain rfl := Option.some.inj hstep
      exact ⟨hguard.2, h.context⟩
    · cases hstep
  | told event answers =>
    obtain ⟨hexecuted, ⟨-, hposition, htasks⟩ | ⟨-, hprocessed⟩⟩ := told_cases h hstep
    · refine ⟨hexecuted ▸ h.executed_le, ?_⟩
      rw [hposition, htasks]
      exact h.context
    · exact ⟨hexecuted ▸ h.executed_le, .inr hprocessed⟩

/-- **One context for every split**: behind the first event that looks like a fill of the level the
context is that of processing it once, and nothing changes it again. -/
theorem position_of_run (h : o.Sound s) {events : List OrderRunEvent}
    (hrun : run o.step s events = some t) (hdone : s.position = o.processed ∨
      ∃ event answers, .told event answers ∈ events ∧ o.saysFilled event = true) :
    t.position = o.processed := by
  induction events generalizing s with
  | nil =>
    rw [run_nil, Option.some.injEq] at hrun
    rcases hdone with hdone | ⟨_, _, hmem, -⟩
    · exact hrun ▸ hdone
    · cases hmem
  | cons e events ih =>
    obtain ⟨u, hstep, hrest⟩ := (run_cons_eq_some o.step).mp hrun
    refine ih (sound_step h hstep) hrest ?_
    rcases hdone with hprocessed | ⟨event, answers, hmem, hsaid⟩
    · left
      cases e with
      | executed quantity =>
        rw [step] at hstep
        split at hstep
        · exact Option.some.inj hstep ▸ hprocessed
        · cases hstep
      | told event answers =>
        obtain ⟨-, ⟨-, hposition, -⟩ | ⟨-, hposition⟩⟩ := told_cases h hstep
        · exact hposition.trans hprocessed
        · exact hposition
    · rcases List.mem_cons.mp hmem with rfl | hmem
      · left
        obtain ⟨-, ⟨hnot, -⟩ | ⟨-, hposition⟩⟩ := told_cases h hstep
        · exact Bool.noConfusion (hsaid.symm.trans hnot)
        · exact hposition
      · exact .inr ⟨event, answers, hmem, hsaid⟩

/-! ## When the level waits for all of its order -/

/-- The level waits while a part of its order has not executed. -/
def WaitsForAll (o : LevelOrder) (s : OrderRun) : Prop := s.executed < o.quantity → o.Waits s

theorem waitsForAll_step (h : o.Sound s) (hwaits : o.WaitsForAll s) {e : OrderRunEvent}
    (hclear : o.Clear s e) (hstep : o.step s e = some t) : o.WaitsForAll t := by
  intro hpart
  rw [(sound_step h hstep).waits_iff]
  cases e with
  | executed quantity =>
    rw [step] at hstep
    split at hstep
    · next hguard =>
      obtain rfl := Option.some.inj hstep
      have hbefore : s.executed < o.quantity :=
        (lt_add_of_pos_right s.executed hguard.1).trans hpart
      exact h.waits_iff.mp (hwaits hbefore)
    · cases hstep
  | told event answers =>
    obtain ⟨hexecuted, hcases⟩ := told_cases h hstep
    have hbefore : s.executed < o.quantity := hexecuted ▸ hpart
    rcases hcases with ⟨-, hposition, htasks⟩ | ⟨hsaid, -⟩
    · rw [hposition, htasks]
      exact h.waits_iff.mp (hwaits hbefore)
    · rcases hclear hsaid with hall | htriggered
      · exact absurd hall hbefore.ne
      · exact absurd htriggered (hwaits hbefore).status

theorem clear_of_waitsForAll (h : o.Sound s) {e : OrderRunEvent}
    (hnext : ∀ t, o.step s e = some t → o.WaitsForAll t) : o.Clear s e := by
  cases e with
  | executed quantity => trivial
  | told event answers =>
    intro hsaid
    by_contra hnot
    obtain ⟨hpart, -⟩ := not_or.mp hnot
    have haddresses : o.addresses event = true := ((Bool.and_eq_true _ _).mp hsaid).2
    obtain ⟨t, hstep⟩ : ∃ t, o.step s (.told event answers) = some t :=
      ⟨_, if_pos (.inl haddresses)⟩
    obtain ⟨hexecuted, ⟨hfalse, -⟩ | ⟨-, hprocessed⟩⟩ := told_cases h hstep
    · exact Bool.noConfusion (hsaid.symm.trans hfalse)
    · have hwaits := hnext t hstep (hexecuted ▸ h.executed_le.lt_of_ne hpart)
      refine hwaits.status ?_
      rw [hprocessed]
      exact triggered_processed

/-- **The parts of a take-profit order.**  The level is processed once, in one context for every
split, and it waits for the whole of the order in exactly those runs in which no event of the
level's order looks like a fill before all of it has executed. -/
theorem oncePerOrder_iff (o : LevelOrder) (events : List OrderRunEvent) :
    o.OncePerOrder events ↔ AlongRun o.step o.Clear o.initial events := by
  have hstart : o.WaitsForAll o.initial := fun _ => (sound_initial o).waits_iff.mpr ⟨rfl, rfl⟩
  have hwaits : (∀ before s, before <+: events → run o.step o.initial before = some s →
      o.WaitsForAll s) ↔ AlongRun o.step o.Clear o.initial events := by
    rw [forall_prefix_iff_alongRun, and_iff_right hstart]
    constructor
    · exact AlongRun.of_invariant o.step (fun s e t hs _ => sound_step hs)
        (fun s e hs hnext => clear_of_waitsForAll hs hnext) (sound_initial o)
    · exact AlongRun.of_invariant o.step (I := fun s => o.Sound s ∧ o.WaitsForAll s)
        (fun s e t hs hclear hstep =>
          ⟨sound_step hs.1 hstep, waitsForAll_step hs.1 hs.2 hclear hstep⟩)
        (fun s e hs hclear t hstep => waitsForAll_step hs.1 hs.2 hclear hstep)
        ⟨sound_initial o, hstart⟩
  exact ⟨fun h => hwaits.mp h.waits, fun h =>
    ⟨hwaits.mpr h, fun s hrun htold => position_of_run (sound_initial o) hrun (.inr htold)⟩⟩

/-! ## A part of an order -/

/-- A long position of 2 with two targets, whose orders rest on the exchange. -/
def placedTargets : PositionContext :=
  { MultiTp.twoTargets with
    tpLevels := [{ MultiTp.firstTarget with exchangeOrderId := some "tp-1" },
      { closePct := 50, triggerPrice := 120, status := .open, exchangeOrderId := some "tp-2" }] }

def halfTarget : LevelOrder where
  start := placedTargets
  level := 0
  quantity := 1
  underway :=
    { multi := rfl
      entered := And.intro (by decide) (by decide)
      dispatched := fun i hi => absurd hi (Finset.notMem_empty i) }
  level_lt := by decide
  waits := by decide
  quantity_pos := one_pos

/-- A tenth of the order executes, and Bybit's order topic says so. -/
def tenthExecuted : List OrderRunEvent :=
  .executed (1 / 10) :: (BybitAdapter.normalizeOrderEvents
    [{ orderId := "tp-1", orderStatus := "PartiallyFilled", stopOrderType := "TakeProfit"
       qty := 1, cumExecQty := 1 / 10 }]).map fun event => .told event {}

/-- **A tenth of the order is taken for the whole level**: half of the position is subtracted, and
the stop is shifted. -/
theorem not_oncePerOrder_tenthExecuted :
    ¬∀ (o : LevelOrder) (events : List OrderRunEvent), o.OncePerOrder events := by
  intro hall
  have hrun : (run halfTarget.step halfTarget.initial tenthExecuted).map (fun s =>
      (s.executed, s.position.currentQuantity)) = some (1 / 10, 1) := by
    decide +kernel
  obtain ⟨s, hs, hpair⟩ := Option.map_eq_some_iff.mp hrun
  obtain ⟨hexecuted, hquantity⟩ := Prod.mk.inj hpair
  have hpart : s.executed < halfTarget.quantity := by
    rw [hexecuted]
    show (1 / 10 : ℚ) < 1
    norm_num
  have hkept := ((hall halfTarget tenthExecuted).waits _ s (List.prefix_refl _) hs hpart).quantity
  rw [hquantity] at hkept
  exact absurd hkept (by decide +kernel)

end LevelOrder

end AdviserConstructor
