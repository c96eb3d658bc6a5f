import AdviserConstructor.Position.Context
import AdviserConstructor.Position.OrderTask

/-!
# Who enqueues stop-loss tasks

The six places that enqueue a `place_sl` or a `replace_sl` task, each with the parameter
dictionary it builds: the runtime initialisation of `auto_trade/service.py`, the initial
protection and the emergency re-placement of `ws/manager.py`, the stop shift of
`sl_tp/multi_tp.py`, the realtime pipeline of `sl_tp/live_tracker.py` and the `tighten_sl` action
of `watchers/event_bus.py`.

The dictionaries matter beyond the task itself, because the emergency close that a failed task
is turned into is built from them.  Five producers store the closing side; the watcher does not.
-/

namespace AdviserConstructor

/-! ## Client order ids -/

/-- `_build_client_order_id` of the socket manager. -/
def managerClientOrderId (accountId positionId action : String) (nowMs : ℕ) : String :=
  accountId ++ "-" ++ positionId ++ "-" ++ action ++ "-" ++ toString nowMs

/-- `_build_client_order_id` of the event bus and of the multi-TP engine. -/
def positionClientOrderId (positionId kind : String) (nowMs : ℕ) : String :=
  positionId ++ "-" ++ kind ++ "-" ++ toString nowMs

/-- `_build_position_runtime_order_id`. -/
def runtimeOrderId (positionId kind : String) (nowMs : ℕ) : String :=
  String.ofList (("pos-" ++ positionId ++ "-" ++ kind ++ "-" ++ toString nowMs).toList.take 64)

/-! ## The tasks -/

/-- The stop of `_initialize_position_runtime`, enqueued when the entry brought none along. -/
def initializePositionRuntimeSl (position : PositionContext) (now : ℚ) (nowMs : ℕ) : OrderTask where
  priority := .newConditional
  createdAt := now
  positionId := position.positionId
  action := .placeSl
  params := .ofList
    [("symbol", .str position.symbol),
     ("side", .side (PositionContext.closingOrderSide position.side)),
     ("quantity", .float position.currentQuantity),
     ("full_quantity", .float position.currentQuantity),
     ("trigger_price", .float position.currentSlPrice),
     ("client_order_id", .str (runtimeOrderId position.positionId "sl" nowMs)),
     ("reduce_only", .bool true),
     ("close_position", .bool true)]
  onSuccess := some (.conditionalOrder .sl none)

/-- The stop of `_enqueue_initial_protection_orders`. -/
def enqueueInitialProtectionSl (accountId : String) (position : PositionContext) (now : ℚ)
    (nowMs : ℕ) : Option OrderTask :=
  if 0 < position.currentSlPrice then
    some
      { priority := .newConditional
        createdAt := now
        positionId := position.positionId
        action := .placeSl
        params := .ofList
          [("symbol", .str position.symbol),
           ("side", .side (PositionContext.closingOrderSide position.side)),
           ("quantity", .float position.currentQuantity),
           ("full_quantity", .float position.currentQuantity),
           ("trigger_price", .float position.currentSlPrice),
           ("client_order_id",
             .str (managerClientOrderId accountId position.positionId "sl" nowMs)),
           ("reduce_only", .bool true),
           ("close_position", .bool true)]
        onSuccess := some (.conditionalOrder .sl none) }
  else none

/-- `_enqueue_emergency_sl`. -/
def enqueueEmergencySl (accountId : String) (position : PositionContext) (now : ℚ) (nowMs : ℕ) :
    Option OrderTask :=
  if position.currentQuantity ≤ 0 ∨ position.currentSlPrice ≤ 0 then none
  else
    some
      { priority := .emergencySl
        createdAt := now
        positionId := position.positionId
        action := .placeSl
        params := .ofList
          [("symbol", .str position.symbol),
           ("side", .side (PositionContext.closingOrderSide position.side)),
           ("quantity", .float position.currentQuantity),
           ("full_quantity", .float position.currentQuantity),
           ("trigger_price", .float position.currentSlPrice),
           ("client_order_id",
             .str (managerClientOrderId accountId position.positionId "emergency-sl" nowMs)),
           ("reduce_only", .bool true),
           ("close_position", .bool true),
           ("reason", .str "ws_full_state_sync_missing_sl")] }

/-- `_enqueue_sl_replace` of the multi-TP engine; the callback comes from the engine's owner. -/
def enqueueSlReplace (position : PositionContext) (newSlPrice : ℚ) (triggeredLevel : ℕ)
    (markPrice : Option ℚ) (onSuccess : Option SuccessCallback) (now : ℚ) (nowMs : ℕ) :
    OrderTask where
  priority := .slAdjustment
  createdAt := now
  positionId := position.positionId
  action := .replaceSl
  params := .ofList
    ([("symbol", .str position.symbol),
      ("existing_order_id",
        .str
          (match position.slExchangeOrderId with
          | some id => if id ≠ "" then id else "active-sl"
          | none => "active-sl")),
      ("new_trigger_price", .float newSlPrice),
      ("trigger_price", .float newSlPrice),
      ("new_quantity", .float position.currentQuantity),
      ("full_quantity", .float position.currentQuantity),
      ("side", .side (PositionContext.closingOrderSide position.side)),
      ("client_order_id", .str (positionClientOrderId position.positionId "sl" nowMs)),
      ("close_position", .bool true),
      ("reason", .str ("tp" ++ toString (triggeredLevel + 1) ++ "_hit_sl_adjustment"))] ++
      match markPrice with
      | some mark => [("mark_price_at_dispatch", .float mark)]
      | none => [])
  onSuccess := onSuccess

/-- `_dispatch_replace_sl` of the realtime adjuster. -/
def dispatchReplaceSl (accountId : String) (position : PositionContext) (newSlPrice : ℚ)
    (reason : String) (now : ℚ) (nowMs : ℕ) : Option OrderTask :=
  match position.slExchangeOrderId with
  | none => none
  | some existing =>
      if existing = "" ∨ position.currentQuantity ≤ 0 then none
      else
        some
          { priority := .slAdjustment
            createdAt := now
            positionId := position.positionId
            action := .replaceSl
            params := .ofList
              [("symbol", .str position.symbol),
               ("existing_order_id", .str existing),
               ("new_trigger_price", .float newSlPrice),
               ("trigger_price", .float newSlPrice),
               ("new_quantity", .float position.currentQuantity),
               ("full_quantity", .float position.currentQuantity),
               ("side", .side (PositionContext.closingOrderSide position.side)),
               ("client_order_id",
                 .str (managerClientOrderId accountId position.positionId "rt-sl" nowMs)),
               ("close_position", .bool false),
               ("reason", .str ("realtime_pipeline:" ++ reason))] }

/-- `compute_tightened_sl`. -/
def computeTightenedSl (position : PositionContext)
    (currentPrice atrValue offsetMultiplier : ℚ) : Option ℚ :=
  if atrValue ≤ 0 ∨ offsetMultiplier ≤ 0 then none
  else
    let distance := atrValue * offsetMultiplier
    if position.side = .short then
      let candidate := currentPrice + distance
      if position.currentSlPrice ≤ candidate then none else some candidate
    else
      let candidate := currentPrice - distance
      if candidate ≤ position.currentSlPrice then none else some candidate

/-- The `tighten_sl` branch of `handle_watcher_event`, from the tightened price on. -/
def tightenSl (position : PositionContext) (currentPrice atrValue offsetMultiplier : ℚ)
    (indicator condition : String) (now : ℚ) (nowMs : ℕ) : Option OrderTask :=
  match computeTightenedSl position currentPrice atrValue offsetMultiplier with
  | none => none
  | some newSl =>
      match position.slExchangeOrderId with
      | none => none
      | some existing =>
          if existing = "" then none
          else
            some
              { priority := .slAdjustment
                createdAt := now
                positionId := position.positionId
                action := .replaceSl
                params := .ofList
                  [("symbol", .str position.symbol),
                   ("existing_order_id", .str existing),
                   ("new_trigger_price", .float newSl),
                   ("new_quantity", .float position.currentQuantity),
                   ("client_order_id",
                     .str (positionClientOrderId position.positionId "watcher-sl" nowMs)),
                   ("reason", .str ("indicator:" ++ indicator ++ ":" ++ condition))] }

/-- A producer of stop-loss tasks with what it knows beyond the position. -/
inductive SlProducer where
  | runtimeInitialization
  | initialProtection
  | emergencySl
  | multiTpShift (newSlPrice : ℚ) (triggeredLevel : ℕ) (markPrice : Option ℚ)
      (onSuccess : Option SuccessCallback)
  | realtimePipeline (newSlPrice : ℚ) (reason : String)
  | watcherTightenSl (currentPrice atrValue offsetMultiplier : ℚ) (indicator condition : String)
  deriving DecidableEq

namespace SlProducer

/-- The task that a producer enqueues for a position, if it enqueues one. -/
def task (accountId : String) (position : PositionContext) (now : ℚ) (nowMs : ℕ) :
    SlProducer → Option OrderTask
  | .runtimeInitialization => some (initializePositionRuntimeSl position now nowMs)
  | .initialProtection => enqueueInitialProtectionSl accountId position now nowMs
  | .emergencySl => enqueueEmergencySl accountId position now nowMs
  | .multiTpShift newSlPrice triggeredLevel markPrice onSuccess =>
      some (enqueueSlReplace position newSlPrice triggeredLevel markPrice onSuccess now nowMs)
  | .realtimePipeline newSlPrice reason =>
      dispatchReplaceSl accountId position newSlPrice reason now nowMs
  | .watcherTightenSl currentPrice atrValue offsetMultiplier indicator condition =>
      tightenSl position currentPrice atrValue offsetMultiplier indicator condition now nowMs

def isWatcher : SlProducer → Bool
  | .watcherTightenSl .. => true
  | _ => false

end SlProducer

end AdviserConstructor
