import Mathlib.Data.List.Infix
import AdviserConstructor.Position.TaskParams

/-!
# Order tasks

The queue item of `app/services/position/order_queue.py`, the key under which the queue
coalesces it (`_task_key`), the adapter call it turns into (`_execute_task`) and the emergency
task that its failure turns into (`_handle_max_retries`, `_handle_fatal_error`).

The source's key is the text `position:action[:kind:value]`.  Position ids are the decimal ids
of database rows and hold no colon, so the parts of a key can be read off the text, and the
model keeps them apart in a structure.  A target price enters the text through `.10g`, that is
through its value at ten significant digits.

`on_success` is a closure in the source; here it is the record of which of the two callback
builders made it and with which arguments.
-/

namespace AdviserConstructor

open DecimalText

/-- `OrderPriority`. -/
inductive OrderPriority where
  | emergencySl | emergencyClose | slAdjustment | tpAdjustment | partialClose
  | newConditional | cancelOrder
  deriving DecidableEq, Repr

/-- The integer value; a lower one is executed first. -/
def OrderPriority.value : OrderPriority → ℕ
  | .emergencySl => 0
  | .emergencyClose => 1
  | .slAdjustment => 10
  | .tpAdjustment => 20
  | .partialClose => 30
  | .newConditional => 40
  | .cancelOrder => 50

/-- The action of a task; `unsupported` is any other string. -/
inductive TaskAction where
  | placeSl | replaceSl | placeTp | replaceTp | partialClose | emergencyMarketClose
  | cancelOrder | unsupported (name : String)
  deriving DecidableEq, Repr

/-- `action in {"place_sl", "replace_sl"}`. -/
def TaskAction.isSl : TaskAction → Bool
  | .placeSl | .replaceSl => true
  | _ => false

/-- The `source` argument of `_build_conditional_order_callback`. -/
inductive ConditionalSource where
  | sl | tp
  deriving DecidableEq, Repr

/-- Which callback a task carries: `_build_conditional_order_callback` or
`_build_sl_adjustment_callback`, with its arguments. -/
inductive SuccessCallback where
  | conditionalOrder (source : ConditionalSource) (levelIndex : Option ℕ)
  | slAdjustment (reason triggerSource : String)
  deriving DecidableEq, Repr

/-- `OrderTask`. -/
structure OrderTask where
  priority : OrderPriority
  createdAt : ℚ
  positionId : String
  action : TaskAction
  params : TaskParams
  retryCount : ℕ := 0
  maxRetries : ℕ := 3
  onSuccess : Option SuccessCallback := none
  deriving DecidableEq

/-- The dataclass order: priority first, creation time second. -/
def OrderTask.lt (a b : OrderTask) : Bool :=
  a.priority.value < b.priority.value ∨
    (a.priority.value = b.priority.value ∧ a.createdAt < b.createdAt)

/-! ## Keys -/

/-- The part of a task key behind `position:action`. -/
inductive KeyDetail where
  | bare
  | level (value : PyVal)
  | order (value : PyVal)
  | target (price : ℚ)
  | rawTarget (value : PyVal)
  deriving DecidableEq, Repr

/-- A task key. -/
structure TaskKey where
  positionId : String
  action : TaskAction
  detail : KeyDetail
  deriving DecidableEq, Repr

/-- The target price of a stop-loss task,
`payload.get("new_trigger_price", payload.get("trigger_price"))`. -/
def TaskParams.slTarget (params : TaskParams) : PyVal :=
  params.getD "new_trigger_price" (params.lookup "trigger_price")

/-- What tells the tasks of one position and action apart. -/
def keyDetail (action : TaskAction) (params : TaskParams) : KeyDetail :=
  match action with
  | .placeTp =>
      match params.lookup "level" with
      | .none => .bare
      | level => .level level
  | .replaceTp =>
      if (params.lookup "existing_order_id").truthy then
        .order (params.lookup "existing_order_id")
      else .bare
  | .placeSl | .replaceSl =>
      match params.slTarget with
      | .none => .bare
      | target =>
          match target.toFloat? with
          | some price => .target (roundSignificant 10 price)
          | none => .rawTarget target
  | .cancelOrder =>
      if (params.lookup "order_id").truthy then .order (params.lookup "order_id") else .bare
  | _ => .bare

/-- `_task_key`. -/
def taskKey (positionId : String) (action : TaskAction) (params : TaskParams) : TaskKey :=
  ⟨positionId, action, keyDetail action params⟩

/-- The key of a task with its present parameters. -/
def OrderTask.key (task : OrderTask) : TaskKey :=
  taskKey task.positionId task.action task.params

/-- `_is_multi_tp_reason`. -/
def isMultiTpReason : PyVal → Bool
  | .str reason =>
      decide ("tp".toList <+: reason.toList ∧ "sl_adjustment".toList <:+: reason.toList)
  | _ => false

/-! ## Execution -/

/-- `EMERGENCY_CLOSE_DUST_EPSILON`. -/
def emergencyCloseDustEpsilon : ℚ := 1 / 1000000

open TaskParams in
/-- The emergency branch of `_execute_task`: re-query the live position, skip when it is flat
or unknown, else close what is live.  `defaultId` is what `_build_emergency_client_order_id`
would build. -/
def executeEmergencyClose (params : TaskParams) (live : PositionReply) (defaultId : String) :
    Except TaskError (Option AdapterCall) := do
  let symbol ← requireStr params "symbol"
  match live with
  | .raised => return none
  | .noPosition => return none
  | .snapshot snapshot =>
      let liveSize := |snapshot.size|
      if liveSize ≤ emergencyCloseDustEpsilon then
        return none
      let requested ← resolveEmergencyQuantity params
      let quantity := if requested ≤ 0 then liveSize else min requested liveSize
      let side ← requireSide params "side"
      let clientOrderId ← requireStr params "client_order_id" (.str defaultId)
      return some (.partialClose symbol side quantity clientOrderId "market" none)

open TaskParams in
/-- `_execute_task`: the adapter call that a task turns into, or the exception that its
parameters raise.  `live` answers the `get_position` of the emergency branch. -/
def executeTask (action : TaskAction) (params : TaskParams) (live : PositionReply)
    (defaultId : String) : Except TaskError (Option AdapterCall) :=
  match action with
  | .placeSl => do
      let symbol ← requireStr params "symbol"
      let side ← requireSide params "side"
      let quantity ← requireFloat params "quantity"
      let triggerPrice ← requireFloat params "trigger_price"
      let clientOrderId ← requireStr params "client_order_id"
      return some (.placeStopLoss symbol side quantity triggerPrice clientOrderId
        (requireBool params "reduce_only" true) (requireBool params "close_position" false))
  | .replaceSl => do
      let symbol ← requireStr params "symbol"
      let existingOrderId ← requireStr params "existing_order_id"
      let newTriggerPrice ← requireFloat params "new_trigger_price"
      let newQuantity ← requireFloat params "new_quantity"
      let clientOrderId ← requireStr params "client_order_id"
      return some (.cancelAndReplaceSl symbol existingOrderId newTriggerPrice newQuantity
        clientOrderId (requireBool params "close_position" true))
  | .placeTp => do
      let symbol ← requireStr params "symbol"
      let side ← requireSide params "side"
      let quantity ← requireFloat params "quantity"
      let triggerPrice ← requireFloat params "trigger_price"
      let clientOrderId ← requireStr params "client_order_id"
      let limitPrice ← optionalFloat params "limit_price"
      return some (.placeTakeProfit symbol side quantity triggerPrice clientOrderId
        (requireBool params "reduce_only" true) limitPrice)
  | .replaceTp => do
      let symbol ← requireStr params "symbol"
      let existingOrderId ← requireStr params "existing_order_id"
      let newTriggerPrice ← requireFloat params "new_trigger_price"
      let newQuantity ← requireFloat params "new_quantity"
      let clientOrderId ← requireStr params "client_order_id"
      let limitPrice ← optionalFloat params "limit_price"
      return some (.cancelAndReplaceTp symbol existingOrderId newTriggerPrice newQuantity
        clientOrderId limitPrice)
  | .partialClose => do
      let symbol ← requireStr params "symbol"
      let side ← requireSide params "side"
      let quantity ← requireFloat params "quantity"
      let clientOrderId ← requireStr params "client_order_id"
      let orderType ← requireStr params "order_type" (.str "market")
      let price ← optionalFloat params "price"
      return some (.partialClose symbol side quantity clientOrderId orderType price)
  | .emergencyMarketClose => executeEmergencyClose params live defaultId
  | .cancelOrder => do
      let symbol ← requireStr params "symbol"
      let orderId ← requireStr params "order_id"
      return some (.cancelConditionalOrder symbol orderId)
  | .unsupported name => .error (.other ("Unsupported order task action: " ++ name))

theorem executeTask_of_isSl {action : TaskAction} (h : action.isSl = true) (params : TaskParams)
    (live live' : PositionReply) (defaultId defaultId' : String) :
    executeTask action params live defaultId = executeTask action params live' defaultId' := by
  cases action <;> first | rfl | exact absurd h (by simp [TaskAction.isSl])

/-! ## Escalation -/

/-- The quantity that an emergency task inherits,
`get("full_quantity", get("quantity", get("new_quantity")))`. -/
def TaskParams.inheritedQuantity (params : TaskParams) : PyVal :=
  params.getD "full_quantity" (params.getD "quantity" (params.lookup "new_quantity"))

/-- The parameters of the emergency task that a failed stop-loss task is turned into. -/
def emergencyParams (params : TaskParams) (reason : String) : TaskParams :=
  .ofList
    [("symbol", params.lookup "symbol"),
     ("side", params.lookup "side"),
     ("full_quantity", params.inheritedQuantity),
     ("client_order_id", params.lookup "client_order_id"),
     ("reason", .str reason)]

/-- What `_handle_max_retries` and `_handle_fatal_error` enqueue: nothing unless the task is a
stop-loss task with a positive quantity.  They differ only in `reason`. -/
def escalation (task : OrderTask) (reason : String) (now : ℚ) : Option OrderTask :=
  if task.action.isSl = true ∧ task.params.hasPositiveEmergencyQuantity = true then
    some
      { priority := .emergencyClose
        createdAt := now
        positionId := task.positionId
        action := .emergencyMarketClose
        params := emergencyParams task.params reason }
  else none

/-- `_handle_max_retries`. -/
def handleMaxRetries (task : OrderTask) (error : TaskError) (now : ℚ) : Option OrderTask :=
  escalation task ("SL placement failed after retries: " ++ error.message) now

/-- `_handle_fatal_error`. -/
def handleFatalError (task : OrderTask) (error : TaskError) (now : ℚ) : Option OrderTask :=
  escalation task ("SL placement failed (non-transient): " ++ error.message) now

end AdviserConstructor
