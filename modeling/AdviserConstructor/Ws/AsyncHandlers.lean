import Mathlib.Logic.Function.Basic
import AdviserConstructor.Library.Coroutine
import AdviserConstructor.Ws.Hydration
import AdviserConstructor.Ws.Reconnect

/-!
# The handlers, await by await

`Ws.Lifecycle` takes a handler of `app/services/ws/manager.py` for one step, which is what it is
for other handlers that wait for the same lock.  Not everything waits for the lock of a position:
`_handle_disconnect` and its state sync do not take it, and neither do the success callbacks of the
order queue.  Here the handlers are coroutines, which give way at every await, and any other one
may run there.

The awaits are the lock, the calls of the exchange adapter, the queue, the persist, the audit and
the sleeps.  The lock is an await like the others: it only removes interleavings.  So do the
warmup and stale-tick guards in front of an order event, and the search for the position of a
symbol; an event may come for any context at any time.  A handler that an await raises into is one
that is not resumed, except where the source catches: in `_attempt_state_sync` and in
`_handle_disconnect`, whose `finally` is followed too.

`Ws.Uninterrupted` shows that alone on the loop the coroutines do what `Ws.Lifecycle` says.
-/

namespace AdviserConstructor

open PositionContext Coroutine

/-! ## The shared state -/

/-- The contexts of a `WebSocketManager` and what its handlers share. -/
structure WsRuntime where
  contexts : ℕ → PositionContext := fun _ => {}
  built : ℕ := 0
  /-- `_tracked_positions` -/
  tracked : List ℕ := []
  /-- `_partial_close_reconcilers`, with their deltas -/
  reconcilers : ℕ → Option ℚ := fun _ => none
  reconnecting : Bool := false
  reconnectAttempts : ℕ := 0
  enqueued : List OrderTask := []

/-- What an await is answered with. -/
structure WsAnswer extends Answers where
  raises : Bool := false

abbrev WsHandler (β : Type) := Coroutine WsRuntime WsAnswer β

namespace WsRuntime

def set (runtime : WsRuntime) (r : ℕ) (position : PositionContext) : WsRuntime :=
  { runtime with contexts := Function.update runtime.contexts r position }

def write (runtime : WsRuntime) (r : ℕ) (f : PositionContext → PositionContext) : WsRuntime :=
  runtime.set r (f (runtime.contexts r))

def setReconciler (runtime : WsRuntime) (r : ℕ) (deltaQty : Option ℚ) : WsRuntime :=
  { runtime with reconcilers := Function.update runtime.reconcilers r deltaQty }

end WsRuntime

namespace WsHandler

open WsRuntime

/-- An await whose answer is not looked at. -/
def pause : WsHandler Unit := do
  let _ ← answer

def position (r : ℕ) : WsHandler PositionContext := do
  return (← get).contexts r

def writePosition (r : ℕ) (f : PositionContext → PositionContext) : WsHandler Unit :=
  modify fun runtime => runtime.write r f

/-- `_get_order_queue` and `enqueue`. -/
def enqueue (tasks : List OrderTask) : WsHandler Unit := do
  pause
  modify fun runtime => { runtime with enqueued := runtime.enqueued ++ tasks }

/-- `_persist_position`. -/
def persistPosition : WsHandler Unit := pause

/-! ## Transitions and syncs -/

/-- `_apply_sync_transition`. -/
def applySyncTransition (r : ℕ) (trigger : TransitionTrigger) (target : PositionState) :
    WsHandler Unit := do
  let p ← position r
  match p.stateMachine.transition trigger with
  | some (next, machine) =>
      writePosition r fun p => { p with stateMachine := machine }
      writePosition r fun p => { p with state := next }
  | none =>
      writePosition r fun p => { p with stateMachine := { p.stateMachine with state := target } }
      writePosition r fun p => { p with state := target }

def syncClosed (r : ℕ) : WsHandler Unit := do
  writePosition r fun p => { p with currentQuantity := 0 }
  applySyncTransition r .allClosed .closed
  persistPosition

/-- The part of `_sync_position` behind a reconnect; `false` when it raises. -/
def syncReconnected (r : ℕ) : WsHandler Bool := do
  let reply ← answer
  match reply.openOrders with
  | none => return false
  | some orders =>
      let p ← position r
      only (!(orders.any fun order => order.2 = .stopLoss) && p.state ≠ .closed)
        (enqueue (enqueueEmergencySl reply.accountId p reply.now reply.nowMs).toList)
      let p ← position r
      only (p.state = .reconnecting) (applySyncTransition r .syncComplete .open)
      persistPosition
      return true

/-- `_sync_position`; `false` when it raises. -/
def syncPosition (r : ℕ) (reconnectSync : Bool) : WsHandler Bool := do
  let reply ← answer
  match reply.sync with
  | .raised => return false
  | .noPosition =>
      syncClosed r
      return true
  | .snapshot live =>
      if live.size = 0 then
        syncClosed r
        return true
      else
        writePosition r fun p => { p with currentQuantity := |live.size| }
        let p ← position r
        only (p.state ∈ reopenedBySync) do
          writePosition r fun p => { p with state := .open }
          writePosition r fun p => { p with stateMachine := { p.stateMachine with state := .open } }
        if reconnectSync then syncReconnected r
        else
          persistPosition
          return true

/-- `_apply_transition`. -/
def applyTransition (r : ℕ) (trigger : TransitionTrigger) : WsHandler (Option PositionState) := do
  let p ← position r
  match p.stateMachine.transition trigger with
  | some (next, machine) =>
      writePosition r fun p => { p with stateMachine := machine }
      writePosition r fun p => { p with state := next }
      return some next
  | none =>
      let _ ← syncPosition r false
      return none

/-- `_close_position`. -/
def closePosition (r : ℕ) (initialTrigger : TransitionTrigger) :
    WsHandler (Option PositionState) := do
  let p ← position r
  only (p.stateMachine.canTransition initialTrigger) do
    let _ ← applyTransition r initialTrigger
  applyTransition r .allClosed

/-- `_cancel_remaining_orders`. -/
def cancelRemainingOrders (r : ℕ) : WsHandler Unit := do
  pause
  pause
  let p ← position r
  let reply ← answer
  let orderIds := p.knownConditionalOrderIds ++ fetchOpenConditionalOrderIds reply.toAnswers
  forEach (fun _ => pause) orderIds
  writePosition r fun p =>
    { p with
      slExchangeOrderId := p.slExchangeOrderId.filter (· ∉ orderIds)
      tpLevels := p.tpLevels.map (cancelLevel orderIds) }

/-! ## Position updates -/

/-- `_handle_position_update`. -/
def handlePositionUpdate (r : ℕ) (size : ℚ) : WsHandler Unit := do
  pause
  let p ← position r
  if |size| ≤ 0 then
    only (p.state ≠ .closed ∨ 0 < p.currentQuantity) do
      writePosition r fun p => { p with currentQuantity := 0 }
      let _ ← closePosition r .manualClose
      cancelRemainingOrders r
      persistPosition
  else if |size| = p.currentQuantity then return
  else
    only (p.schedulesReconciler |size|) do
      modify fun runtime => runtime.setReconciler r (some (p.currentQuantity - |size|))
    writePosition r fun p => { p with currentQuantity := |size| }
    persistPosition

/-! ## The multi-TP engine -/

/-- The stop that `_dispatch_sl_shift` decides on before it asks the exchange. -/
def plannedSl (position : PositionContext) (level : TPLevel) (triggeredLevel : ℕ) : Option ℚ :=
  if triggeredLevel + 1 = position.tpLevels.length ∨ position.currentQuantity ≤ 0 then none
  else
    (MultiTp.resolveSlShiftTarget position level).filter fun newSlPrice =>
      !MultiTp.slPricesEqual newSlPrice position.currentSlPrice &&
        !MultiTp.wouldTriggerImmediately position.side newSlPrice level.triggerPrice

/-- `_dispatch_sl_shift`. -/
def dispatchSlShift (r : ℕ) (level : TPLevel) (triggeredLevel : ℕ) (triggerSource : String) :
    WsHandler Unit := do
  let p ← position r
  match plannedSl p level triggeredLevel with
  | none => pause
  | some newSlPrice =>
      let reply ← answer
      match reply.live with
      | .noPosition | .raised => pause
      | .snapshot live =>
          if |live.size| ≤ 1 / 1000000000 then pause
          else
            pause
            let p ← position r
            enqueue
              [enqueueSlReplace p newSlPrice triggeredLevel
                (if 0 < live.markPrice then some live.markPrice else none)
                (some (.slAdjustment (MultiTp.slAdjustmentReason p triggeredLevel) triggerSource))
                reply.now reply.nowMs]
            pause

/-- `MultiTPEngine.handle_tp_triggered`. -/
def handleTpTriggered (r triggeredLevel : ℕ) (triggerSource : String) : WsHandler Unit := do
  let p ← position r
  match p.tpLevels[triggeredLevel]? with
  | none => return
  | some level =>
      if MultiTp.alreadyTriggered p triggeredLevel level then pause
      else
        writePosition r fun p => MultiTp.bookFill p triggeredLevel level
        dispatchSlShift r level triggeredLevel triggerSource
        let p ← position r
        writePosition r
          (if !p.tpLevels.any MultiTp.isRemaining || p.currentQuantity ≤ 0 then
            MultiTp.transitionAllClosed
          else MultiTp.transitionPartialClose)
        writePosition r syncState

/-- `_reconcile_partial_close`. -/
def reconcilePartialClose (r : ℕ) (deltaQty : ℚ) : WsHandler Unit := do
  pause
  pause
  modify fun runtime => runtime.setReconciler r none
  let p ← position r
  if !p.isLive then return
  else
    match p.closestOpenTpLevelByQty deltaQty with
    | none => return
    | some matched =>
        pause
        pause
        writePosition r fun p => { p with currentQuantity := p.currentQuantity + deltaQty }
        handleTpTriggered r matched "position_update_inferred"
        persistPosition

/-! ## Order events -/

/-- `_handle_entry_fill_event`; `false` when the event is for another handler. -/
def handleEntryFillEvent (r : ℕ) (event : OrderEvent) : WsHandler Bool := do
  let p ← position r
  if p.state ≠ .entering ∨ event.isConditionalOrderEvent = true ∨
      event.isReduceOnlyEvent = true ∨ event.isFillEvent = false then
    return false
  else
    let filledQuantity := event.resolveFilledQuantity p.currentQuantity
    let fillPrice := event.resolveFillPrice p.entryPrice
    writePosition r fun p =>
      { p with
        entryPrice := if 0 < fillPrice then fillPrice else p.entryPrice
        originalQuantity := if 0 < filledQuantity then filledQuantity else p.originalQuantity
        currentQuantity := if 0 < filledQuantity then filledQuantity else p.currentQuantity }
    let next ← applyTransition r .entryFilled
    only (next = some .open) do
      let reply ← answer
      let p ← position r
      enqueue ((enqueueInitialProtectionSl reply.accountId p reply.now reply.nowMs).toList ++
        p.enqueueInitialProtectionTps reply.toAnswers)
      persistPosition
      pause
    return true

/-- `_handle_sl_triggered_event`; `false` when the event is for another handler. -/
def handleSlTriggeredEvent (r : ℕ) (event : OrderEvent) : WsHandler Bool := do
  let p ← position r
  if !p.isSlTriggerEvent event then return false
  else if p.state = .closed ∧ p.currentQuantity ≤ 0 then return true
  else
    let next ← applyTransition r .slTriggered
    only (next = some .closing) do
      writePosition r fun p =>
        appendSlTriggerHistory event (conditionalReason "Stop loss triggered" event)
          { p with currentQuantity := 0 }
      let _ ← applyTransition r .allClosed
      cancelRemainingOrders r
      persistPosition
    return true

/-- The multi-TP branch of `_handle_tp_triggered_event`. -/
def handleMultiTpEvent (r : ℕ) (event : OrderEvent) : WsHandler Unit := do
  let p ← position r
  if p.eventMatchesTriggeredLevel event then
    modify fun runtime => runtime.setReconciler r none
  else
    match p.matchTpLevel event with
    | none => pause
    | some matched =>
        pause
        handleTpTriggered r matched "multi_tp"
        modify fun runtime => runtime.setReconciler r none
        let p ← position r
        only (p.state = .closed || p.currentQuantity ≤ 0) (cancelRemainingOrders r)
        persistPosition

/-- The single-TP branch of `_handle_tp_triggered_event`. -/
def handleSingleTpEvent (r : ℕ) : WsHandler Unit := do
  let p ← position r
  if p.state = .closed ∧ p.currentQuantity ≤ 0 then return
  else
    writePosition r fun p => { p with currentQuantity := 0 }
    let next ← closePosition r .tpTriggered
    only (next.isSome) do
      cancelRemainingOrders r
      persistPosition

/-- `_handle_tp_triggered_event`. -/
def handleTpTriggeredEvent (r : ℕ) (event : OrderEvent) : WsHandler Unit := do
  let p ← position r
  if !p.isTpTriggerEvent event then return
  else if p.tpMode = .multi ∧ p.tpLevels ≠ [] then handleMultiTpEvent r event
  else handleSingleTpEvent r

/-- `_route_to_position`, `_route_lifecycle_event`. -/
def routeToPosition (r : ℕ) (event : OrderEvent) : WsHandler Unit := do
  pause
  let entered ← handleEntryFillEvent r event
  only (entered = false) do
    let stopped ← handleSlTriggeredEvent r event
    only (stopped = false) (handleTpTriggeredEvent r event)

/-! ## The reconnect -/

/-- The states in which a position is left alone. -/
def settled : List PositionState := [.closed, .cancelled, .failed]

/-- The disconnect transitions; `false` when a persist raises. -/
def disconnectPositions : List ℕ → WsHandler Bool
  | [] => return true
  | r :: rs => do
      let p ← position r
      if p.state ∈ settled then disconnectPositions rs
      else
        let _ ← applyTransition r .wsDisconnected
        let reply ← answer
        if reply.raises then return false
        else disconnectPositions rs

/-- `_full_state_sync`; `false` when it raises. -/
def fullStateSync : List ℕ → WsHandler Bool
  | [] => return true
  | r :: rs => do
      let synced ← syncPosition r true
      if synced then fullStateSync rs else return false

/-- `_emergency_close_all`, up to an await that raises. -/
def emergencyCloseAll (reason : String) : List ℕ → WsHandler Unit
  | [] => return
  | r :: rs => do
      let p ← position r
      if p.currentQuantity ≤ 0 ∨ p.state = .closed then emergencyCloseAll reason rs
      else
        let reply ← answer
        if reply.raises then return
        else
          let p ← position r
          enqueue
            [{ priority := .emergencyClose
               createdAt := reply.now
               positionId := p.positionId
               action := .emergencyMarketClose
               params := .ofList
                 [("symbol", .str p.symbol),
                  ("side", .side (closingOrderSide p.side)),
                  ("full_quantity", .float p.currentQuantity),
                  ("client_order_id",
                    .str (managerClientOrderId reply.accountId p.positionId "emergency-close"
                      reply.nowMs)),
                  ("reason", .str reason)] }]
          emergencyCloseAll reason rs

/-- An attempt to reconnect: `start`, `_full_state_sync` and the restore of the pipelines; `false`
when it raises. -/
def reconnectAttempt : WsHandler Bool := do
  let started ← answer
  if started.raises then return false
  else
    let runtime ← get
    let synced ← fullStateSync runtime.tracked
    if synced then
      let restored ← answer
      return !restored.raises
    else return false

/-- The reconnect loop, with the attempts that are left. -/
def reconnectLoop : ℕ → WsHandler Unit
  | 0 => do
      let runtime ← get
      emergencyCloseAll "Max WS reconnect attempts exceeded" runtime.tracked
  | left + 1 => do
      pause
      modify fun runtime => { runtime with reconnectAttempts := runtime.reconnectAttempts + 1 }
      let reconnected ← reconnectAttempt
      if reconnected then modify fun runtime => { runtime with reconnectAttempts := 0 }
      else reconnectLoop left

/-- `_handle_disconnect`. -/
def handleDisconnect : WsHandler Unit := do
  let runtime ← get
  if runtime.reconnecting then return
  else
    modify fun runtime => { runtime with reconnecting := true }
    let disconnected ← disconnectPositions runtime.tracked
    only disconnected (reconnectLoop (maxReconnectAttempts - runtime.reconnectAttempts))
    modify fun runtime => { runtime with reconnecting := false }

end WsHandler

end AdviserConstructor
