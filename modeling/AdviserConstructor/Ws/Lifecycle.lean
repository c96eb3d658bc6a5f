import AdviserConstructor.SlTp.MultiTp
import AdviserConstructor.Ws.Callbacks
import AdviserConstructor.Ws.OrderEvents

/-!
# The lifecycle handlers

The handlers of `app/services/ws/manager.py` that move a tracked position: position updates, the
deferred partial-close reconciler, entry fills, stop-loss and take-profit fills, and the state
sync against the exchange.

Every handler runs under the lock of its position and is one step here.  What the services
answer meanwhile is a parameter (`Answers`), and what a handler does is a `Handled`: the position,
the pending reconciler with its delta, the tasks that were enqueued, and whether the handler went
on to `_cancel_remaining_orders`.  The cleanup is always the last thing that a handler does to its
position; `cancelRemaining` is its effect on the position.  The warmup and stale-tick guards in
front of the handlers, the audit and the persisting are left out.

* `keepsLevels_closeOrContinue`, `keepsLevels_closePosition`: the transitions that close a position
  leave its levels alone and do not lead back before its entry.
-/

namespace AdviserConstructor

/-- What the awaited services answer while a handler runs. -/
structure Answers where
  /-- `get_position`, asked by the stop shift -/
  live : PositionReply := .raised
  /-- `get_position`, asked by a state sync -/
  sync : PositionReply := .raised
  /-- `get_open_conditional_orders`, the ids with their types; `none` when it raises -/
  openOrders : Option (List (String × ConditionalOrderType)) := none
  accountId : String := ""
  now : ℚ := 0
  nowMs : ℕ := 0

/-- What a handler has done. -/
structure Handled where
  position : PositionContext
  /-- the delta of the pending partial-close reconciler -/
  reconciler : Option ℚ
  tasks : List OrderTask := []
  /-- the handler goes on to `_cancel_remaining_orders` -/
  cleanup : Bool := false

namespace PositionContext

/-! ## Transitions and syncs -/

/-- `_apply_sync_transition`: the state is forced where the machine refuses. -/
def applySyncTransition (position : PositionContext) (trigger : TransitionTrigger)
    (target : PositionState) : PositionContext :=
  match position.stateMachine.transition trigger with
  | some (next, machine) => { position with stateMachine := machine, state := next }
  | none =>
      { position with
        stateMachine := { position.stateMachine with state := target }
        state := target }

/-- The states that a sync forces back to open. -/
def reopenedBySync : List PositionState := [.pending, .entering, .closed, .cancelled, .failed]

/-- The part of `_sync_position` behind a reconnect: a lost stop is placed again, and the position
leaves the reconnecting state. -/
def syncReconnected (answers : Answers) (position : PositionContext) :
    PositionContext × List OrderTask :=
  match answers.openOrders with
  | none => (position, [])
  | some orders =>
      let slExists := orders.any fun order => order.2 = .stopLoss
      let tasks :=
        if !slExists && position.state ≠ .closed then
          (enqueueEmergencySl answers.accountId position answers.now answers.nowMs).toList
        else []
      if position.state = .reconnecting then
        (position.applySyncTransition .syncComplete .open, tasks)
      else (position, tasks)

/-- `_sync_position`. -/
def syncPosition (answers : Answers) (reconnectSync : Bool) (position : PositionContext) :
    PositionContext × List OrderTask :=
  let closed : PositionContext :=
    applySyncTransition { position with currentQuantity := 0 } .allClosed .closed
  match answers.sync with
  | .raised => (position, [])
  | .noPosition => (closed, [])
  | .snapshot live =>
      if live.size = 0 then (closed, [])
      else
        let synced := { position with currentQuantity := |live.size| }
        let reopened :=
          if synced.state ∈ reopenedBySync then
            { synced with
              stateMachine := { synced.stateMachine with state := .open }
              state := .open }
          else synced
        if reconnectSync then reopened.syncReconnected answers else (reopened, [])

/-- `_apply_transition`: the state reached, or `none` when the machine refuses and the position
is synced instead. -/
def applyTransition (answers : Answers) (position : PositionContext)
    (trigger : TransitionTrigger) : Option PositionState × PositionContext :=
  match position.stateMachine.transition trigger with
  | some (next, machine) => (some next, { position with stateMachine := machine, state := next })
  | none => (none, (position.syncPosition answers false).1)

/-- `_close_position`. -/
def closePosition (answers : Answers) (position : PositionContext)
    (initialTrigger : TransitionTrigger) : Option PositionState × PositionContext :=
  let position :=
    if position.stateMachine.canTransition initialTrigger then
      (position.applyTransition answers initialTrigger).2
    else position
  position.applyTransition answers .allClosed

/-! ## The cleanup, as far as the position goes -/

/-- `_known_conditional_order_ids`. -/
def knownConditionalOrderIds (position : PositionContext) : List String :=
  (position.slExchangeOrderId.toList ++
    (position.tpLevels.filter fun level => level.status ≠ .triggered).filterMap
      TPLevel.exchangeOrderId).filter (· ≠ "")

/-- `_fetch_open_conditional_order_ids`. -/
def fetchOpenConditionalOrderIds (answers : Answers) : List String :=
  ((answers.openOrders.getD []).map Prod.fst).filter (· ≠ "")

/-- The ids that the cleanup cancels. -/
def cleanupOrderIds (answers : Answers) (position : PositionContext) : List String :=
  position.knownConditionalOrderIds ++ fetchOpenConditionalOrderIds answers

/-- A level whose order the cleanup has cancelled. -/
def cancelLevel (orderIds : List String) (level : TPLevel) : TPLevel :=
  match level.exchangeOrderId with
  | some id =>
      if id ∈ orderIds ∧ level.status ≠ .triggered then { level with status := .cancelled }
      else level
  | none => level

/-- What `_cancel_remaining_orders` writes into the position. -/
def cancelRemaining (answers : Answers) (position : PositionContext) : PositionContext :=
  let orderIds := position.cleanupOrderIds answers
  { position with
    slExchangeOrderId := position.slExchangeOrderId.filter (· ∉ orderIds)
    tpLevels := position.tpLevels.map (cancelLevel orderIds) }

/-! ## Position updates -/

/-- A position that the reconciler works on. -/
def isLive (position : PositionContext) : Bool :=
  position.state = .open || position.state = .adjusting

/-- The shrink schedules a reconciler. -/
def schedulesReconciler (position : PositionContext) (newSize : ℚ) : Bool :=
  newSize < position.currentQuantity && position.tpMode = .multi && position.tpLevels ≠ [] &&
    position.isLive

/-- `_handle_position_update`, with the size that the event carries. -/
def handlePositionUpdate (answers : Answers) (size : ℚ) (position : PositionContext)
    (reconciler : Option ℚ) : Handled :=
  let newSize := |size|
  if newSize ≤ 0 then
    if position.state ≠ .closed ∨ 0 < position.currentQuantity then
      { position :=
          (closePosition answers { position with currentQuantity := 0 } .manualClose).2
        reconciler := reconciler
        cleanup := true }
    else { position := position, reconciler := reconciler }
  else if newSize = position.currentQuantity then
    { position := position, reconciler := reconciler }
  else
    { position := { position with currentQuantity := newSize }
      reconciler :=
        if position.schedulesReconciler newSize then some (position.currentQuantity - newSize)
        else reconciler }

/-- `_reconcile_partial_close` behind its delay, with its delta. -/
def reconcilePartialClose (answers : Answers) (deltaQty : ℚ) (position : PositionContext) :
    Handled :=
  if !position.isLive then { position := position, reconciler := none }
  else
    match position.closestOpenTpLevelByQty deltaQty with
    | none => { position := position, reconciler := none }
    | some matched =>
        let restored := { position with currentQuantity := position.currentQuantity + deltaQty }
        let (position, task) :=
          MultiTp.handleTpTriggered restored matched "position_update_inferred" answers.live
            answers.now answers.nowMs
        { position := position, reconciler := none, tasks := task.toList }

/-! ## Order events -/

/-- The `place_tp` tasks of `_enqueue_initial_protection_orders`. -/
def enqueueInitialProtectionTps (answers : Answers) (position : PositionContext) :
    List OrderTask :=
  let placeTp (params : TaskParams) (callback : Option SuccessCallback) : OrderTask :=
    { priority := .newConditional
      createdAt := answers.now
      positionId := position.positionId
      action := .placeTp
      params := params
      onSuccess := callback }
  if position.tpMode = .multi ∧ position.tpLevels ≠ [] then
    (position.tpLevels.zipIdx.filter fun entry => entry.1.status = .pending).map fun entry =>
      placeTp
        (.ofList
          [("level", .int entry.1.level),
           ("symbol", .str position.symbol),
           ("side", .side (closingOrderSide position.side)),
           ("quantity", .float (MultiTp.levelQuantity position entry.1)),
           ("trigger_price", .float entry.1.triggerPrice),
           ("client_order_id",
             .str (managerClientOrderId answers.accountId position.positionId
               ("tp-l" ++ toString (entry.2 + 1)) answers.nowMs)),
           ("reduce_only", .bool true)])
        (some (.conditionalOrder .tp (some entry.2)))
  else
    match position.currentTpPrice with
    | none => []
    | some price =>
        if price ≤ 0 then []
        else
          [placeTp
            (.ofList
              [("symbol", .str position.symbol),
               ("side", .side (closingOrderSide position.side)),
               ("quantity", .float position.currentQuantity),
               ("trigger_price", .float price),
               ("client_order_id",
                 .str (managerClientOrderId answers.accountId position.positionId "tp"
                   answers.nowMs)),
               ("reduce_only", .bool true)])
            none]

/-- `_handle_entry_fill_event`; `none` when the event is for another handler. -/
def handleEntryFillEvent (answers : Answers) (event : OrderEvent) (position : PositionContext)
    (reconciler : Option ℚ) : Option Handled :=
  if position.state ≠ .entering ∨ event.isConditionalOrderEvent = true ∨
      event.isReduceOnlyEvent = true ∨ event.isFillEvent = false then none
  else
    let filledQuantity := event.resolveFilledQuantity position.currentQuantity
    let fillPrice := event.resolveFillPrice position.entryPrice
    let filled :=
      { position with
        entryPrice := if 0 < fillPrice then fillPrice else position.entryPrice
        originalQuantity :=
          if 0 < filledQuantity then filledQuantity else position.originalQuantity
        currentQuantity :=
          if 0 < filledQuantity then filledQuantity else position.currentQuantity }
    let (next, position) := filled.applyTransition answers .entryFilled
    some
      { position := position
        reconciler := reconciler
        tasks :=
          if next = some .open then
            (enqueueInitialProtectionSl answers.accountId position answers.now
              answers.nowMs).toList ++ position.enqueueInitialProtectionTps answers
          else [] }

/-- `_append_sl_trigger_history`. -/
def appendSlTriggerHistory (event : OrderEvent) (reason : String) (position : PositionContext) :
    PositionContext :=
  let entry : SLHistoryEntry :=
    { oldPrice := position.currentSlPrice
      newPrice := if 0 < event.triggerPrice then event.triggerPrice else position.currentSlPrice
      reason := reason
      triggerSource := "ws_manager"
      exchangeOrderId :=
        if event.orderId ≠ "" then event.orderId else position.slExchangeOrderId.getD "" }
  { position with slHistory := position.slHistory ++ [entry] }

/-- `_conditional_reason`. -/
def conditionalReason (text : String) (event : OrderEvent) : String :=
  if event.orderIdentifier ≠ "" then text ++ ": " ++ event.orderIdentifier else text

/-- `_handle_sl_triggered_event`. -/
def handleSlTriggeredEvent (answers : Answers) (event : OrderEvent) (position : PositionContext)
    (reconciler : Option ℚ) : Option Handled :=
  if !position.isSlTriggerEvent event then none
  else if position.state = .closed ∧ position.currentQuantity ≤ 0 then
    some { position := position, reconciler := reconciler }
  else
    let (next, position) := position.applyTransition answers .slTriggered
    if next ≠ some .closing then some { position := position, reconciler := reconciler }
    else
      let booked :=
        appendSlTriggerHistory event (conditionalReason "Stop loss triggered" event)
          { position with currentQuantity := 0 }
      some
        { position := (booked.applyTransition answers .allClosed).2
          reconciler := reconciler
          cleanup := true }

/-- The multi-TP branch of `_handle_tp_triggered_event`. -/
def handleMultiTpEvent (answers : Answers) (event : OrderEvent) (position : PositionContext)
    (reconciler : Option ℚ) : Handled :=
  if position.eventMatchesTriggeredLevel event then
    { position := position, reconciler := none }
  else
    match position.matchTpLevel event with
    | none => { position := position, reconciler := reconciler }
    | some matched =>
        let (position, task) :=
          MultiTp.handleTpTriggered position matched "multi_tp" answers.live answers.now
            answers.nowMs
        { position := position
          reconciler := none
          tasks := task.toList
          cleanup := position.state = .closed || position.currentQuantity ≤ 0 }

/-- The single-TP branch of `_handle_tp_triggered_event`. -/
def handleSingleTpEvent (answers : Answers) (position : PositionContext)
    (reconciler : Option ℚ) : Handled :=
  if position.state = .closed ∧ position.currentQuantity ≤ 0 then
    { position := position, reconciler := reconciler }
  else
    let (next, position) :=
      closePosition answers { position with currentQuantity := 0 } .tpTriggered
    { position := position, reconciler := reconciler, cleanup := next.isSome }

/-- `_handle_tp_triggered_event`. -/
def handleTpTriggeredEvent (answers : Answers) (event : OrderEvent) (position : PositionContext)
    (reconciler : Option ℚ) : Option Handled :=
  if !position.isTpTriggerEvent event then none
  else if position.tpMode = .multi ∧ position.tpLevels ≠ [] then
    some (position.handleMultiTpEvent answers event reconciler)
  else some (position.handleSingleTpEvent answers reconciler)

/-- `_route_lifecycle_event`; an event that no handler takes changes nothing. -/
def routeLifecycleEvent (answers : Answers) (event : OrderEvent) (position : PositionContext)
    (reconciler : Option ℚ) : Handled :=
  ((position.handleEntryFillEvent answers event reconciler).or
    ((position.handleSlTriggeredEvent answers event reconciler).or
      (position.handleTpTriggeredEvent answers event reconciler))).getD
    { position := position, reconciler := reconciler }

/-! ## What transitions and syncs leave alone -/

/-- The states before the entry has filled. -/
def beforeEntry : List PositionState := [.pending, .entering]

/-- The position is behind its entry. -/
def Entered (position : PositionContext) : Prop :=
  position.state ∉ beforeEntry ∧ position.stateMachine.state ∉ beforeEntry

/-- The levels are those of `p`, and the position has not gone back before its entry. -/
structure KeepsLevels (p q : PositionContext) : Prop where
  mode : q.tpMode = p.tpMode
  levels : q.tpLevels = p.tpLevels
  dispatched : q.dispatchedSlLevels = p.dispatchedSlLevels
  original : q.originalQuantity = p.originalQuantity
  entered : p.Entered → q.Entered

section KeepsLevels

variable {p q r : PositionContext}

theorem KeepsLevels.refl (p : PositionContext) : KeepsLevels p p := ⟨rfl, rfl, rfl, rfl, id⟩

theorem KeepsLevels.trans (h : KeepsLevels p q) (h' : KeepsLevels q r) : KeepsLevels p r where
  mode := h'.mode.trans h.mode
  levels := h'.levels.trans h.levels
  dispatched := h'.dispatched.trans h.dispatched
  original := h'.original.trans h.original
  entered := h'.entered ∘ h.entered

variable {trigger : TransitionTrigger}

theorem validTransitions_not_mem_beforeEntry {state target : PositionState}
    (hstate : state ∉ beforeEntry) (h : validTransitions state trigger = some target) :
    target ∉ beforeEntry := by
  cases state <;> cases trigger <;> simp_all [validTransitions, beforeEntry] <;> subst h <;> decide

theorem machine_not_mem_beforeEntry {m m' : PositionStateMachine} {state : PositionState}
    (hne : trigger ≠ .syncComplete) (hm : m.state ∉ beforeEntry)
    (h : m.transition trigger = some (state, m')) :
    state ∉ beforeEntry ∧ m'.state ∉ beforeEntry := by
  have hfst := PositionStateMachine.transition_of_ne_syncComplete (m := m) hne
  rw [h] at hfst
  have hstate := validTransitions_not_mem_beforeEntry hm hfst.symm
  exact ⟨hstate, PositionStateMachine.transition_state h ▸ hstate⟩

theorem keepsLevels_transition (position : PositionContext) (hne : trigger ≠ .syncComplete) :
    KeepsLevels position (position.transition trigger) := by
  unfold transition
  cases h : position.stateMachine.transition trigger with
  | none => exact KeepsLevels.refl position
  | some moved =>
    exact ⟨rfl, rfl, rfl, rfl, fun hentered =>
      ⟨hentered.1, (machine_not_mem_beforeEntry hne hentered.2 h).2⟩⟩

theorem keepsLevels_syncState (position : PositionContext) :
    KeepsLevels position position.syncState :=
  ⟨rfl, rfl, rfl, rfl, fun hentered => ⟨hentered.2, hentered.2⟩⟩

theorem keepsLevels_closeOrContinue (position : PositionContext) :
    KeepsLevels position (MultiTp.closeOrContinue position) := by
  have hmove : ∀ (p : PositionContext) {trigger}, trigger ≠ .syncComplete →
      KeepsLevels p (p.transition trigger) := fun p _ => keepsLevels_transition p
  unfold MultiTp.closeOrContinue MultiTp.transitionAllClosed MultiTp.transitionPartialClose
  dsimp only
  split
  · refine KeepsLevels.trans ?_ (keepsLevels_syncState _)
    split
    · exact hmove _ (by simp)
    · split
      · exact (hmove _ (by simp)).trans (hmove _ (by simp))
      · split
        · exact ((hmove _ (by simp)).trans (hmove _ (by simp))).trans (hmove _ (by simp))
        · exact hmove _ (by simp)
  · refine KeepsLevels.trans ?_ (keepsLevels_syncState _)
    split
    · split
      · exact (hmove _ (by simp)).trans (hmove _ (by simp))
      · exact hmove _ (by simp)
    · exact (hmove _ (by simp)).trans (hmove _ (by simp))

theorem keepsLevels_syncPosition (answers : Answers) (position : PositionContext) :
    KeepsLevels position (position.syncPosition answers false).1 := by
  have hclosed : KeepsLevels position
      (applySyncTransition { position with currentQuantity := 0 } .allClosed .closed) := by
    unfold applySyncTransition
    cases h : position.stateMachine.transition .allClosed with
    | none => exact ⟨rfl, rfl, rfl, rfl, fun _ => ⟨by simp [beforeEntry], by simp [beforeEntry]⟩⟩
    | some moved =>
      exact ⟨rfl, rfl, rfl, rfl, fun hentered =>
        machine_not_mem_beforeEntry (by simp) hentered.2 h⟩
  unfold syncPosition
  cases answers.sync with
  | raised => exact KeepsLevels.refl position
  | noPosition => exact hclosed
  | snapshot live =>
    dsimp only
    split
    · exact hclosed
    · rw [if_neg (by simp)]
      split
      · exact ⟨rfl, rfl, rfl, rfl, fun _ => ⟨by simp [beforeEntry], by simp [beforeEntry]⟩⟩
      · exact ⟨rfl, rfl, rfl, rfl, id⟩

theorem keepsLevels_applyTransition (answers : Answers) (position : PositionContext)
    (hne : trigger ≠ .syncComplete) :
    KeepsLevels position (position.applyTransition answers trigger).2 := by
  unfold applyTransition
  cases h : position.stateMachine.transition trigger with
  | none => exact keepsLevels_syncPosition answers position
  | some moved =>
    exact ⟨rfl, rfl, rfl, rfl, fun hentered => machine_not_mem_beforeEntry hne hentered.2 h⟩

theorem keepsLevels_closePosition (answers : Answers) (position : PositionContext)
    (hne : trigger ≠ .syncComplete) :
    KeepsLevels position (position.closePosition answers trigger).2 := by
  refine KeepsLevels.trans ?_ (keepsLevels_applyTransition answers _ (by simp))
  split
  · exact keepsLevels_applyTransition answers position hne
  · exact KeepsLevels.refl position

end KeepsLevels

end PositionContext
end AdviserConstructor
