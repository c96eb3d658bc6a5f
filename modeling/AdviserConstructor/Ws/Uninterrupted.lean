import AdviserConstructor.Ws.AsyncHandlers

/-!
# Handlers that nobody interrupts

A handler that is alone on the event loop does at once what it does in several turns otherwise.
The functions of `Ws.Lifecycle` describe that one step, the coroutines of `Ws.AsyncHandlers` the
turns, and here they are shown to agree: run alone, with the same answers, a coroutine leaves the
context, the reconciler and the queue that the function returns.

* `complete_syncPosition`, `complete_applyTransition`, `complete_closePosition`: the sync and the
  transitions;
* `complete_handlePositionUpdate`, `complete_reconcilePartialClose`, `complete_routeToPosition`:
  the three handlers of a position.
-/

namespace AdviserConstructor

open PositionContext Coroutine

/-! ## Writes -/

namespace WsRuntime

variable (runtime : WsRuntime) (r : ℕ)

def push (tasks : List OrderTask) : WsRuntime :=
  { runtime with enqueued := runtime.enqueued ++ tasks }

@[simp] theorem set_contexts (p : PositionContext) : (runtime.set r p).contexts r = p :=
  Function.update_self ..

@[simp] theorem set_set (p q : PositionContext) : (runtime.set r p).set r q = runtime.set r q := by
  unfold set
  rw [Function.update_idem]

@[simp] theorem set_self : runtime.set r (runtime.contexts r) = runtime := by
  unfold set
  rw [Function.update_eq_self]

@[simp] theorem write_set (p : PositionContext) (f : PositionContext → PositionContext) :
    (runtime.set r p).write r f = runtime.set r (f p) := by
  unfold write
  rw [set_contexts, set_set]

@[simp] theorem push_contexts (tasks : List OrderTask) :
    (runtime.push tasks).contexts = runtime.contexts := rfl

@[simp] theorem push_nil : runtime.push [] = runtime := by
  unfold push
  rw [List.append_nil]

@[simp] theorem setReconciler_contexts (deltaQty : Option ℚ) :
    (runtime.setReconciler r deltaQty).contexts = runtime.contexts := rfl

@[simp] theorem setReconciler_self :
    runtime.setReconciler r (runtime.reconcilers r) = runtime := by
  unfold setReconciler
  rw [Function.update_eq_self]

@[simp] theorem setReconciler_set (p : PositionContext) (deltaQty : Option ℚ) :
    (runtime.set r p).setReconciler r deltaQty = (runtime.setReconciler r deltaQty).set r p := rfl

@[simp] theorem setReconciler_push (tasks : List OrderTask) (deltaQty : Option ℚ) :
    (runtime.push tasks).setReconciler r deltaQty =
      (runtime.setReconciler r deltaQty).push tasks := rfl

@[simp] theorem set_push (tasks : List OrderTask) (p : PositionContext) :
    (runtime.push tasks).set r p = (runtime.set r p).push tasks := rfl

end WsRuntime

/-! ## Transitions and syncs -/

namespace WsHandler

variable (a : WsAnswer) (runtime : WsRuntime) (r : ℕ)

@[simp high] theorem complete_position_bind {β : Type} (f : PositionContext → WsHandler β) :
    complete a (position r >>= f) runtime = complete a (f (runtime.contexts r)) runtime := rfl

@[simp high] theorem complete_answer_bind {β : Type} (f : WsAnswer → WsHandler β) :
    complete a (answer >>= f) runtime = complete a (f a) runtime := rfl

@[simp high] theorem complete_pause_bind {β : Type} (f : Unit → WsHandler β) :
    complete a (pause >>= f) runtime = complete a (f ()) runtime := rfl

@[simp high] theorem complete_setReconciler_bind {β : Type} (deltaQty : Option ℚ)
    (f : Unit → WsHandler β) :
    complete a ((modify fun runtime : WsRuntime => runtime.setReconciler r deltaQty) >>= f)
      runtime = complete a (f ()) (runtime.setReconciler r deltaQty) := rfl

@[simp high] theorem complete_writePosition_bind {β : Type}
    (f : PositionContext → PositionContext) (g : Unit → WsHandler β) :
    complete a (writePosition r f >>= g) runtime =
      complete a (g ()) (runtime.set r (f (runtime.contexts r))) := rfl

@[simp] theorem complete_writePosition (f : PositionContext → PositionContext) :
    complete a (writePosition r f) runtime = (runtime.set r (f (runtime.contexts r)), ()) := rfl

@[simp] theorem complete_pause : complete a pause runtime = (runtime, ()) := rfl

@[simp] theorem complete_persistPosition :
    complete a persistPosition runtime = (runtime, ()) := rfl

@[simp] theorem complete_enqueue (tasks : List OrderTask) :
    complete a (enqueue tasks) runtime = (runtime.push tasks, ()) := rfl

@[simp] theorem complete_applySyncTransition (trigger : TransitionTrigger)
    (target : PositionState) :
    complete a (applySyncTransition r trigger target) runtime =
      (runtime.set r ((runtime.contexts r).applySyncTransition trigger target), ()) := by
  unfold applySyncTransition PositionContext.applySyncTransition
  rw [complete_position_bind]
  cases (runtime.contexts r).stateMachine.transition trigger with
  | none => simp
  | some moved => simp

@[simp] theorem complete_syncClosed :
    complete a (syncClosed r) runtime =
      (runtime.set r
        ({ runtime.contexts r with currentQuantity := 0 }.applySyncTransition .allClosed .closed),
        ()) := by
  simp [syncClosed]

theorem complete_syncReconnected :
    (complete a (syncReconnected r) runtime).1 =
      (runtime.set r ((runtime.contexts r).syncReconnected a.toAnswers).1).push
        ((runtime.contexts r).syncReconnected a.toAnswers).2 := by
  unfold syncReconnected PositionContext.syncReconnected
  rw [complete_answer_bind]
  cases a.openOrders with
  | none => simp
  | some orders =>
    dsimp only
    rw [complete_position_bind]
    generalize (!(orders.any fun order => decide (order.2 = .stopLoss)) &&
      decide ((runtime.contexts r).state ≠ .closed)) = lost
    by_cases hstate : (runtime.contexts r).state = .reconnecting
    · cases lost <;> simp [hstate]
    · cases lost <;> simp [hstate]

/-- `_sync_position`. -/
theorem complete_syncPosition (reconnectSync : Bool) :
    (complete a (syncPosition r reconnectSync) runtime).1 =
      (runtime.set r ((runtime.contexts r).syncPosition a.toAnswers reconnectSync).1).push
        ((runtime.contexts r).syncPosition a.toAnswers reconnectSync).2 := by
  unfold syncPosition PositionContext.syncPosition
  rw [complete_answer_bind]
  cases a.sync with
  | raised => simp
  | noPosition => simp
  | snapshot live =>
    dsimp only
    by_cases hflat : live.size = 0
    · simp [hflat]
    · rw [if_neg hflat, if_neg hflat]
      by_cases hreopened : (runtime.contexts r).state ∈ reopenedBySync
      · cases reconnectSync with
        | false => simp [hreopened]
        | true => simp [hreopened, complete_syncReconnected]
      · cases reconnectSync with
        | false => simp [hreopened]
        | true => simp [hreopened, complete_syncReconnected]

theorem syncPosition_false_tasks (answers : Answers) (p : PositionContext) :
    (p.syncPosition answers false).2 = [] := by
  unfold PositionContext.syncPosition
  cases answers.sync with
  | raised => rfl
  | noPosition => rfl
  | snapshot live =>
    dsimp only
    split
    · rfl
    · rfl

/-- `_apply_transition`. -/
@[simp] theorem complete_applyTransition (trigger : TransitionTrigger) :
    complete a (applyTransition r trigger) runtime =
      (runtime.set r ((runtime.contexts r).applyTransition a.toAnswers trigger).2,
        ((runtime.contexts r).applyTransition a.toAnswers trigger).1) := by
  unfold applyTransition PositionContext.applyTransition
  rw [complete_position_bind]
  cases (runtime.contexts r).stateMachine.transition trigger with
  | none =>
    rw [complete_bind, complete_pure, complete_syncPosition, syncPosition_false_tasks,
      WsRuntime.push_nil]
  | some moved => simp

/-- `_close_position`. -/
@[simp] theorem complete_closePosition (trigger : TransitionTrigger) :
    complete a (closePosition r trigger) runtime =
      (runtime.set r ((runtime.contexts r).closePosition a.toAnswers trigger).2,
        ((runtime.contexts r).closePosition a.toAnswers trigger).1) := by
  unfold closePosition PositionContext.closePosition
  rw [complete_position_bind]
  cases (runtime.contexts r).stateMachine.canTransition trigger with
  | false => simp
  | true => simp

@[simp] theorem complete_forEach_pause (ids : List String) :
    complete a (forEach (fun _ => pause) ids) runtime = (runtime, ()) := by
  induction ids with
  | nil => rfl
  | cons id ids ih => exact ih

@[simp] theorem complete_cancelRemainingOrders :
    complete a (cancelRemainingOrders r) runtime =
      (runtime.set r ((runtime.contexts r).cancelRemaining a.toAnswers), ()) := by
  unfold cancelRemainingOrders
  simp only [complete_bind, complete_forEach_pause, complete_writePosition]
  rfl

end WsHandler

/-! ## Position updates and order events -/

namespace WsRuntime

variable (runtime : WsRuntime) (r : ℕ)

/-- What a handler has done to its position, its reconciler and the queue. -/
def handled (answers : Answers) (h : Handled) : WsRuntime :=
  ((runtime.setReconciler r h.reconciler).set r
    (if h.cleanup then h.position.cancelRemaining answers else h.position)).push h.tasks

end WsRuntime

namespace WsHandler

variable (a : WsAnswer) (runtime : WsRuntime) (r : ℕ)

@[simp] theorem complete_setReconciler (deltaQty : Option ℚ) :
    complete a (modify fun runtime : WsRuntime => runtime.setReconciler r deltaQty) runtime =
      (runtime.setReconciler r deltaQty, ()) := rfl

/-- `_handle_position_update`. -/
theorem complete_handlePositionUpdate (size : ℚ) :
    (complete a (handlePositionUpdate r size) runtime).1 =
      runtime.handled r a.toAnswers
        ((runtime.contexts r).handlePositionUpdate a.toAnswers size (runtime.reconcilers r)) := by
  unfold handlePositionUpdate PositionContext.handlePositionUpdate WsRuntime.handled
  rw [complete_pause_bind, complete_position_bind]
  by_cases hflat : |size| ≤ 0
  · by_cases hlive : (runtime.contexts r).state ≠ .closed ∨
        0 < (runtime.contexts r).currentQuantity
    · simp [hflat, hlive]
    · simp [hflat, hlive]
  · by_cases hsame : |size| = (runtime.contexts r).currentQuantity
    · rw [if_neg hflat, if_neg hflat, if_pos hsame, if_pos hsame]
      simp
    · rw [if_neg hflat, if_neg hflat, if_neg hsame, if_neg hsame]
      cases (runtime.contexts r).schedulesReconciler |size| with
      | false => simp
      | true => simp

theorem dispatchSlShift_eq (p : PositionContext) (level : TPLevel) (triggeredLevel : ℕ)
    (triggerSource : String) (live : PositionReply) (now : ℚ) (nowMs : ℕ) :
    MultiTp.dispatchSlShift p level triggeredLevel triggerSource live now nowMs =
      (plannedSl p level triggeredLevel).bind fun newSlPrice =>
        match live with
        | .noPosition | .raised => none
        | .snapshot live =>
            if |live.size| ≤ 1 / 1000000000 then none
            else
              some (enqueueSlReplace p newSlPrice triggeredLevel
                (if 0 < live.markPrice then some live.markPrice else none)
                (some (.slAdjustment (MultiTp.slAdjustmentReason p triggeredLevel) triggerSource))
                now nowMs) := by
  unfold MultiTp.dispatchSlShift plannedSl
  by_cases hlast : triggeredLevel + 1 = p.tpLevels.length
  · rw [if_pos hlast, if_pos (Or.inl hlast), Option.bind_none]
  · by_cases hgone : p.currentQuantity ≤ 0
    · rw [if_neg hlast, if_pos hgone, if_pos (Or.inr hgone), Option.bind_none]
    · rw [if_neg hlast, if_neg hgone, if_neg (not_or.mpr ⟨hlast, hgone⟩)]
      cases MultiTp.resolveSlShiftTarget p level with
      | none => rfl
      | some newSlPrice =>
        cases hequal : MultiTp.slPricesEqual newSlPrice p.currentSlPrice with
        | true => simp [Option.filter, hequal]
        | false =>
          cases hbeyond : MultiTp.wouldTriggerImmediately p.side newSlPrice level.triggerPrice with
          | true => simp [Option.filter, hbeyond]
          | false =>
            have hplanned : (some newSlPrice).filter (fun newSlPrice =>
                !MultiTp.slPricesEqual newSlPrice p.currentSlPrice &&
                  !MultiTp.wouldTriggerImmediately p.side newSlPrice level.triggerPrice) =
                some newSlPrice := by
              simp [hequal, hbeyond]
            have hdiffers := Bool.eq_false_iff.mp hequal
            have hnotBeyond := Bool.eq_false_iff.mp hbeyond
            rw [hplanned]
            refine (if_neg hdiffers).trans ((if_neg hnotBeyond).trans ?_)
            cases live with
            | raised => rfl
            | noPosition => rfl
            | snapshot live => rfl

@[simp] theorem complete_dispatchSlShift (level : TPLevel) (triggeredLevel : ℕ)
    (triggerSource : String) :
    complete a (dispatchSlShift r level triggeredLevel triggerSource) runtime =
      (runtime.push (MultiTp.dispatchSlShift (runtime.contexts r) level triggeredLevel
        triggerSource a.live a.now a.nowMs).toList, ()) := by
  rw [dispatchSlShift_eq]
  unfold dispatchSlShift
  rw [complete_position_bind]
  cases plannedSl (runtime.contexts r) level triggeredLevel with
  | none => simp
  | some newSlPrice =>
    rw [complete_answer_bind]
    cases a.live with
    | raised => simp
    | noPosition => simp
    | snapshot live =>
      by_cases hflat : |live.size| ≤ 1 / 1000000000
      · simp only [if_pos hflat]
        simp
      · simp only [if_neg hflat]
        simp

@[simp] theorem complete_handleTpTriggered (triggeredLevel : ℕ) (triggerSource : String) :
    complete a (handleTpTriggered r triggeredLevel triggerSource) runtime =
      ((runtime.set r (MultiTp.handleTpTriggered (runtime.contexts r) triggeredLevel triggerSource
        a.live a.now a.nowMs).1).push (MultiTp.handleTpTriggered (runtime.contexts r)
          triggeredLevel triggerSource a.live a.now a.nowMs).2.toList, ()) := by
  unfold handleTpTriggered MultiTp.handleTpTriggered
  rw [complete_position_bind]
  cases (runtime.contexts r).tpLevels[triggeredLevel]? with
  | none => simp
  | some level =>
    dsimp only
    cases MultiTp.alreadyTriggered (runtime.contexts r) triggeredLevel level with
    | true => simp
    | false =>
      unfold MultiTp.closeOrContinue
      simp only [Bool.false_eq_true, if_false]
      rw [complete_writePosition_bind]
      generalize MultiTp.bookFill (runtime.contexts r) triggeredLevel level = booked
      rw [complete_bind, complete_dispatchSlShift, complete_position_bind, WsRuntime.push_contexts,
        WsRuntime.set_contexts]
      cases !booked.tpLevels.any MultiTp.isRemaining || decide (booked.currentQuantity ≤ 0) with
      | false => simp
      | true => simp

/-- `_reconcile_partial_close`. -/
theorem complete_reconcilePartialClose (deltaQty : ℚ) :
    (complete a (reconcilePartialClose r deltaQty) runtime).1 =
      runtime.handled r a.toAnswers
        ((runtime.contexts r).reconcilePartialClose a.toAnswers deltaQty) := by
  unfold reconcilePartialClose PositionContext.reconcilePartialClose WsRuntime.handled
  rw [complete_pause_bind, complete_pause_bind, complete_setReconciler_bind,
    complete_position_bind, WsRuntime.setReconciler_contexts]
  have hkept := ((runtime.setReconciler r none).set_self r).symm
  cases (runtime.contexts r).isLive with
  | false => simpa using hkept
  | true =>
    cases (runtime.contexts r).closestOpenTpLevelByQty deltaQty with
    | none => simpa using hkept
    | some matched => simp

theorem complete_handleEntryFillEvent (event : OrderEvent) :
    complete a (handleEntryFillEvent r event) runtime =
      ((runtime.contexts r).handleEntryFillEvent a.toAnswers event (runtime.reconcilers r)).elim
        (runtime, false) fun h => (runtime.handled r a.toAnswers h, true) := by
  unfold handleEntryFillEvent PositionContext.handleEntryFillEvent WsRuntime.handled
  rw [complete_position_bind]
  split
  · rfl
  · simp only [complete_writePosition_bind]
    rw [complete_bind, complete_applyTransition, WsRuntime.set_contexts]
    generalize PositionContext.applyTransition a.toAnswers _ .entryFilled = moved
    by_cases hopen : moved.1 = some .open
    · simp [hopen]
    · simp [hopen]

theorem complete_handleSlTriggeredEvent (event : OrderEvent) :
    complete a (handleSlTriggeredEvent r event) runtime =
      ((runtime.contexts r).handleSlTriggeredEvent a.toAnswers event (runtime.reconcilers r)).elim
        (runtime, false) fun h => (runtime.handled r a.toAnswers h, true) := by
  unfold handleSlTriggeredEvent PositionContext.handleSlTriggeredEvent WsRuntime.handled
  rw [complete_position_bind]
  cases (runtime.contexts r).isSlTriggerEvent event with
  | false => simp
  | true =>
    simp only [Bool.not_true, Bool.false_eq_true, if_false]
    split
    · simp
    · rw [complete_bind, complete_applyTransition]
      generalize (runtime.contexts r).applyTransition a.toAnswers .slTriggered = moved
      by_cases hclosing : moved.1 = some .closing
      · simp [hclosing]
      · simp [hclosing]

theorem complete_handleMultiTpEvent (event : OrderEvent) :
    (complete a (handleMultiTpEvent r event) runtime).1 =
      runtime.handled r a.toAnswers
        ((runtime.contexts r).handleMultiTpEvent a.toAnswers event (runtime.reconcilers r)) := by
  have hkept := ((runtime.setReconciler r none).set_self r).symm
  unfold handleMultiTpEvent PositionContext.handleMultiTpEvent WsRuntime.handled
  rw [complete_position_bind]
  cases (runtime.contexts r).eventMatchesTriggeredLevel event with
  | true => simpa using hkept
  | false =>
    simp only [Bool.false_eq_true, if_false]
    cases (runtime.contexts r).matchTpLevel event with
    | none => simp
    | some matched =>
      simp only [complete_pause_bind]
      rw [complete_bind, complete_handleTpTriggered, complete_setReconciler_bind,
        complete_position_bind]
      generalize MultiTp.handleTpTriggered (runtime.contexts r) matched "multi_tp" a.live a.now
        a.nowMs = fired
      simp only [WsRuntime.setReconciler_push, WsRuntime.setReconciler_set,
        WsRuntime.push_contexts, WsRuntime.set_contexts]
      cases decide (fired.1.state = .closed) || decide (fired.1.currentQuantity ≤ 0) with
      | false => simp
      | true => simp

theorem complete_handleSingleTpEvent :
    (complete a (handleSingleTpEvent r) runtime).1 =
      runtime.handled r a.toAnswers
        ((runtime.contexts r).handleSingleTpEvent a.toAnswers (runtime.reconcilers r)) := by
  unfold handleSingleTpEvent PositionContext.handleSingleTpEvent WsRuntime.handled
  rw [complete_position_bind]
  split
  · simp
  · simp only [complete_writePosition_bind]
    rw [complete_bind, complete_closePosition, WsRuntime.set_contexts]
    generalize PositionContext.closePosition a.toAnswers _ .tpTriggered = moved
    cases moved.1.isSome with
    | false => simp
    | true => simp

theorem complete_handleTpTriggeredEvent (event : OrderEvent) :
    (complete a (handleTpTriggeredEvent r event) runtime).1 =
      ((runtime.contexts r).handleTpTriggeredEvent a.toAnswers event (runtime.reconcilers r)).elim
        runtime (runtime.handled r a.toAnswers) := by
  unfold handleTpTriggeredEvent PositionContext.handleTpTriggeredEvent
  rw [complete_position_bind]
  cases (runtime.contexts r).isTpTriggerEvent event with
  | false => simp
  | true =>
    simp only [Bool.not_true, Bool.false_eq_true, if_false]
    split
    · exact complete_handleMultiTpEvent a runtime r event
    · exact complete_handleSingleTpEvent a runtime r

/-- **Alone on the loop, an order event does what its handler does as one step.** -/
theorem complete_routeToPosition (event : OrderEvent) :
    (complete a (routeToPosition r event) runtime).1 =
      runtime.handled r a.toAnswers
        ((runtime.contexts r).routeLifecycleEvent a.toAnswers event (runtime.reconcilers r)) := by
  unfold routeToPosition PositionContext.routeLifecycleEvent
  rw [complete_pause_bind, complete_bind, complete_handleEntryFillEvent]
  cases (runtime.contexts r).handleEntryFillEvent a.toAnswers event (runtime.reconcilers r) with
  | some h => simp
  | none =>
    simp only [Option.elim_none, complete_only, decide_true, Option.none_or]
    rw [complete_bind, complete_handleSlTriggeredEvent]
    cases (runtime.contexts r).handleSlTriggeredEvent a.toAnswers event (runtime.reconcilers r) with
    | some h => simp
    | none =>
      simp only [Option.elim_none, complete_only, decide_true, if_true]
      rw [complete_handleTpTriggeredEvent]
      cases (runtime.contexts r).handleTpTriggeredEvent a.toAnswers event
          (runtime.reconcilers r) with
      | some h => rfl
      | none => simp [WsRuntime.handled]

end WsHandler

end AdviserConstructor
