import AdviserConstructor.Ws.Uninterrupted

/-!
# What the handlers keep of a context

A context has its state twice, in `state` and in its state machine, and both are written in many
places: `_apply_transition`, the syncs, the multi-TP engine, the reconnect.  Between two awaits a
handler may do several such writes, and nobody sees the context in between.

* `InvariantOfContext` lists what is done to the two states between two awaits; everything else
  that is written to a context is for its other fields.
* Each `stable_…` says that a handler keeps what is closed under the list, one lemma for each.

The argument behind the closing handlers is `keeps_allClosed`: once a closing trigger has gone
through, `ALL_CLOSED` goes through too, so that `CLOSING` is never left standing at an await.
-/

namespace AdviserConstructor

open PositionContext Coroutine

/-! ## What is done to a context between two awaits -/

namespace PositionContext

/-- Both states are written, without the machine being asked. -/
def force (position : PositionContext) (target : PositionState) : PositionContext :=
  { position with
    stateMachine := { position.stateMachine with state := target }
    state := target }

theorem syncState_transition {p : PositionContext} {trigger : TransitionTrigger}
    {next : PositionState} {machine : PositionStateMachine}
    (h : p.stateMachine.transition trigger = some (next, machine)) :
    (p.transition trigger).syncState = { p with stateMachine := machine, state := next } := by
  unfold transition syncState
  rw [h]
  rw [PositionStateMachine.transition_state h]

end PositionContext

/-- The triggers that lead to `CLOSING`, where the runtime does not stay. -/
def closingTriggers : List TransitionTrigger := [.slTriggered, .tpTriggered, .manualClose]

/-- The triggers that the runtime fires on their own. -/
def loneTriggers : List TransitionTrigger :=
  [.entryFilled, .allClosed, .adjustmentComplete, .wsDisconnected, .syncComplete]

theorem transition_allClosed_of_closing {m m' : PositionStateMachine}
    {trigger : TransitionTrigger} {next : PositionState} (ht : trigger ∈ closingTriggers)
    (h : m.transition trigger = some (next, m')) :
    next = .closing ∧ ∃ m'', m'.transition .allClosed = some (.closed, m'') := by
  obtain ⟨target, htable, hstate, -, hcase⟩ := PositionStateMachine.transition_cases h
  have hclosing : target = .closing := by
    simp only [closingTriggers, List.mem_cons, List.not_mem_nil, or_false] at ht
    rcases ht with rfl | rfl | rfl <;> cases hm : m.state <;> simp_all [validTransitions]
  rcases hcase with ⟨rfl, -, -⟩ | ⟨rfl, -⟩
  · exact absurd ht (by decide)
  · refine ⟨hclosing, ?_⟩
    unfold PositionStateMachine.transition
    rw [hstate, hclosing]
    exact ⟨_, rfl⟩

/-- A property that is kept by everything the runtime does to the states of a context between two
awaits. -/
structure InvariantOfContext (A : PositionContext → Prop) : Prop where
  frame : ∀ p q, A p → q.state = p.state → q.stateMachine = p.stateMachine → A q
  fired : ∀ p trigger, trigger ∈ loneTriggers → A p → A (p.transition trigger).syncState
  closed : ∀ p trigger, trigger ∈ closingTriggers → A p →
    A ((p.transition trigger).transition .allClosed).syncState
  forced : ∀ p target, target ∈ [PositionState.open, .closed] → A p → A (p.force target)
  /-- the multi-TP engine behind a fill that leaves something -/
  continued : ∀ p, A p → A (MultiTp.transitionPartialClose p).syncState
  /-- the multi-TP engine behind the last fill -/
  finished : ∀ p, A p → A (MultiTp.transitionAllClosed p).syncState

def OfContexts (A : PositionContext → Prop) (runtime : WsRuntime) : Prop :=
  ∀ r, A (runtime.contexts r)

section OfContexts

variable {A : PositionContext → Prop} {runtime : WsRuntime}

theorem OfContexts.set (h : OfContexts A runtime) (r : ℕ) {p : PositionContext} (hp : A p) :
    OfContexts A (runtime.set r p) := by
  intro r'
  unfold WsRuntime.set
  dsimp only
  by_cases hr : r' = r
  · rw [hr, Function.update_self]
    exact hp
  · rw [Function.update_of_ne hr]
    exact h r'

end OfContexts

/-! ## The handlers keep it -/

namespace WsHandler

section Stable

variable {A : PositionContext → Prop} {r : ℕ}

theorem stable_pause : Stable (OfContexts A) pause := Stable.answer.bind fun _ => Stable.pure ()

theorem stable_position : Stable (OfContexts A) (position r) :=
  Stable.get.bind fun _ => Stable.pure _

theorem stable_writePosition {f : PositionContext → PositionContext}
    (hf : ∀ p, A p → A (f p)) : Stable (OfContexts A) (writePosition r f) :=
  Stable.modify fun _ hs => hs.set r (hf _ (hs r))

theorem stable_frame (hA : InvariantOfContext A) {f : PositionContext → PositionContext}
    (hstate : ∀ p, (f p).state = p.state)
    (hmachine : ∀ p, (f p).stateMachine = p.stateMachine) :
    Stable (OfContexts A) (writePosition r f) :=
  stable_writePosition fun p hp => hA.frame p (f p) hp (hstate p) (hmachine p)

theorem stable_frame_bind {β : Type} (hA : InvariantOfContext A)
    {f : PositionContext → PositionContext} {g : Unit → WsHandler β}
    (hstate : ∀ p, (f p).state = p.state)
    (hmachine : ∀ p, (f p).stateMachine = p.stateMachine)
    (hg : ∀ u, Stable (OfContexts A) (g u)) :
    Stable (OfContexts A) (writePosition r f >>= g) :=
  (stable_frame hA hstate hmachine).bind hg

theorem stable_setReconciler (deltaQty : Option ℚ) :
    Stable (α := WsAnswer) (OfContexts A)
      (modify fun runtime : WsRuntime => runtime.setReconciler r deltaQty) :=
  Stable.modify fun _ hs => hs

theorem stable_enqueue (tasks : List OrderTask) : Stable (OfContexts A) (enqueue tasks) :=
  stable_pause.bind fun _ => Stable.modify fun _ hs => hs

/-! ### One step of a handler, in the state that it finds -/

section Keeps

variable {I : WsRuntime → Prop} {β : Type} {Q : β → WsRuntime → Prop} {runtime : WsRuntime}

theorem keeps_position_bind {f : PositionContext → WsHandler β}
    (h : (f (runtime.contexts r)).Keeps I Q runtime) :
    (position r >>= f).Keeps I Q runtime := h

theorem keeps_writePosition_bind {f : PositionContext → PositionContext} {g : Unit → WsHandler β}
    (h : (g ()).Keeps I Q (runtime.set r (f (runtime.contexts r)))) :
    (writePosition r f >>= g).Keeps I Q runtime := h

theorem keeps_writePosition_twice {Q : Unit → WsRuntime → Prop}
    {f g : PositionContext → PositionContext}
    (h : Q () (runtime.set r (g (f (runtime.contexts r))))) :
    (do writePosition r f; writePosition r g : WsHandler Unit).Keeps I Q runtime := by
  refine keeps_writePosition_bind ?_
  change Q () ((runtime.set r (f (runtime.contexts r))).write r g)
  rw [WsRuntime.write_set]
  exact h

theorem keeps_applyTransition {Q : Option PositionState → WsRuntime → Prop}
    {trigger : TransitionTrigger} {next : PositionState} {machine : PositionStateMachine}
    (hnext : (runtime.contexts r).stateMachine.transition trigger = some (next, machine))
    (h : Q (some next) (runtime.set r ((runtime.contexts r).transition trigger).syncState)) :
    (applyTransition r trigger).Keeps I Q runtime := by
  refine keeps_position_bind ?_
  rw [hnext]
  refine keeps_writePosition_bind (keeps_writePosition_bind ?_)
  rw [WsRuntime.set_contexts, WsRuntime.set_set, ← syncState_transition hnext]
  exact h

end Keeps

/-! ### Syncs and transitions -/

variable {trigger : TransitionTrigger}

theorem stable_applySyncTransition (hA : InvariantOfContext A) {target : PositionState}
    (htrigger : trigger ∈ loneTriggers) (htarget : target ∈ [PositionState.open, .closed]) :
    Stable (OfContexts A) (applySyncTransition r trigger target) := by
  intro runtime hs
  refine keeps_position_bind ?_
  cases h : (runtime.contexts r).stateMachine.transition trigger with
  | none =>
    have hforced := hA.forced (runtime.contexts r) target htarget (hs r)
    exact keeps_writePosition_twice (hs.set r hforced)
  | some moved =>
    refine keeps_writePosition_twice (hs.set r ?_)
    have hfired := hA.fired _ trigger htrigger (hs r)
    rw [syncState_transition h] at hfired
    exact hfired

theorem stable_persistPosition : Stable (OfContexts A) persistPosition := stable_pause

theorem stable_syncClosed (hA : InvariantOfContext A) : Stable (OfContexts A) (syncClosed r) := by
  refine stable_frame_bind hA (fun _ => rfl) (fun _ => rfl) fun _ => ?_
  refine (stable_applySyncTransition hA (by decide) (by decide)).bind fun _ => ?_
  exact stable_persistPosition

theorem stable_syncReconnected (hA : InvariantOfContext A) :
    Stable (OfContexts A) (syncReconnected r) := by
  refine Stable.answer.bind fun reply => ?_
  cases reply.openOrders with
  | none => exact Stable.pure false
  | some orders =>
    refine stable_position.bind fun p => ?_
    refine (Stable.only (stable_enqueue _)).bind fun _ => ?_
    refine stable_position.bind fun p => ?_
    refine (Stable.only (stable_applySyncTransition hA (by decide) (by decide))).bind fun _ => ?_
    exact stable_persistPosition.bind fun _ => Stable.pure true

theorem stable_syncPosition (hA : InvariantOfContext A) (reconnectSync : Bool) :
    Stable (OfContexts A) (syncPosition r reconnectSync) := by
  refine Stable.answer.bind fun reply => ?_
  cases reply.sync with
  | raised => exact Stable.pure false
  | noPosition => exact (stable_syncClosed hA).bind fun _ => Stable.pure true
  | snapshot live =>
    dsimp only
    split
    · exact (stable_syncClosed hA).bind fun _ => Stable.pure true
    · refine stable_frame_bind hA (fun _ => rfl) (fun _ => rfl) fun _ => ?_
      refine stable_position.bind fun p => ?_
      refine Stable.bind (Stable.only fun runtime hs => ?_) fun _ => ?_
      · have hforced := hA.forced (runtime.contexts r) .open (by decide) (hs r)
        exact keeps_writePosition_twice (hs.set r hforced)
      · cases reconnectSync with
        | false => exact stable_persistPosition.bind fun _ => Stable.pure true
        | true => exact stable_syncReconnected hA

theorem keeps_applyTransition_refused (hA : InvariantOfContext A) {runtime : WsRuntime}
    (hs : OfContexts A runtime)
    (hrefused : (runtime.contexts r).stateMachine.transition trigger = none) :
    (applyTransition r trigger).Keeps (OfContexts A)
      (fun next runtime' => next = none ∧ OfContexts A runtime') runtime := by
  refine keeps_position_bind ?_
  rw [hrefused]
  exact keeps_bind ((stable_syncPosition hA false runtime hs).mono fun _ _ hs' => ⟨rfl, hs'⟩)

theorem stable_applyTransition (hA : InvariantOfContext A) (htrigger : trigger ∈ loneTriggers) :
    Stable (OfContexts A) (applyTransition r trigger) := by
  intro runtime hs
  cases h : (runtime.contexts r).stateMachine.transition trigger with
  | none => exact (keeps_applyTransition_refused hA hs h).mono fun _ _ hs' => hs'.2
  | some moved => exact keeps_applyTransition h (hs.set r (hA.fired _ trigger htrigger (hs r)))

/-- Behind a closing trigger `ALL_CLOSED` goes through, with writes in between that it does not
read. -/
theorem keeps_allClosed (hA : InvariantOfContext A) {I : WsRuntime → Prop} {runtime : WsRuntime}
    {p : PositionContext} {next : PositionState} {machine : PositionStateMachine}
    (hs : OfContexts A runtime) (hp : A p) (htrigger : trigger ∈ closingTriggers)
    (hnext : p.stateMachine.transition trigger = some (next, machine)) {between : PositionContext}
    (hbetween : between.stateMachine = machine) :
    (applyTransition r .allClosed).Keeps I (fun _ => OfContexts A) (runtime.set r between) := by
  obtain ⟨-, machine', hclosed⟩ := transition_allClosed_of_closing htrigger hnext
  have hgone : ((runtime.set r between).contexts r).stateMachine.transition .allClosed =
      some (.closed, machine') := by
    rw [WsRuntime.set_contexts, hbetween, hclosed]
  refine keeps_applyTransition hgone ?_
  rw [WsRuntime.set_contexts, WsRuntime.set_set]
  refine hs.set r (hA.frame _ _ (hA.closed p trigger htrigger hp) ?_ ?_)
  · unfold transition syncState
    rw [hnext, hbetween]
    rw [hclosed]
  · unfold transition syncState
    rw [hnext, hbetween]
    rw [hclosed]

theorem stable_closePosition (hA : InvariantOfContext A) (htrigger : trigger ∈ closingTriggers) :
    Stable (OfContexts A) (closePosition r trigger) := by
  intro runtime hs
  refine keeps_position_bind ?_
  cases hcan : (runtime.contexts r).stateMachine.canTransition trigger with
  | false =>
    exact (Stable.pure ()).bind (fun _ => stable_applyTransition hA (by decide)) runtime hs
  | true =>
    obtain ⟨⟨next, machine⟩, hnext⟩ := PositionStateMachine.canTransition_iff.mp hcan
    refine keeps_bind (keeps_bind (keeps_applyTransition hnext ?_))
    exact keeps_allClosed hA hs (hs r) htrigger hnext (by rw [syncState_transition hnext])

theorem stable_cancelRemainingOrders (hA : InvariantOfContext A) :
    Stable (OfContexts A) (cancelRemainingOrders r) := by
  refine stable_pause.bind fun _ => stable_pause.bind fun _ => ?_
  refine stable_position.bind fun p => Stable.answer.bind fun reply => ?_
  refine (Stable.forEach (fun _ => stable_pause) _).bind fun _ => ?_
  exact stable_frame hA (fun _ => rfl) (fun _ => rfl)

/-! ### Position updates and the multi-TP engine -/

theorem stable_handlePositionUpdate (hA : InvariantOfContext A) (size : ℚ) :
    Stable (OfContexts A) (handlePositionUpdate r size) := by
  refine stable_pause.bind fun _ => stable_position.bind fun p => ?_
  split
  · refine Stable.only ?_
    refine stable_frame_bind hA (fun _ => rfl) (fun _ => rfl) fun _ => ?_
    refine (stable_closePosition hA (by decide)).bind fun _ => ?_
    exact (stable_cancelRemainingOrders hA).bind fun _ => stable_persistPosition
  · split
    · exact Stable.pure ()
    · refine (Stable.only (stable_setReconciler _)).bind fun _ => ?_
      refine stable_frame_bind hA (fun _ => rfl) (fun _ => rfl) fun _ => ?_
      exact stable_persistPosition

theorem stable_dispatchSlShift (level : TPLevel) (triggeredLevel : ℕ) (triggerSource : String) :
    Stable (OfContexts A) (dispatchSlShift r level triggeredLevel triggerSource) := by
  refine stable_position.bind fun p => ?_
  cases plannedSl p level triggeredLevel with
  | none => exact stable_pause
  | some newSlPrice =>
    refine Stable.answer.bind fun reply => ?_
    cases reply.live with
    | noPosition => exact stable_pause
    | raised => exact stable_pause
    | snapshot live =>
      dsimp only
      split
      · exact stable_pause
      · refine stable_pause.bind fun _ => stable_position.bind fun p => ?_
        exact (stable_enqueue _).bind fun _ => stable_pause

theorem stable_handleTpTriggered (hA : InvariantOfContext A) (triggeredLevel : ℕ)
    (triggerSource : String) :
    Stable (OfContexts A) (handleTpTriggered r triggeredLevel triggerSource) := by
  refine stable_position.bind fun p => ?_
  cases p.tpLevels[triggeredLevel]? with
  | none => exact Stable.pure ()
  | some level =>
    dsimp only
    split
    · exact stable_pause
    · refine stable_frame_bind hA (fun _ => rfl) (fun _ => rfl) fun _ => ?_
      refine (stable_dispatchSlShift level triggeredLevel triggerSource).bind fun _ => ?_
      refine stable_position.bind fun p runtime hs => ?_
      split
      · exact keeps_writePosition_twice (hs.set r (hA.finished _ (hs r)))
      · exact keeps_writePosition_twice (hs.set r (hA.continued _ (hs r)))

theorem stable_reconcilePartialClose (hA : InvariantOfContext A) (deltaQty : ℚ) :
    Stable (OfContexts A) (reconcilePartialClose r deltaQty) := by
  refine stable_pause.bind fun _ => stable_pause.bind fun _ => ?_
  refine (stable_setReconciler none).bind fun _ => stable_position.bind fun p => ?_
  split
  · exact Stable.pure ()
  · cases p.closestOpenTpLevelByQty deltaQty with
    | none => exact Stable.pure ()
    | some matched =>
      refine stable_pause.bind fun _ => stable_pause.bind fun _ => ?_
      refine stable_frame_bind hA (fun _ => rfl) (fun _ => rfl) fun _ => ?_
      exact (stable_handleTpTriggered hA matched _).bind fun _ => stable_persistPosition

/-! ### Order events -/

theorem stable_handleEntryFillEvent (hA : InvariantOfContext A) (event : OrderEvent) :
    Stable (OfContexts A) (handleEntryFillEvent r event) := by
  refine stable_position.bind fun p => ?_
  split
  · exact Stable.pure false
  · refine stable_frame_bind hA (fun _ => rfl) (fun _ => rfl) fun _ => ?_
    refine (stable_applyTransition hA (by decide)).bind fun next => ?_
    refine Stable.bind (Stable.only ?_) fun _ => Stable.pure true
    refine Stable.answer.bind fun reply => stable_position.bind fun p => ?_
    refine (stable_enqueue _).bind fun _ => stable_persistPosition.bind fun _ => ?_
    exact stable_pause

theorem stable_handleSlTriggeredEvent (hA : InvariantOfContext A) (event : OrderEvent) :
    Stable (OfContexts A) (handleSlTriggeredEvent r event) := by
  refine stable_position.bind fun p => ?_
  split
  · exact Stable.pure false
  · split
    · exact Stable.pure true
    · intro runtime hs
      cases hfired : (runtime.contexts r).stateMachine.transition .slTriggered with
      | none =>
        refine keeps_bind ((keeps_applyTransition_refused hA hs hfired).mono ?_)
        rintro next runtime' ⟨rfl, hs'⟩
        exact hs'
      | some moved =>
        obtain ⟨next, machine⟩ := moved
        refine keeps_bind (keeps_applyTransition hfired ?_)
        obtain ⟨rfl, -⟩ := transition_allClosed_of_closing (by decide) hfired
        have hmachine : ((runtime.contexts r).transition .slTriggered).syncState.stateMachine =
            machine := by
          rw [syncState_transition hfired]
        refine keeps_bind (keeps_writePosition_bind (keeps_bind ?_))
        rw [WsRuntime.set_contexts, WsRuntime.set_set]
        generalize hbooked : appendSlTriggerHistory event _ _ = booked
        have hbetween : booked.stateMachine = machine := by
          rw [← hbooked]
          exact hmachine
        refine (keeps_allClosed hA hs (hs r) (by decide) hfired hbetween).mono ?_
        intro _ runtime' hs'
        exact (stable_cancelRemainingOrders hA).bind (fun _ => stable_persistPosition) runtime' hs'

theorem stable_handleMultiTpEvent (hA : InvariantOfContext A) (event : OrderEvent) :
    Stable (OfContexts A) (handleMultiTpEvent r event) := by
  refine stable_position.bind fun p => ?_
  split
  · exact stable_setReconciler none
  · cases p.matchTpLevel event with
    | none => exact stable_pause
    | some matched =>
      refine stable_pause.bind fun _ => (stable_handleTpTriggered hA matched _).bind fun _ => ?_
      refine (stable_setReconciler none).bind fun _ => stable_position.bind fun p => ?_
      exact (Stable.only (stable_cancelRemainingOrders hA)).bind fun _ => stable_persistPosition

theorem stable_handleSingleTpEvent (hA : InvariantOfContext A) :
    Stable (OfContexts A) (handleSingleTpEvent r) := by
  refine stable_position.bind fun p => ?_
  split
  · exact Stable.pure ()
  · refine stable_frame_bind hA (fun _ => rfl) (fun _ => rfl) fun _ => ?_
    refine (stable_closePosition hA (by decide)).bind fun next => Stable.only ?_
    exact (stable_cancelRemainingOrders hA).bind fun _ => stable_persistPosition

theorem stable_handleTpTriggeredEvent (hA : InvariantOfContext A) (event : OrderEvent) :
    Stable (OfContexts A) (handleTpTriggeredEvent r event) := by
  refine stable_position.bind fun p => ?_
  split
  · exact Stable.pure ()
  · split
    · exact stable_handleMultiTpEvent hA event
    · exact stable_handleSingleTpEvent hA

theorem stable_routeToPosition (hA : InvariantOfContext A) (event : OrderEvent) :
    Stable (OfContexts A) (routeToPosition r event) := by
  refine stable_pause.bind fun _ => (stable_handleEntryFillEvent hA event).bind fun entered => ?_
  refine Stable.only ((stable_handleSlTriggeredEvent hA event).bind fun stopped => ?_)
  exact Stable.only (stable_handleTpTriggeredEvent hA event)

/-! ### The reconnect -/

theorem stable_disconnectPositions (hA : InvariantOfContext A) (rs : List ℕ) :
    Stable (OfContexts A) (disconnectPositions rs) := by
  induction rs with
  | nil => exact Stable.pure true
  | cons r rs ih =>
    refine stable_position.bind fun p => ?_
    split
    · exact ih
    · refine (stable_applyTransition hA (by decide)).bind fun _ => ?_
      refine Stable.answer.bind fun reply => ?_
      split
      · exact Stable.pure false
      · exact ih

theorem stable_fullStateSync (hA : InvariantOfContext A) (rs : List ℕ) :
    Stable (OfContexts A) (fullStateSync rs) := by
  induction rs with
  | nil => exact Stable.pure true
  | cons r rs ih =>
    refine (stable_syncPosition hA true).bind fun synced => ?_
    split
    · exact ih
    · exact Stable.pure false

theorem stable_emergencyCloseAll (reason : String) (rs : List ℕ) :
    Stable (OfContexts A) (emergencyCloseAll reason rs) := by
  induction rs with
  | nil => exact Stable.pure ()
  | cons r rs ih =>
    refine stable_position.bind fun p => ?_
    split
    · exact ih
    · refine Stable.answer.bind fun reply => ?_
      split
      · exact Stable.pure ()
      · exact stable_position.bind fun p => (stable_enqueue _).bind fun _ => ih

theorem stable_reconnectAttempt (hA : InvariantOfContext A) :
    Stable (OfContexts A) reconnectAttempt := by
  refine Stable.answer.bind fun started => ?_
  split
  · exact Stable.pure false
  · refine Stable.get.bind fun runtime => (stable_fullStateSync hA _).bind fun synced => ?_
    split
    · exact Stable.answer.bind fun _ => Stable.pure _
    · exact Stable.pure false

theorem stable_reconnectLoop (hA : InvariantOfContext A) (left : ℕ) :
    Stable (OfContexts A) (reconnectLoop left) := by
  induction left with
  | zero => exact Stable.get.bind fun runtime => stable_emergencyCloseAll _ _
  | succ left ih =>
    refine stable_pause.bind fun _ => Stable.bind (Stable.modify fun _ hs => hs) fun _ => ?_
    refine (stable_reconnectAttempt hA).bind fun reconnected => ?_
    split
    · exact Stable.modify fun _ hs => hs
    · exact ih

theorem stable_handleDisconnect (hA : InvariantOfContext A) :
    Stable (OfContexts A) handleDisconnect := by
  refine Stable.get.bind fun runtime => ?_
  split
  · exact Stable.pure ()
  · refine Stable.bind (Stable.modify fun _ hs => hs) fun _ => ?_
    refine (stable_disconnectPositions hA _).bind fun disconnected => ?_
    refine (Stable.only (stable_reconnectLoop hA _)).bind fun _ => ?_
    exact Stable.modify fun _ hs => hs

end Stable

end WsHandler

end AdviserConstructor
