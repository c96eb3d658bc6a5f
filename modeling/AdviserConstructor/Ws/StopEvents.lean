import AdviserConstructor.Ws.HandlerInvariants

/-!
# Stops that trigger without closing

`_handle_sl_triggered_event` of `app/services/ws/manager.py` takes the first event of a stop that
looks like a fill for the end of the position: it writes `CLOSED` and a quantity of zero, and
cancels every other conditional order of the symbol.  Whether the order that has triggered closes
the position is known to the exchange only, and later: it may fill in parts, be rejected, or be
smaller than the position.

A run here interleaves the events of stop orders with the size that the exchange has and reports.
An event says which order it is of, so that the executions that follow can be told apart.

* `neverStripped_iff`: the runtime strips no live position exactly if every event that it takes for
  a trigger comes when the size is zero, or is of an order that an execution of which brings it to
  zero.
-/

namespace AdviserConstructor

open PositionContext StepSystem DecimalText

/-! ## Algo updates -/

/-- The payload of an `ALGO_UPDATE`, under its field names; numbers that do not parse are `0`. -/
structure AlgoUpdate where
  /-- algo id -/
  aid : String := ""
  caid : String := ""
  /-- order type -/
  o : String
  /-- algo status -/
  X : String
  /-- the order type that was executed -/
  act : String := ""
  /-- trigger price -/
  tp : ℚ := 0
  /-- order price -/
  p : ℚ := 0
  /-- average fill price -/
  ap : ℚ := 0
  /-- quantity -/
  q : ℚ := 0
  /-- executed quantity -/
  aq : ℚ := 0

namespace BinanceAdapter

/-- `_normalize_order_type`. -/
def normalizeOrderType (raw : String) : String :=
  match uppered raw with
  | "STOP_MARKET" => "stop_loss"
  | "STOP" => "stop_loss"
  | "TAKE_PROFIT_MARKET" => "take_profit"
  | "TAKE_PROFIT" => "take_profit"
  | "TRAILING_STOP_MARKET" => "trailing_stop"
  | _ => "unknown"

/-- `_normalize_status`. -/
def normalizeStatus (raw : String) : String :=
  match uppered raw with
  | "NEW" => "new"
  | "TRIGGERING" => "new"
  | "TRIGGERED" => "triggered"
  | "FINISHED" => "finished"
  | "CANCELED" => "cancelled"
  | "CANCELLED" => "cancelled"
  | "REJECTED" => "rejected"
  | "EXPIRED" => "cancelled"
  | _ => lowered raw

/-- `_normalize_algo_update`. -/
def normalizeAlgoUpdate (update : AlgoUpdate) : OrderEvent where
  orderId := update.aid
  clientOrderId := update.caid
  orderType := normalizeOrderType update.o
  status := normalizeStatus update.X
  executionType := lowered update.act
  isAlgo := true
  reduceOnly := true
  lastFilledQuantity := update.aq
  filledQuantity := update.aq
  quantity := update.q
  averagePrice := update.ap
  lastFillPrice := update.ap
  price :=
    if update.tp ≠ 0 then update.tp else if update.p ≠ 0 then update.p else update.ap
  triggerPrice := update.tp

end BinanceAdapter

/-! ## Runs -/

/-- A tracked position, its reconciler, and the exchange. -/
structure StopRun where
  position : PositionContext
  reconciler : Option ℚ := none
  /-- the size of the position on the exchange -/
  size : ℚ
  /-- the last step has gone on to cancel the remaining conditional orders -/
  cleaned : Bool := false

/-- What happens next. -/
inductive StopOrderEvent where
  /-- an event of a stop order, or of the order that it has turned into -/
  | orderUpdate (order : ℕ) (event : OrderEvent) (answers : Answers)
  | positionUpdate (answers : Answers)
  /-- the delay of the partial-close reconciler is over -/
  | reconcilerDue (answers : Answers)
  /-- an order executes, which leaves another size -/
  | executed (order : ℕ) (size : ℚ)

namespace StopRun

/-- An event of a stop order is conditional, those of the order that it turns into are reduce-only,
and neither is one of a take-profit order. -/
def ofStopOrder (position : PositionContext) (event : OrderEvent) : Bool :=
  (event.isConditionalOrderEvent || event.isReduceOnlyEvent) && !position.isTpTriggerEvent event

def handled (s : StopRun) (answers : Answers) (h : Handled) : StopRun :=
  { s with
    position := if h.cleanup then h.position.cancelRemaining answers else h.position
    reconciler := h.reconciler
    cleaned := h.cleanup }

def step (s : StopRun) : StopOrderEvent → Option StopRun
  | .orderUpdate _ event answers =>
      if ofStopOrder s.position event then
        some (s.handled answers (s.position.routeLifecycleEvent answers event s.reconciler))
      else none
  | .positionUpdate answers =>
      some (s.handled answers (s.position.handlePositionUpdate answers s.size s.reconciler))
  | .reconcilerDue answers =>
      s.reconciler.map fun deltaQty =>
        s.handled answers (s.position.reconcilePartialClose answers deltaQty)
  | .executed _ size => some { s with size := size, cleaned := false }

/-- The position has been marked closed, and what was left of its orders has been cancelled. -/
def Stripped (s : StopRun) : Prop :=
  s.position.state = .closed ∧ s.position.currentQuantity = 0 ∧ s.cleaned = true

instance (s : StopRun) : Decidable s.Stripped := inferInstanceAs (Decidable (_ ∧ _))

/-- Some execution of the order brings the size to zero. -/
def ClosedBy (order : ℕ) (s : StopRun) (events : List StopOrderEvent) : Prop :=
  ∃ before after, events = before ++ .executed order 0 :: after ∧ (run step s before).isSome

/-- A step may strip the position: there is none any more, or the order goes on to close it. -/
def MayClose (s t : StopRun) (e : StopOrderEvent) (after : List StopOrderEvent) : Prop :=
  s.size = 0 ∨
    ∃ order event answers, e = .orderUpdate order event answers ∧ ClosedBy order t after

/-- No step of a run strips a live position. -/
def NeverStripped (start : StopRun) (events : List StopOrderEvent) : Prop :=
  ∀ before e after s t, events = before ++ e :: after → run step start before = some s →
    step s e = some t → t.Stripped → MayClose s t e after

/-- The event is taken for a trigger: it looks like the fill of a stop, and the state allows one. -/
def TakenForTrigger (s : StopRun) (event : OrderEvent) : Prop :=
  s.position.isSlTriggerEvent event = true ∧
    ¬(s.position.state = .closed ∧ s.position.currentQuantity ≤ 0) ∧
    s.position.stateMachine.canTransition .slTriggered = true

/-- What is taken for a trigger comes when the size is zero, or is of an order that goes on to close
the position. -/
def OnlyClosingTriggers (start : StopRun) (events : List StopOrderEvent) : Prop :=
  ∀ before order event answers after s t,
    events = before ++ .orderUpdate order event answers :: after →
    run step start before = some s → step s (.orderUpdate order event answers) = some t →
    s.TakenForTrigger event → s.size = 0 ∨ ClosedBy order t after

/-! ## What strips a position -/

section Steps

variable {s t : StopRun} {event : OrderEvent} {answers : Answers} {order : ℕ}

theorem routeLifecycleEvent_of_ofStopOrder (h : ofStopOrder s.position event = true) :
    s.position.routeLifecycleEvent answers event s.reconciler =
      (s.position.handleSlTriggeredEvent answers event s.reconciler).getD
        { position := s.position, reconciler := s.reconciler } := by
  obtain ⟨hstop, hnotTp⟩ := (Bool.and_eq_true _ _).mp h
  have hentry : s.position.handleEntryFillEvent answers event s.reconciler = none := by
    refine if_pos (Or.inr ?_)
    rcases (Bool.or_eq_true _ _).mp hstop with hconditional | hreduceOnly
    · exact Or.inl hconditional
    · exact Or.inr (Or.inl hreduceOnly)
  have htp : s.position.handleTpTriggeredEvent answers event s.reconciler = none := by
    exact if_pos hnotTp
  unfold routeLifecycleEvent
  rw [hentry, htp, Option.none_or, Option.or_none]

theorem applyTransition_of_some {p : PositionContext} {trigger : TransitionTrigger}
    {next : PositionState} {machine : PositionStateMachine}
    (h : p.stateMachine.transition trigger = some (next, machine)) :
    p.applyTransition answers trigger =
      (some next, { p with stateMachine := machine, state := next }) := by
  unfold applyTransition
  rw [h]

theorem applyTransition_of_none {p : PositionContext} {trigger : TransitionTrigger}
    (answers : Answers) (h : p.stateMachine.transition trigger = none) :
    (p.applyTransition answers trigger).1 = none := by
  unfold applyTransition
  rw [h]

theorem handleSlTriggeredEvent_of_taken (answers : Answers) (h : s.TakenForTrigger event) :
    ∃ position, s.position.handleSlTriggeredEvent answers event s.reconciler =
        some { position := position, reconciler := s.reconciler, cleanup := true } ∧
      position.state = .closed ∧ position.currentQuantity = 0 := by
  obtain ⟨htrigger, hopen, hcan⟩ := h
  obtain ⟨⟨next, machine⟩, hnext⟩ := PositionStateMachine.canTransition_iff.mp hcan
  have hclosing : TransitionTrigger.slTriggered ∈ closingTriggers := by decide
  obtain ⟨rfl, machine', hclosed⟩ := transition_allClosed_of_closing hclosing hnext
  unfold handleSlTriggeredEvent
  rw [htrigger, if_neg hopen, applyTransition_of_some hnext]
  dsimp only
  generalize hbooked : appendSlTriggerHistory event _ _ = booked
  have hmachine : booked.stateMachine = machine := by
    rw [← hbooked]
    rfl
  have hquantity : booked.currentQuantity = 0 := by
    rw [← hbooked]
    rfl
  rw [applyTransition_of_some (hmachine ▸ hclosed)]
  exact ⟨_, rfl, rfl, hquantity⟩

theorem handleSlTriggeredEvent_of_not_taken (answers : Answers)
    (h : ¬s.TakenForTrigger event) :
    ((s.position.handleSlTriggeredEvent answers event s.reconciler).getD
      { position := s.position, reconciler := s.reconciler }).cleanup = false := by
  unfold handleSlTriggeredEvent
  cases htrigger : s.position.isSlTriggerEvent event with
  | false => rfl
  | true =>
    rw [if_neg (by simp)]
    split
    · rfl
    · next hopen =>
      have hrefused : s.position.stateMachine.transition .slTriggered = none := by
        rw [← Option.not_isSome_iff_eq_none, Option.isSome_iff_exists,
          ← PositionStateMachine.canTransition_iff]
        exact fun hcan => h ⟨htrigger, hopen, hcan⟩
      have hnone := applyTransition_of_none answers hrefused
      dsimp only
      rw [hnone]
      rfl

/-- **What strips a position**: an event of a stop order does, exactly if it is taken for a
trigger. -/
theorem stripped_orderUpdate_iff (hstep : step s (.orderUpdate order event answers) = some t) :
    t.Stripped ↔ s.TakenForTrigger event := by
  unfold step at hstep
  dsimp only at hstep
  split at hstep
  · next hof =>
    obtain rfl := Option.some.inj hstep
    rw [routeLifecycleEvent_of_ofStopOrder hof]
    constructor
    · rintro ⟨-, -, hcleaned⟩
      by_contra hnot
      have hkept := handleSlTriggeredEvent_of_not_taken answers hnot
      exact absurd (hcleaned.symm.trans hkept) (by simp)
    · intro htaken
      obtain ⟨position, hhandled, hstate, hquantity⟩ :=
        handleSlTriggeredEvent_of_taken answers htaken
      rw [hhandled]
      exact ⟨hstate, hquantity, rfl⟩
  · cases hstep

theorem size_eq_zero_of_cleaned (hstep : step s (.positionUpdate answers) = some t)
    (hcleaned : t.cleaned = true) : s.size = 0 := by
  obtain rfl := Option.some.inj hstep
  change (s.position.handlePositionUpdate answers s.size s.reconciler).cleanup = true at hcleaned
  unfold handlePositionUpdate at hcleaned
  dsimp only at hcleaned
  split at hcleaned
  · next hflat => exact abs_nonpos_iff.mp hflat
  · split at hcleaned <;> exact absurd hcleaned (by simp)

theorem cleaned_reconcilerDue (hstep : step s (.reconcilerDue answers) = some t) :
    t.cleaned = false := by
  obtain ⟨deltaQty, -, rfl⟩ := Option.map_eq_some_iff.mp hstep
  unfold reconcilePartialClose
  split
  · rfl
  · cases s.position.closestOpenTpLevelByQty deltaQty with
    | none => rfl
    | some matched => rfl

end Steps

/-! ## When no live position is stripped -/

/-- **The runtime never strips a live position** in exactly those runs in which every event that it
takes for a trigger comes when the size is zero, or is of an order an execution of which brings the
size to zero. -/
theorem neverStripped_iff (start : StopRun) (events : List StopOrderEvent) :
    NeverStripped start events ↔ OnlyClosingTriggers start events := by
  constructor
  · intro hnever before order event answers after s t hevents hrun hstep htaken
    have hstripped := (stripped_orderUpdate_iff hstep).mpr htaken
    rcases hnever before _ after s t hevents hrun hstep hstripped with hflat | hclosed
    · exact Or.inl hflat
    · obtain ⟨order', event', answers', hsame, hclosed⟩ := hclosed
      obtain ⟨rfl, -, -⟩ := StopOrderEvent.orderUpdate.inj hsame
      exact Or.inr hclosed
  · intro honly before e after s t hevents hrun hstep hstripped
    cases e with
    | orderUpdate order event answers =>
      have htaken := (stripped_orderUpdate_iff hstep).mp hstripped
      have hcloses := honly before order event answers after s t hevents hrun hstep htaken
      rcases hcloses with hflat | hclosed
      · exact Or.inl hflat
      · exact Or.inr ⟨order, event, answers, rfl, hclosed⟩
    | positionUpdate answers => exact Or.inl (size_eq_zero_of_cleaned hstep hstripped.2.2)
    | reconcilerDue answers =>
      exact absurd (hstripped.2.2.symm.trans (cleaned_reconcilerDue hstep)) (by simp)
    | executed order size =>
      obtain rfl := Option.some.inj hstep
      exact absurd hstripped.2.2 (by simp)

/-- A long position of 1, with its recorded stop. -/
def guarded : PositionContext where
  positionId := "p"
  symbol := "BTCUSDT"
  side := .long
  state := .open
  stateMachine := { state := .open }
  entryPrice := 100
  originalQuantity := 1
  currentQuantity := 1
  currentSlPrice := 90
  slExchangeOrderId := some "sl-1"

def triggered : StopOrderEvent :=
  .orderUpdate 0
    (BinanceAdapter.normalizeAlgoUpdate { aid := "sl-1", o := "STOP_MARKET", X := "TRIGGERED" }) {}

def rejected : StopOrderEvent :=
  .orderUpdate 0
    { orderId := "77", orderType := "unknown", status := "rejected", reduceOnly := true } {}

/-- **A rejected stop has closed the position**: it is stripped at the trigger, and the exchange
still has all of it. -/
theorem rejectedStop_strips :
    ¬NeverStripped { position := guarded, size := 1 } [triggered, rejected] := by
  intro hnever
  have hsteps : (step { position := guarded, size := 1 } triggered).map
      (fun t => decide t.Stripped) = some true := by
    decide +kernel
  obtain ⟨t, ht, hstripped⟩ := Option.map_eq_some_iff.mp hsteps
  rcases hnever [] _ _ _ t rfl rfl ht (of_decide_eq_true hstripped) with hflat | hclosed
  · exact absurd hflat (by norm_num)
  · obtain ⟨order, -, -, -, before, after, hafter, -⟩ := hclosed
    have hmem : StopOrderEvent.executed order 0 ∈ before ++ .executed order 0 :: after := by simp
    rw [← hafter] at hmem
    simp [rejected] at hmem

end StopRun

end AdviserConstructor
