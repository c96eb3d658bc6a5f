import AdviserConstructor.Exchange.Adapter
import AdviserConstructor.Position.StateMachine

/-!
# The position context

`PositionContext` and `TPLevel` of `app/services/position/context.py`, with the fields that the
runtime reads.  Identity beyond the position id and the symbol, the fees and profits, the
watchers and the time stamps are left out: they are displayed or persisted, and decide nothing
that is modelled here.
-/

namespace AdviserConstructor

/-- The status of a take-profit level; `other` is any other string. -/
inductive TPStatus where
  | pending | «open» | triggered | cancelled | other (name : String)
  deriving DecidableEq, Repr

/-- `TPLevel`. -/
structure TPLevel where
  level : ℤ := 0
  closePct : ℚ
  triggerPrice : ℚ
  status : TPStatus := .pending
  exchangeOrderId : Option String := none
  moveSlTo : Option String := none
  slLockPct : Option ℚ := none
  deriving DecidableEq, Repr

/-- `TPHistoryEntry`, without its time stamp. -/
structure TPHistoryEntry where
  tpLevel : ℕ
  oldPrice : ℚ
  newPrice : ℚ
  reason : String
  closePct : ℚ
  exchangeOrderId : String
  deriving DecidableEq, Repr

/-- `SLHistoryEntry`, without its time stamp. -/
structure SLHistoryEntry where
  oldPrice : ℚ
  newPrice : ℚ
  reason : String
  triggerSource : String
  exchangeOrderId : String
  deriving DecidableEq, Repr

/-- The take-profit mode. -/
inductive TpMode where
  | single | multi
  deriving DecidableEq, Repr

/-- `PositionContext`. -/
structure PositionContext where
  positionId : String := ""
  symbol : String := ""
  state : PositionState := .pending
  stateMachine : PositionStateMachine := { state := .pending }
  side : PositionSide := .long
  entryPrice : ℚ := 0
  originalQuantity : ℚ := 0
  currentQuantity : ℚ := 0
  currentSlPrice : ℚ := 0
  slExchangeOrderId : Option String := none
  slHistory : List SLHistoryEntry := []
  tpMode : TpMode := .single
  tpLevels : List TPLevel := []
  currentTpPrice : Option ℚ := none
  tpHistory : List TPHistoryEntry := []
  dispatchedSlLevels : Finset ℕ := ∅
  trailingEnabled : Bool := false
  trailingCallbackRate : Option ℚ := none
  trailingActivationPrice : Option ℚ := none
  trailingHighestPrice : Option ℚ := none
  trailingLowestPrice : Option ℚ := none
  breakevenEnabled : Bool := false
  breakevenTriggerRr : ℚ := 1
  breakevenActivated : Bool := false
  volatilitySlEnabled : Bool := false
  volatilityAtrPeriod : ℤ := 14
  volatilityAtrMultiplier : ℚ := 2
  volatilityLastAtr : Option ℚ := none
  killSwitchEnabled : Bool := false
  killSwitchAtrSpikeMult : Option ℚ := none
  killSwitchAtrPeriod : Option ℤ := none
  killSwitchPriceMovePct : Option ℚ := none
  killSwitchCooldownSeconds : Option ℤ := none
  adjustmentPriority : List String := ["watcher", "trailing", "breakeven", "volatility"]
  deriving DecidableEq

namespace PositionContext

/-- `_closing_order_side`. -/
def closingOrderSide : PositionSide → OrderSide
  | .short => .buy
  | _ => .sell

/-- `self.position.state = self.position.state_machine.state`. -/
def syncState (position : PositionContext) : PositionContext :=
  { position with state := position.stateMachine.state }

/-- Apply a transition if the machine allows it. -/
def transition (position : PositionContext) (trigger : TransitionTrigger) : PositionContext :=
  match position.stateMachine.transition trigger with
  | some (_, machine) => { position with stateMachine := machine }
  | none => position

end PositionContext

end AdviserConstructor
