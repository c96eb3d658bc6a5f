import AdviserConstructor.Position.Producers

/-!
# The multi-TP engine

`MultiTPEngine.handle_tp_triggered` of `app/services/sl_tp/multi_tp.py`: what the fill of a
take-profit level does to the position, and the stop shift that it dispatches.

The engine runs under the lock of its position, so a call is one step.  `live` is what
`get_position` answers when the shift asks for it; a position that cannot be read is taken for a
flat one there, and the shift is skipped.  An index that is no level raises before anything is
written; the callers pass indices of levels only.
-/

namespace AdviserConstructor
namespace MultiTp

open PositionContext

/-! ## Where the stop goes -/

/-- The level that a `move_sl_to` of the form `tpN` names. -/
def referencedLevel (normalized : List Char) : Option ℕ :=
  match normalized with
  | 't' :: 'p' :: digits =>
      if digits ≠ [] ∧ digits.all Char.isDigit then
        match DecimalText.digitsValue digits with
        | 0 => none
        | n + 1 => some n
      else none
  | _ => none

/-- `_resolve_sl_shift_target`. -/
def resolveSlShiftTarget (position : PositionContext) (level : TPLevel) : Option ℚ :=
  match level.slLockPct with
  | some lock =>
      if position.entryPrice ≤ 0 ∨ level.triggerPrice ≤ 0 then none
      else some (position.entryPrice + (level.triggerPrice - position.entryPrice) * (lock / 100))
  | none =>
      match level.moveSlTo with
      | none => none
      | some text =>
          let normalized := TaskParams.normalized text
          if normalized = "none" then none
          else if normalized = "breakeven" then some position.entryPrice
          else
            (referencedLevel normalized.toList).bind fun referenced =>
              position.tpLevels[referenced]?.map TPLevel.triggerPrice

/-- `_sl_prices_equal`. -/
def slPricesEqual (a b : ℚ) : Bool :=
  a = b || |a - b| ≤ max (max |a| |b| * (1 / 1000000)) (1 / 1000000000)

/-- The new stop lies beyond the price that the market has just reached. -/
def wouldTriggerImmediately (side : PositionSide) (newSlPrice tpTrigger : ℚ) : Bool :=
  match side with
  | .long => tpTrigger < newSlPrice
  | .short => newSlPrice < tpTrigger
  | .both => false

/-- `_tp_level_sl_adjustment_reason`. -/
def slAdjustmentReason (position : PositionContext) (triggeredLevel : ℕ) : String :=
  match position.tpLevels[triggeredLevel]? with
  | none => "multi_tp"
  | some level =>
      match level.moveSlTo with
      | none => "multi_tp"
      | some text =>
          if TaskParams.normalized text = "breakeven" then "breakeven"
          else "multi_tp:" ++ TaskParams.normalized text

/-- `_dispatch_sl_shift`: the `replace_sl` task, if the stop moves. -/
def dispatchSlShift (position : PositionContext) (level : TPLevel) (triggeredLevel : ℕ)
    (triggerSource : String) (live : PositionReply) (now : ℚ) (nowMs : ℕ) : Option OrderTask :=
  if triggeredLevel + 1 = position.tpLevels.length then none
  else if position.currentQuantity ≤ 0 then none
  else
    match resolveSlShiftTarget position level with
    | none => none
    | some newSlPrice =>
        if slPricesEqual newSlPrice position.currentSlPrice then none
        else if wouldTriggerImmediately position.side newSlPrice level.triggerPrice then none
        else
          match live with
          | .noPosition | .raised => none
          | .snapshot live =>
              if |live.size| ≤ 1 / 1000000000 then none
              else
                let mark := if 0 < live.markPrice then some live.markPrice else none
                let callback :=
                  SuccessCallback.slAdjustment (slAdjustmentReason position triggeredLevel)
                    triggerSource
                some (enqueueSlReplace position newSlPrice triggeredLevel mark callback now nowMs)

/-! ## Transitions -/

def can (position : PositionContext) (trigger : TransitionTrigger) : Bool :=
  position.stateMachine.canTransition trigger

/-- `_transition_partial_close`. -/
def transitionPartialClose (position : PositionContext) : PositionContext :=
  if can position .partialClose then
    let closing := position.transition .partialClose
    if closing.stateMachine.state = .closing then closing.transition .partialClose else closing
  else (position.transition .tpTriggered).transition .partialClose

/-- `_transition_all_closed`. -/
def transitionAllClosed (position : PositionContext) : PositionContext :=
  if can position .allClosed then position.transition .allClosed
  else
    let position := position.transition .tpTriggered
    if can position .allClosed then position.transition .allClosed
    else if can position .partialClose then
      (position.transition .partialClose).transition .allClosed
    else position

/-! ## A fill -/

/-- The quantity that a level closes. -/
def levelQuantity (position : PositionContext) (level : TPLevel) : ℚ :=
  position.originalQuantity * (level.closePct / 100)

/-- The level is done or has been dispatched, so that the event is a duplicate. -/
def alreadyTriggered (position : PositionContext) (triggeredLevel : ℕ) (level : TPLevel) : Bool :=
  level.status = .triggered || triggeredLevel ∈ position.dispatchedSlLevels

def fillEntry (triggeredLevel : ℕ) (level : TPLevel) : TPHistoryEntry where
  tpLevel := triggeredLevel
  oldPrice := level.triggerPrice
  newPrice := level.triggerPrice
  reason := "tp_level_" ++ toString (triggeredLevel + 1) ++ "_hit"
  closePct := level.closePct
  exchangeOrderId := level.exchangeOrderId.getD ""

/-- The fill booked, before the transition: quantity, history and status. -/
def bookFill (position : PositionContext) (triggeredLevel : ℕ) (level : TPLevel) :
    PositionContext :=
  let closeQty :=
    if triggeredLevel + 1 = position.tpLevels.length then position.currentQuantity
    else levelQuantity position level
  { position with
    dispatchedSlLevels := insert triggeredLevel position.dispatchedSlLevels
    currentQuantity := max (position.currentQuantity - closeQty) 0
    tpHistory := position.tpHistory ++ [fillEntry triggeredLevel level]
    tpLevels := position.tpLevels.modify triggeredLevel fun level =>
      { level with status := .triggered } }

/-- A level that is still waiting for its fill. -/
def isRemaining (level : TPLevel) : Bool := level.status = .pending || level.status = .open

/-- The transition behind a booked fill. -/
def closeOrContinue (position : PositionContext) : PositionContext :=
  if !position.tpLevels.any isRemaining || position.currentQuantity ≤ 0 then
    (transitionAllClosed position).syncState
  else (transitionPartialClose position).syncState

/-- `handle_tp_triggered`: the position, and the `replace_sl` task if the stop moves. -/
def handleTpTriggered (position : PositionContext) (triggeredLevel : ℕ) (triggerSource : String)
    (live : PositionReply) (now : ℚ) (nowMs : ℕ) : PositionContext × Option OrderTask :=
  match position.tpLevels[triggeredLevel]? with
  | none => (position, none)
  | some level =>
      if alreadyTriggered position triggeredLevel level then (position, none)
      else
        let booked := bookFill position triggeredLevel level
        (closeOrContinue booked,
          dispatchSlShift booked level triggeredLevel triggerSource live now nowMs)

end MultiTp
end AdviserConstructor
