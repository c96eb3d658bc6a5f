import AdviserConstructor.Position.Context
import AdviserConstructor.Position.OrderTask

/-!
# Success callbacks

The two closures of `ws/manager.py` that a task may carry in `on_success`, as functions on the
position they close over: `_build_conditional_order_callback` books a new stop or take-profit
order, `_build_sl_adjustment_callback` books a moved stop.  The queue calls them with the result
of the adapter call.  Persisting the position is left to the caller.
-/

namespace AdviserConstructor
namespace PositionContext

/-- `_build_conditional_order_callback`. -/
def applyConditionalOrder (source : ConditionalSource) (levelIndex : Option ℕ)
    (result : ConditionalOrderResult) (position : PositionContext) : PositionContext :=
  match source, levelIndex with
  | .sl, _ => { position with slExchangeOrderId := some result.exchangeOrderId }
  | .tp, some i =>
      { position with
        tpLevels := position.tpLevels.modify i fun level =>
          { level with exchangeOrderId := some result.exchangeOrderId, status := .open } }
  | .tp, none => position

/-- `_build_sl_adjustment_callback`. -/
def applySlAdjustment (reason triggerSource : String) (result : ConditionalOrderResult)
    (position : PositionContext) : PositionContext :=
  let newPrice :=
    if 0 < result.triggerPrice then result.triggerPrice else position.currentSlPrice
  let entry : SLHistoryEntry :=
    { oldPrice := position.currentSlPrice
      newPrice := newPrice
      reason := reason
      triggerSource := triggerSource
      exchangeOrderId := result.exchangeOrderId }
  ({ position with
      currentSlPrice := newPrice
      slExchangeOrderId := some result.exchangeOrderId
      slHistory := position.slHistory ++ [entry] }.transition .adjustmentComplete).syncState

def applyCallback (result : ConditionalOrderResult) (position : PositionContext) :
    SuccessCallback → PositionContext
  | .conditionalOrder source levelIndex =>
      applyConditionalOrder source levelIndex result position
  | .slAdjustment reason triggerSource => applySlAdjustment reason triggerSource result position

end PositionContext
end AdviserConstructor
