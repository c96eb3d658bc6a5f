import AdviserConstructor.AutoTrade.PositionRow
import AdviserConstructor.Ws.TpAccounting

/-!
# The poll behind a silent stream

The socket manager drives the multi-TP engine on the live position when a fill event arrives.  For
streams that deliver none, `_reconcile_partial_tp_via_rest` of `app/services/auto_trade/service.py`
polls: it locks the row and builds a context of its own from it, takes the levels whose orders are
gone and that the size of the position bears out for filled, drives an engine of its own on that
context, and merges the context into the row.

These are its three phases.  `AutoTrade.RestInference` asks which fills a poll infers, and
`AutoTrade.TpPaths` how polls and fill events get on with each other.

The audit event for a size that bears out nothing is left out, as are the time stamps.
-/

namespace AdviserConstructor

open PositionContext StepSystem

/-! ## The poll -/

/-- A poll that has accepted levels. -/
structure RestPass where
  context : PositionContext
  accepted : List (ℕ × TPLevel)
  liveSize : ℚ

namespace RestPass

/-- The levels that a poll looks at: placed on the exchange, not advanced yet, and not the last,
which flattens the position. -/
def candidates (context : PositionContext) : List (ℕ × TPLevel) :=
  (context.tpLevels.zipIdx.map Prod.swap).filter fun (index, level) =>
    index + 1 ≠ context.tpLevels.length &&
      (level.status = .open || level.status = .pending) &&
      level.exchangeOrderId.any (· ≠ "")

/-- The candidates whose order is gone. -/
def filled (context : PositionContext) (openOrders : List String) : List (ℕ × TPLevel) :=
  (candidates context).filter fun (_, level) =>
    level.exchangeOrderId.all (· ∉ openOrders.filter (· ≠ ""))

/-- The filled levels in order, as long as what has been closed covers half of what they close
together. -/
def acceptFrom (originalQuantity observedClosed : ℚ) :
    ℚ → List (ℕ × TPLevel) → List (ℕ × TPLevel)
  | _, [] => []
  | cumulative, (index, level) :: rest =>
      let cumulative := cumulative + originalQuantity * (level.closePct / 100)
      if cumulative * (1 / 2) ≤ observedClosed + positionEpsilon then
        (index, level) :: acceptFrom originalQuantity observedClosed cumulative rest
      else []

def acceptedLevels (context : PositionContext) (liveSize : ℚ) (openOrders : List String) :
    List (ℕ × TPLevel) :=
  acceptFrom context.originalQuantity (max (context.originalQuantity - liveSize) 0) 0
    (filled context openOrders)

/-- Phase 1 of `_reconcile_partial_tp_via_rest`: the locked read and the decision.  `openOrders` is
`none` if they cannot be asked for. -/
def decide (row : PositionRow) (liveSize : ℚ) (openOrders : Option (List String)) :
    Option RestPass :=
  if liveSize ≤ positionEpsilon then none
  else if row.status ≠ .open ∨ row.state = .closed ∨ row.tpMode ≠ .multi then none
  else
    openOrders.bind fun openOrders =>
      let context := fromDbRow row.toRow
      let accepted := acceptedLevels context liveSize openOrders
      if accepted = [] then none else some { context, accepted, liveSize }

/-- What the engine is fed as the quantity before the fills. -/
def quantityBefore (pass : RestPass) : ℚ :=
  pass.liveSize +
    (pass.accepted.map fun (_, level) =>
      pass.context.originalQuantity * (level.closePct / 100)).sum

/-- Phase 2: the engine is driven over the accepted levels; the size of the exchange is pinned
afterwards. -/
def drive (pass : RestPass) (live : PositionReply) (now : ℚ) (nowMs : ℕ) : PositionContext :=
  { pass.accepted.foldl
      (fun context (index, _) =>
        (MultiTp.handleTpTriggered context index "rest_reconcile_inferred" live now nowMs).1)
      { pass.context with currentQuantity := pass.quantityBefore } with
    currentQuantity := pass.liveSize }

end RestPass

/-- Phase 3: the row is locked again, and the context is merged into it if it is still open. -/
def PositionRow.mergeRestContext (row : PositionRow) (context : PositionContext) : PositionRow :=
  if row.status ≠ .open ∨ row.state = .closed then row
  else row.commit (row.mergePosition context) row

end AdviserConstructor
