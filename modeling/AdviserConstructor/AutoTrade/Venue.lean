import Mathlib.Data.Finset.Basic
import Mathlib.Data.Rat.Defs
import Mathlib.Algebra.Order.Ring.Rat
import AdviserConstructor.Exchange.BinanceSl
import AdviserConstructor.Ws.Hydration

/-!
# What the service asks of the exchange

The exit paths of `app/services/auto_trade/service.py` cancel conditional orders, ask for the
position, and close it with a reduce-only order.  A `Venue` is what the exchange holds for an
account: the size of the position in each symbol and the conditional orders that are live.

What the exchange does and what it answers are two things.  A request that raises may have been
carried out all the same, and one that is answered may have been carried out in part; so a reply
says both.
-/

namespace AdviserConstructor

/-- An exception of the exchange or of the service; `expected` tells the ones that the exchange
clients raise from any other. -/
structure ServiceError where
  message : String
  expected : Bool := true
  retryable : Bool := false
  deriving DecidableEq, Repr

/-- `NormalizedFuturesPosition`. -/
structure ExchangePosition where
  symbol : String := ""
  side : PositionSide := .long
  contracts : ℚ
  entryPrice : Option ℚ := none
  markPrice : Option ℚ := none
  leverage : Option ℚ := none
  takeProfitPrice : Option ℚ := none
  stopLossPrice : Option ℚ := none
  deriving DecidableEq

/-- The answer of `fetch_futures_position`: it raises, or reports a position or none. -/
abbrev FetchReply := Except ServiceError (Option ExchangePosition)

/-- `_is_position_closed_on_exchange`. -/
def isPositionClosedOnExchange : Option ExchangePosition → Bool
  | none => true
  | some position => position.contracts ≤ positionEpsilon

/-- The reply to a reduce-only order: `filled` is what the exchange executes of it at most, whether
it says so or not. -/
inductive CloseReply (α : Type) where
  | accepted (filled : ℚ) (result : α)
  | raised (filled : ℚ) (error : ServiceError)

namespace CloseReply

variable {α : Type}

/-- What the exchange executes at most. -/
def filled : CloseReply α → ℚ
  | .accepted filled _ => filled
  | .raised filled _ => filled

def raises : CloseReply α → Bool
  | .accepted .. => false
  | .raised .. => true

@[simp] theorem filled_accepted (filled : ℚ) (result : α) :
    (accepted filled result).filled = filled := rfl

@[simp] theorem filled_raised (filled : ℚ) (error : ServiceError) :
    (raised filled error : CloseReply α).filled = filled := rfl

@[simp] theorem raises_accepted (filled : ℚ) (result : α) :
    (accepted filled result).raises = false := rfl

@[simp] theorem raises_raised (filled : ℚ) (error : ServiceError) :
    (raised filled error : CloseReply α).raises = true := rfl

end CloseReply

/-- What the exchange has told an exit path, in the order told. -/
inductive VenueAnswer where
  /-- the position of a symbol, and whether it is flat -/
  | position (symbol : String) (flat : Bool)
  /-- the reduce-only close of a symbol, and whether the call raised -/
  | close (symbol : String) (raised : Bool)
  deriving DecidableEq, Repr

/-- What a fetch tells, unless it raises. -/
def FetchReply.answer (symbol : String) : FetchReply → List VenueAnswer
  | .error _ => []
  | .ok position => [.position symbol (isPositionClosedOnExchange position)]

/-- What the exchange holds for an account. -/
structure Venue where
  /-- the absolute size of the position in a symbol -/
  size : String → ℚ
  /-- the ids of the conditional orders that are live -/
  conditionals : Finset String

namespace Venue

/-- The venue behind the cancellation of a conditional order. -/
def cancelConditional (venue : Venue) (id : String) (reply : CancelReply) : Venue :=
  if reply.effective then { venue with conditionals := venue.conditionals.erase id } else venue

/-- What a reduce-only order over `quantity` executes: no more than it asks for, and no more than
there is. -/
def executed (venue : Venue) (symbol : String) (quantity filled : ℚ) : ℚ :=
  min filled (min quantity (venue.size symbol))

/-- The venue behind a reduce-only order. -/
def reduceOnly (venue : Venue) (symbol : String) (quantity filled : ℚ) : Venue :=
  { venue with
    size :=
      Function.update venue.size symbol
        (venue.size symbol - venue.executed symbol quantity filled) }

/-- No exposure remains in the symbol. -/
def Flat (venue : Venue) (symbol : String) : Prop := venue.size symbol ≤ positionEpsilon

instance (venue : Venue) (symbol : String) : Decidable (venue.Flat symbol) :=
  inferInstanceAs (Decidable (_ ≤ _))

@[simp] theorem cancelConditional_size (venue : Venue) (id : String) (reply : CancelReply) :
    (venue.cancelConditional id reply).size = venue.size := by
  unfold cancelConditional
  split <;> rfl

@[simp] theorem reduceOnly_conditionals (venue : Venue) (symbol : String)
    (quantity filled : ℚ) :
    (venue.reduceOnly symbol quantity filled).conditionals = venue.conditionals := rfl

theorem mem_cancelConditional {venue : Venue} {id other : String} {reply : CancelReply} :
    other ∈ (venue.cancelConditional id reply).conditionals ↔
      other ∈ venue.conditionals ∧ ¬ (reply.effective = true ∧ other = id) := by
  unfold cancelConditional
  by_cases heffective : reply.effective = true
  · rw [if_pos heffective, Finset.mem_erase]
    tauto
  · rw [if_neg heffective]
    tauto

end Venue

end AdviserConstructor
