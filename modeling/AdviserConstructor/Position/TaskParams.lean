import AdviserConstructor.Exchange.Adapter
import AdviserConstructor.Library.InsertionDict

/-!
# Task parameters

The `params: dict[str, Any]` of an order task, and the strict readers of
`app/services/position/order_queue.py` (`_require_str`, `_require_float`, …).  A value is one
of the few Python types that a producer stores there; a reader that raises `ValueError`
returns the error with the source's text.
-/

namespace AdviserConstructor

open DecimalText

/-- A Python value in a parameter dictionary. -/
inductive PyVal where
  | none
  | bool (b : Bool)
  | int (n : ℤ)
  | float (x : ℚ)
  | str (s : String)
  | side (s : OrderSide)
  deriving DecidableEq, Repr

namespace PyVal

/-- `float(value)`; `none` is a `TypeError` or a `ValueError`. -/
def toFloat? : PyVal → Option ℚ
  | .none => Option.none
  | .bool b => some (if b then 1 else 0)
  | .int n => some n
  | .float x => some x
  | .str s => parseDecimal s
  | .side s => parseDecimal s.value

/-- The truth value, `bool(value)`. -/
def truthy : PyVal → Bool
  | .none => false
  | .bool b => b
  | .int n => n ≠ 0
  | .float x => x ≠ 0
  | .str s => s ≠ ""
  | .side _ => true

end PyVal

/-- `dict[str, Any]`. -/
abbrev TaskParams := InsertionDict String PyVal

namespace TaskParams

/-- `params.get(key)`: `None` stands for a missing key too. -/
def lookup (params : TaskParams) (key : String) : PyVal := params.getD key .none

/-- `str.strip().lower()`. -/
def normalized (s : String) : String := String.ofList ((strip s.toList).map Char.toLower)

/-- `_require_str`. -/
def requireStr (params : TaskParams) (key : String) (default : PyVal := .none) :
    Except TaskError String :=
  match params.getD key default with
  | .str s =>
      if s ≠ "" then .ok s
      else .error (.other ("Missing or invalid string parameter: " ++ key))
  | .side s => .ok s.value
  | _ => .error (.other ("Missing or invalid string parameter: " ++ key))

/-- `_require_float`. -/
def requireFloat (params : TaskParams) (key : String) : Except TaskError ℚ :=
  match params.lookup key with
  | .none => .error (.other ("Missing numeric parameter: " ++ key))
  | value =>
      match value.toFloat? with
      | some x => .ok x
      | none => .error (.other ("Invalid numeric parameter: " ++ key))

/-- `_optional_float`. -/
def optionalFloat (params : TaskParams) (key : String) : Except TaskError (Option ℚ) :=
  match params.lookup key with
  | .none => .ok none
  | value =>
      match value.toFloat? with
      | some x => .ok (some x)
      | none => .error (.other ("Invalid numeric parameter: " ++ key))

/-- `_require_side`. -/
def requireSide (params : TaskParams) (key : String) : Except TaskError OrderSide :=
  match params.lookup key with
  | .side s => .ok s
  | .str s =>
      if normalized s = "buy" then .ok .buy
      else if normalized s = "sell" then .ok .sell
      else .error (.other ("Invalid order side for " ++ key ++ ": " ++ s))
  | _ => .error (.other ("Missing order side parameter: " ++ key))

/-- `_require_bool`. -/
def requireBool (params : TaskParams) (key : String) (default : Bool) : Bool :=
  match params.getD key (.bool default) with
  | .bool b => b
  | .str s =>
      if normalized s ∈ ["1", "true", "yes", "y", "on"] then true
      else if normalized s ∈ ["0", "false", "no", "n", "off"] then false
      else (PyVal.str s).truthy
  | value => value.truthy

/-- The keys under which a producer may have stored the quantity of the position. -/
def quantityKeys : List String := ["full_quantity", "quantity", "new_quantity"]

/-- `_has_positive_emergency_quantity`. -/
def hasPositiveEmergencyQuantity (params : TaskParams) : Bool :=
  quantityKeys.any fun key =>
    match (params.lookup key).toFloat? with
    | some x => 0 < x
    | none => false

/-- The first positive number under the given keys, `0` when there is none. -/
def firstPositive (params : TaskParams) : List String → Except TaskError ℚ
  | [] => .ok 0
  | key :: keys =>
      match params.lookup key with
      | .none => firstPositive params keys
      | value =>
          match value.toFloat? with
          | none => .error (.other ("Invalid numeric parameter: " ++ key))
          | some x => if 0 < x then .ok x else firstPositive params keys

/-- `_resolve_emergency_quantity`. -/
def resolveEmergencyQuantity (params : TaskParams) : Except TaskError ℚ :=
  firstPositive params quantityKeys

theorem getD_assign (params : TaskParams) (k k' : String) (v default : PyVal) :
    (params.assign k v).getD k' default = if k' = k then v else params.getD k' default := by
  unfold InsertionDict.getD
  rw [InsertionDict.get?_assign]
  split <;> rfl

theorem lookup_assign (params : TaskParams) (k k' : String) (v : PyVal) :
    lookup (params.assign k v) k' = if k' = k then v else lookup params k' := by
  unfold lookup InsertionDict.getD
  rw [InsertionDict.get?_assign]
  split <;> rfl

@[simp] theorem lookup_empty (k : String) :
    lookup (InsertionDict.empty : TaskParams) k = .none := rfl

end TaskParams

end AdviserConstructor
