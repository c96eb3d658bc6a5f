import AdviserConstructor.Ws.Hydration

/-!
# The row of a position, as the service writes it

`Ws.Hydration` has the columns of `AutoTradePosition` that a context is built from.  The service of
`app/services/auto_trade/service.py` also reads and writes the columns around them: whose position
it is, whether it is open, and how it was closed.  A `PositionRow` has both.

Two writers meet in a row.  A persist of the runtime merges a context into it and derives the
status from the state of that context; an exit path marks it closed.

Left out are the time stamps, the raw orders, the confidence at entry and the decision id, which
are recorded and not read here.
-/

namespace AdviserConstructor

/-! ## The columns -/

/-- The statuses of a row. -/
inductive RowStatus where
  | «open» | closed | error
  deriving DecidableEq, Repr

/-- The columns of `AutoTradePosition`. -/
structure PositionRow extends Row where
  userId : ℕ := 0
  configId : ℕ := 0
  profileId : ℕ := 0
  accountId : ℕ := 0
  status : RowStatus := .open
  positionSizeUsdt : ℚ := 0
  leverage : ℕ := 1
  closeReason : Option String := none
  closePrice : Option ℚ := none
  openOrderId : Option String := none
  closeOrderId : Option String := none
  openHistoryId : Option ℕ := none
  closeHistoryId : Option ℕ := none
  deriving DecidableEq

/-- `_status_from_runtime_state`. -/
def statusFromRuntimeState : PositionState → RowStatus
  | .closed => .closed
  | .cancelled => .error
  | .failed => .error
  | _ => .open

/-- The quantity in `current_quantity or quantity or 0.0`. -/
def Row.heldQuantity (row : Row) : ℚ :=
  match row.currentQuantity with
  | some quantity => if quantity = 0 then row.quantity else quantity
  | none => row.quantity

/-! ## Marking a row closed -/

namespace PositionRow

/-- `_merge_position_context_into_row`, with the status. -/
def mergePosition (row : PositionRow) (position : PositionContext) : PositionRow :=
  { row with
    toRow := row.toRow.mergePositionContext position
    status := statusFromRuntimeState position.state }

/-- The commit of a persist that has loaded `loaded` and made `merged` of it. -/
def commit (loaded merged stored : PositionRow) : PositionRow :=
  { stored with
    toRow := Row.commit loaded.toRow merged.toRow stored.toRow
    status := Row.column loaded.status merged.status stored.status }

/-- The three columns that every exit path writes. -/
def close (row : PositionRow) (reason : String) : PositionRow :=
  { row with
    state := .closed
    status := .closed
    currentQuantity := some 0
    closeReason := some reason }

/-- `_mark_position_closed`. -/
def markPositionClosed (row : PositionRow) (closeReason : String) (closePrice : Option ℚ) :
    PositionRow :=
  let closed := row.close closeReason
  match closePrice with
  | some price => if 0 < price then { closed with closePrice := some price } else closed
  | none => closed

/-- The row is closed in all three columns that say so. -/
def Closed (row : PositionRow) : Prop :=
  row.status = .closed ∧ row.state = .closed ∧ row.currentQuantity.getD 0 ≤ 0

instance (row : PositionRow) : Decidable row.Closed := inferInstanceAs (Decidable (_ ∧ _ ∧ _))

theorem closed_close (row : PositionRow) (reason : String) : (row.close reason).Closed :=
  ⟨rfl, rfl, le_refl 0⟩

@[simp] theorem markPositionClosed_status (row : PositionRow) (reason : String)
    (price : Option ℚ) : (row.markPositionClosed reason price).status = .closed := by
  cases price with
  | none => rfl
  | some price =>
    simp only [markPositionClosed]
    split <;> rfl

theorem closed_markPositionClosed (row : PositionRow) (reason : String) (price : Option ℚ) :
    (row.markPositionClosed reason price).Closed := by
  cases price with
  | none => exact row.closed_close reason
  | some price =>
    simp only [markPositionClosed]
    split
    · exact row.closed_close reason
    · exact row.closed_close reason

/-! ## The orders of a row -/

/-- An id that is neither `None` nor empty. -/
def presentId (id : Option String) : Option String :=
  id.filter fun s => s ≠ ""

/-- `_iter_known_conditional_order_ids`. -/
def conditionalOrderIds (row : PositionRow) : List String :=
  let stop := (presentId row.slExchangeOrderId).toList
  let targets :=
    row.tpLevels.filterMap fun level =>
      if level.status = .triggered then none else presentId level.exchangeOrderId
  -- `dedup` of the library keeps the last of several, the source the first
  (stop ++ targets).reverse.dedup.reverse

theorem stop_mem_conditionalOrderIds {row : PositionRow} {id : String}
    (hid : presentId row.slExchangeOrderId = some id) : id ∈ row.conditionalOrderIds := by
  unfold conditionalOrderIds
  rw [List.mem_reverse, List.mem_dedup, List.mem_reverse, List.mem_append, hid]
  exact Or.inl (List.mem_singleton_self id)

end PositionRow

end AdviserConstructor
