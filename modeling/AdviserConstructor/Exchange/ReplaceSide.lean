import AdviserConstructor.Exchange.BracketRollback
import AdviserConstructor.Exchange.ReplaceCourse

/-!
# The side of a replaced order

`cancel_and_replace_sl` and `cancel_and_replace_tp` of `app/services/exchange/binance_adapter.py`
do not take the side of the order from the caller: `_resolve_stop_loss_side` asks `get_position`
for it, and takes a position that is not reported as short for a long one, also when the request
fails or reports none.

* `cancelAndReplaceSl_sides`, `cancelAndReplaceTp_sides`: every order that a call puts on the book
  has the resolved side.
* `replacesClosing_iff`: the replacements of a position close it, whatever is asked for and
  whatever else the exchange answers, exactly when the position is short if and only if
  `get_position` reports a short one.
-/

namespace AdviserConstructor
namespace BinanceAdapter

/-! ## Moving a target -/

/-- The arguments of `cancel_and_replace_tp`. -/
structure ReplaceTp where
  symbol : String
  existingOrderId : String
  newTriggerPrice : ℚ
  newQuantity : ℚ
  clientOrderId : String
  deriving DecidableEq, Repr

/-- The answers to the requests of `cancel_and_replace_tp`. -/
structure TpReplies where
  /-- `get_position` in `_resolve_stop_loss_side` -/
  side : PositionReply
  cancel : CancelReply
  place : PlaceReply
  pricePrecision : ℚ → ℚ := id
  amountPrecision : ℚ → ℚ := id

/-- The order that `place_take_profit` asks for, under the id that the exchange gives it. -/
def takeProfitOrder (r : TpReplies) (side : OrderSide) (req : ReplaceTp) (orderId : String) :
    LiveOrder where
  orderId := orderId
  clientAlgoId := clientAlgoId req.clientOrderId
  orderType := .takeProfit
  side := side
  triggerPrice := r.pricePrecision req.newTriggerPrice
  quantity := r.amountPrecision req.newQuantity

/-- `cancel_and_replace_tp`; `none` is an error.  A cancel that is not confirmed raises. -/
def cancelAndReplaceTp (r : TpReplies) (x : EntryAccount) (req : ReplaceTp) :
    Option ConditionalOrderResult × EntryAccount :=
  let side := resolveStopLossSide r.side
  let x :=
    if r.cancel.effective then
      { x with orders := x.orders.filter fun o => o.orderId ≠ req.existingOrderId }
    else x
  match r.cancel with
  | .accepted =>
      let (result, x) := placeProtective r.place (takeProfitOrder r side req) x
      (result.toOption, x)
  | .rejected _ | .raised _ _ => (none, x)

/-! ## New orders on a book -/

section Books

variable {α : Type} {sideOf : α → OrderSide} {side : OrderSide}

/-- The orders that are new on a book have the side. -/
def NewOnSide (sideOf : α → OrderSide) (side : OrderSide) (before after : List α) : Prop :=
  ∀ o ∈ after, o ∈ before ∨ sideOf o = side

theorem NewOnSide.refl (orders : List α) : NewOnSide sideOf side orders orders :=
  fun _ ho => .inl ho

theorem NewOnSide.trans {before between after : List α}
    (first : NewOnSide sideOf side before between)
    (second : NewOnSide sideOf side between after) : NewOnSide sideOf side before after := by
  intro o ho
  rcases second o ho with hbetween | hside
  · exact first o hbetween
  · exact .inr hside

theorem newOnSide_filter (p : α → Bool) (orders : List α) :
    NewOnSide sideOf side orders (orders.filter p) :=
  fun _ ho => .inl (List.mem_of_mem_filter ho)

theorem newOnSide_landed {sent : String → α} (h : ∀ orderId, sideOf (sent orderId) = side)
    (landed : Option String) (orders : List α) :
    NewOnSide sideOf side orders (orders ++ (landed.map sent).toList) := by
  intro o ho
  rcases List.mem_append.mp ho with hold | hnew
  · exact .inl hold
  · obtain ⟨orderId, -, rfl⟩ := Option.map_eq_some_iff.mp (Option.mem_toList.mp hnew)
    exact .inr (h orderId)

end Books

/-! ## The side of the orders of a call -/

section Sides

variable {r : Replies} {req : ReplaceSl} {side : OrderSide}

theorem newOnSide_cancelExistingSl (reply : CancelReply) (x : Exchange) (orderId : String) :
    NewOnSide StopOrder.side side x.orders (cancelExistingSl reply x orderId).2.orders := by
  rw [cancelExistingSl_book]
  cases reply.effective with
  | true => exact newOnSide_filter _ x.orders
  | false => exact NewOnSide.refl x.orders

theorem newOnSide_placeStopLoss (reply : PlaceReply) (x : Exchange) (quantity triggerPrice : ℚ)
    (clientOrderId : String) (closePosition : Bool) :
    NewOnSide StopOrder.side side x.orders (placeStopLoss r reply x side quantity triggerPrice
      clientOrderId closePosition).2.orders := by
  rw [placeStopLoss_orders]
  refine newOnSide_landed (fun orderId => ?_) reply.placedId x.orders
  rfl

theorem newOnSide_afterRejection {continue_ : Bool → Exchange → Attempts × Exchange}
    (hnext : ∀ resolved y, NewOnSide StopOrder.side side y.orders
      (continue_ resolved y).2.orders)
    (attempt : ℕ) (error : BinanceAPIError) (resolved : Bool) (x : Exchange) :
    NewOnSide StopOrder.side side x.orders
      (afterRejection r req attempt error resolved x continue_).2.orders := by
  unfold afterRejection
  by_cases hconflict : (req.closePosition && hasRealExisting req.existingOrderId &&
      isClosePositionConflictError error) = true
  · rw [if_pos hconflict]
    cases resolved with
    | true => exact NewOnSide.refl x.orders
    | false =>
        have hcancel := @newOnSide_cancelExistingSl side r.cancelConflict x req.existingOrderId
        cases hreply : cancelExistingSl r.cancelConflict x req.existingOrderId with
        | mk confirmed y =>
            rw [hreply] at hcancel
            cases confirmed with
            | error raised => exact hcancel
            | ok confirmed =>
                cases confirmed with
                | true => exact hcancel.trans (hnext true y)
                | false => exact hcancel
  · rw [if_neg hconflict]
    cases classifyError error (r.classify attempt) with
    | none => exact hnext resolved x
    | some classified =>
        cases classified with
        | transient message => exact hnext resolved x
        | other message => exact hnext resolved x
        | wouldImmediatelyTrigger code => exact NewOnSide.refl x.orders
        | positionAlreadyFlat code => exact NewOnSide.refl x.orders

theorem newOnSide_attemptLoop (attempts : List ℕ) (lastError : Option BinanceAPIError)
    (resolved : Bool) (x : Exchange) :
    NewOnSide StopOrder.side side x.orders
      (attemptLoop r req side attempts lastError resolved x).2.orders := by
  induction attempts generalizing lastError resolved x with
  | nil => exact NewOnSide.refl x.orders
  | cons attempt rest ih =>
      have hplaced := @newOnSide_placeStopLoss r side (r.place attempt) x req.newQuantity
        req.newTriggerPrice (attemptClientId req.clientOrderId attempt) req.closePosition
      rw [attemptLoop]
      generalize placeStopLoss r (r.place attempt) x side req.newQuantity req.newTriggerPrice
        (attemptClientId req.clientOrderId attempt) req.closePosition = placed at hplaced ⊢
      obtain ⟨placement, y⟩ := placed
      cases placement with
      | accepted order => exact hplaced
      | raised message => exact hplaced
      | rejected error =>
          have hafter := hplaced.trans (@newOnSide_afterRejection r req side _
            (fun resolved y => ih (some error) resolved y) attempt error resolved y)
          dsimp only
          split
          · cases lookupAlgoByClientId (r.lookup attempt) with
            | error raised => exact hplaced
            | ok recovered =>
                cases recovered with
                | some order => exact hplaced
                | none => exact hafter
          · exact hafter

theorem newOnSide_concludeReplace (ended : Attempts × Exchange) :
    NewOnSide StopOrder.side side ended.2.orders (concludeReplace r req ended).2.orders := by
  obtain ⟨attempts, x⟩ := ended
  cases attempts with
  | raised error => exact NewOnSide.refl x.orders
  | gaveUp lastError => exact NewOnSide.refl x.orders
  | placed order =>
      have hcancel := @newOnSide_cancelExistingSl side r.cancel x req.existingOrderId
      rw [concludeReplace]
      split
      · cases hreply : cancelExistingSl r.cancel x req.existingOrderId with
        | mk confirmed y =>
            rw [hreply] at hcancel
            cases confirmed with
            | error raised => exact hcancel
            | ok confirmed => exact hcancel
      · exact NewOnSide.refl x.orders

end Sides

/-- **The side of a moved stop.**  Every order that the call puts on the book has the resolved
side. -/
theorem cancelAndReplaceSl_sides (r : Replies) (x : Exchange) (req : ReplaceSl) :
    NewOnSide StopOrder.side (resolveStopLossSide r.side) x.orders
      (cancelAndReplaceSl r x req).2.orders := by
  have hattempts : ∀ resolved y, NewOnSide StopOrder.side (resolveStopLossSide r.side) y.orders
      (concludeReplace r req (attemptLoop r req (resolveStopLossSide r.side) [0, 1, 2, 3] none
        resolved y)).2.orders := fun resolved y =>
    (newOnSide_attemptLoop [0, 1, 2, 3] none resolved y).trans (newOnSide_concludeReplace _)
  unfold cancelAndReplaceSl
  by_cases hfirst : (req.closePosition && hasRealExisting req.existingOrderId) = true
  · have hcancel := @newOnSide_cancelExistingSl (resolveStopLossSide r.side) r.cancel x
      req.existingOrderId
    simp only [hfirst]
    cases hreply : cancelExistingSl r.cancel x req.existingOrderId with
    | mk confirmed y =>
        rw [hreply] at hcancel
        cases confirmed with
        | error raised => exact hcancel
        | ok resolved => exact hcancel.trans (hattempts resolved y)
  · simp only [hfirst, Bool.false_eq_true]
    exact hattempts false x

/-- **The side of a moved target.** -/
theorem cancelAndReplaceTp_sides (r : TpReplies) (x : EntryAccount) (req : ReplaceTp) :
    NewOnSide LiveOrder.side (resolveStopLossSide r.side) x.orders
      (cancelAndReplaceTp r x req).2.orders := by
  have hplaced : ∀ y : EntryAccount, NewOnSide LiveOrder.side (resolveStopLossSide r.side)
      y.orders (placeProtective r.place
        (takeProfitOrder r (resolveStopLossSide r.side) req) y).2.orders := by
    intro y
    rw [placeProtective_orders]
    refine newOnSide_landed (fun orderId => ?_) r.place.placedId y.orders
    rfl
  unfold cancelAndReplaceTp
  cases r.cancel with
  | accepted => exact (newOnSide_filter _ x.orders).trans (hplaced _)
  | rejected effective =>
      cases effective with
      | true => exact newOnSide_filter _ x.orders
      | false => exact NewOnSide.refl x.orders
  | raised message effective =>
      cases effective with
      | true => exact newOnSide_filter _ x.orders
      | false => exact NewOnSide.refl x.orders

/-! ## The side of the position -/

/-- A call leaves the book alone, or the orders that it puts there close. -/
def OnlyCloses {α : Type} (sideOf : α → OrderSide) (closing : OrderSide) (before after : List α) :
    Prop :=
  after = before ∨ NewOnSide sideOf closing before after

/-- `get_position` reports a short position. -/
def ReportsShort (reply : PositionReply) : Prop :=
  ∃ live, reply = .snapshot live ∧ live.side = .short

/-- The replacements close an open position on the side, given the answer of `get_position` and
whatever else is asked for and answered. -/
structure ReplacesClosing (positionSide : PositionSide) (reply : PositionReply) : Prop where
  stop : ∀ (r : Replies) (x : Exchange) (req : ReplaceSl), r.side = reply →
    x.positionSide = positionSide →
      OnlyCloses StopOrder.side (PositionContext.closingOrderSide positionSide) x.orders
        (cancelAndReplaceSl r x req).2.orders
  target : ∀ (r : TpReplies) (x : EntryAccount) (req : ReplaceTp), r.side = reply →
    OnlyCloses LiveOrder.side (PositionContext.closingOrderSide positionSide) x.orders
      (cancelAndReplaceTp r x req).2.orders

theorem resolveStopLossSide_closing_iff (positionSide : PositionSide) (reply : PositionReply) :
    resolveStopLossSide reply = PositionContext.closingOrderSide positionSide ↔
      (positionSide = .short ↔ ReportsShort reply) := by
  have hresolved : resolveStopLossSide reply = .buy ↔ ReportsShort reply := by
    unfold ReportsShort resolveStopLossSide
    cases reply with
    | raised => simp
    | noPosition => simp
    | snapshot live => by_cases hshort : live.side = .short <;> simp [hshort]
  rw [← hresolved]
  cases positionSide <;> cases resolveStopLossSide reply <;>
    simp [PositionContext.closingOrderSide]

/-- **When replacements close.**  They do for a long position unless a short one is reported, and
for a short one only if it is reported: an answer that fails, or reports no position, makes the
call place orders that open. -/
theorem replacesClosing_iff (positionSide : PositionSide) (reply : PositionReply) :
    ReplacesClosing positionSide reply ↔ (positionSide = .short ↔ ReportsShort reply) := by
  rw [← resolveStopLossSide_closing_iff]
  constructor
  · intro closes
    -- a move on an empty book that is accepted at once leaves the order that it sent
    have hclosed := closes.stop
      { side := reply, cancel := .accepted, cancelConflict := .accepted,
        place := fun _ => .accepted "1", lookup := fun _ => .notFound,
        classify := fun _ => .raised, exhausted := .raised }
      { positionSide := positionSide, orders := [] }
      { symbol := "", existingOrderId := "", newTriggerPrice := 1, newQuantity := 1,
        clientOrderId := "" } rfl rfl
    rcases hclosed with hsame | hnew
    · exact absurd hsame (List.cons_ne_nil _ _)
    · exact (hnew _ List.mem_cons_self).resolve_left List.not_mem_nil
  · intro hside
    refine ⟨fun r x req hreply _ => .inr ?_, fun r x req hreply => .inr ?_⟩
    · rw [← hside, ← hreply]
      exact cancelAndReplaceSl_sides r x req
    · rw [← hside, ← hreply]
      exact cancelAndReplaceTp_sides r x req

/-- A short position with its stop on the book. -/
def guardedShort : Exchange where
  positionSide := .short
  orders := [{ orderId := "1", clientAlgoId := "sl-1", side := .buy, triggerPrice := 105,
               quantity := 1, closePosition := true }]

def moveDown : ReplaceSl where
  symbol := "BTCUSDT"
  existingOrderId := "1"
  newTriggerPrice := 102
  newQuantity := 1
  clientOrderId := "sl-2"

/-- `get_position` fails, and everything else is accepted. -/
def sideUnknown : Replies where
  side := .raised
  cancel := .accepted
  cancelConflict := .accepted
  place := fun _ => .accepted "2"
  lookup := fun _ => .notFound
  classify := fun _ => .raised
  exhausted := .raised

/-- The stop of a short position is moved while `get_position` fails: it is cancelled, and a sell
order takes its place. -/
theorem movedStop_opensShort :
    ((cancelAndReplaceSl sideUnknown guardedShort moveDown).2.orders.map
        fun o => (o.orderId, o.side)) = [("2", .sell)] ∧
      ¬ReplacesClosing .short .raised := by
  have hafter : (cancelAndReplaceSl sideUnknown guardedShort moveDown).2.orders =
      [stopOrder sideUnknown .sell 1 102 (attemptClientId "sl-2" 0) true "2"] := by
    decide
  refine ⟨by rw [hafter]; rfl, fun closes => ?_⟩
  have hstop := closes.stop sideUnknown guardedShort moveDown rfl rfl
  rcases hstop with hsame | hnew
  · exact absurd hsame (by decide)
  · rcases hnew _ List.mem_cons_self with hold | hside
    · exact absurd hold (by decide)
    · exact absurd hside (by decide)

end BinanceAdapter
end AdviserConstructor
