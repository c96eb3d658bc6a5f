import Mathlib.Data.Rat.Defs
import Mathlib.Algebra.Order.Ring.Rat
import AdviserConstructor.Exchange.BinanceSl

/-!
# The bracket of an entry on Binance

`place_entry_order` of `app/services/exchange/binance_adapter.py` behind its market order: the stop
and the target are placed one after the other, and if one of the two requests fails,
`_rollback_entry` cancels the stop that it knows of and closes the position at market.

An answer says both what the adapter is told and what happened at the exchange, since a request
whose response is lost may have been carried out.  The rollback goes by what the adapter is told: a
stop whose response is lost is not cancelled, a target whose response is lost is not either, and the
cancel goes out before the close, whether or not the close succeeds.

* `account_rolledBack`: what a failed bracket leaves open and on the book;
* `bracketRollback_safe_iff`: this is a flat position without conditional orders, or an open one
  with its stop, exactly if the answers are `Covered`;
* `bracketRollback_naked`: the target is refused, the stop is cancelled and the close fails.

The entry's own identifiers, prices and costs are passed through and left out.
-/

namespace AdviserConstructor

namespace BinanceAdapter

/-! ## The account -/

/-- A conditional order on the book. -/
structure LiveOrder where
  orderId : String
  clientAlgoId : String
  orderType : ConditionalOrderType
  side : OrderSide
  triggerPrice : ℚ
  quantity : ℚ
  deriving DecidableEq, Repr

/-- What is open of the position that the entry opens, and the conditional orders that are live for
it. -/
structure EntryAccount where
  size : ℚ
  orders : List LiveOrder := []
  deriving DecidableEq, Repr

/-- The answer to the order that closes the position, with the quantity it has executed. -/
inductive CloseReply where
  | answered (executed : ℚ)
  | raised (message : String) (executed : ℚ)
  deriving DecidableEq, Repr

/-- The quantity that the close has executed. -/
def CloseReply.executed : CloseReply → ℚ
  | .answered executed | .raised _ executed => executed

/-- The arguments of `place_entry_order`. -/
structure EntryRequest where
  symbol : String
  side : OrderSide
  quantity : ℚ
  clientOrderId : String
  takeProfitPrice : Option ℚ := none
  stopLossPrice : Option ℚ := none
  slClientOrderId : Option String := none
  tpClientOrderId : Option String := none
  deriving DecidableEq, Repr

/-- The answers to the requests of one call, the market order having been answered. -/
structure EntryReplies where
  /-- the quantity that the market order has executed -/
  executed : ℚ
  /-- `filled` in the answer to the market order -/
  filled : Option ℚ
  sl : PlaceReply
  tp : PlaceReply
  cancel : CancelReply
  close : CloseReply
  pricePrecision : ℚ → ℚ := id
  amountPrecision : ℚ → ℚ := id

/-- What a bracket fails with. -/
inductive BracketError where
  | api (error : BinanceAPIError)
  | other (message : String)
  deriving DecidableEq, Repr

/-- `EntryOrderResult`, as far as the bracket goes. -/
structure EntryOrderResult where
  symbol : String
  side : OrderSide
  filledQuantity : ℚ
  attachedSl : Option ConditionalOrderResult := none
  attachedTp : Option ConditionalOrderResult := none
  deriving DecidableEq, Repr

/-- How a call ends: the account, the requests behind the market order, and the result. -/
structure EntryOutcome where
  account : EntryAccount
  calls : List AdapterCall := []
  result : Except BracketError EntryOrderResult

/-! ## The bracket -/

/-- The side of the protective orders. -/
def protectiveSide : OrderSide → OrderSide
  | .buy => .sell
  | .sell => .buy

/-- The order that a protective request asks for, under the id that the exchange gives it. -/
def protectiveOrder (r : EntryReplies) (orderType : ConditionalOrderType) (side : OrderSide)
    (quantity triggerPrice : ℚ) (clientOrderId orderId : String) : LiveOrder where
  orderId := orderId
  clientAlgoId := clientAlgoId clientOrderId
  orderType := orderType
  side := side
  triggerPrice := r.pricePrecision triggerPrice
  quantity := r.amountPrecision quantity

/-- The result that reports a protective order. -/
def LiveOrder.result (order : LiveOrder) : ConditionalOrderResult where
  exchangeOrderId := order.orderId
  clientOrderId := order.clientAlgoId
  orderType := order.orderType
  triggerPrice := order.triggerPrice
  quantity := order.quantity

/-- A protective request: `place_stop_loss` and `place_take_profit` of a bracket. -/
def placeProtective (reply : PlaceReply) (sent : String → LiveOrder) (x : EntryAccount) :
    Except BracketError ConditionalOrderResult × EntryAccount :=
  let x :=
    match reply.placedId with
    | some orderId => { x with orders := x.orders ++ [sent orderId] }
    | none => x
  match reply with
  | .accepted orderId => (.ok (sent orderId).result, x)
  | .rejected error _ => (.error (.api error), x)
  | .raised message _ => (.error (.other message), x)

theorem placeProtective_orders (reply : PlaceReply) (sent : String → LiveOrder)
    (x : EntryAccount) :
    (placeProtective reply sent x).2.orders = x.orders ++ (reply.placedId.map sent).toList := by
  unfold placeProtective
  cases hid : reply.placedId with
  | none => cases reply <;> exact (List.append_nil _).symm
  | some orderId => cases reply <;> rfl

/-- The stop of a bracket, if one is asked for. -/
def attachSl (req : EntryRequest) (r : EntryReplies) (quantity : ℚ) (x : EntryAccount) :
    Except BracketError (Option ConditionalOrderResult) × EntryAccount :=
  match req.stopLossPrice with
  | none => (.ok none, x)
  | some price =>
      let (result, x) := placeProtective r.sl
        (protectiveOrder r .stopLoss (protectiveSide req.side) quantity price
          (req.slClientOrderId.getD (req.clientOrderId ++ "-sl"))) x
      (result.map some, x)

/-- The target of a bracket, if one is asked for. -/
def attachTp (req : EntryRequest) (r : EntryReplies) (quantity : ℚ) (x : EntryAccount) :
    Except BracketError (Option ConditionalOrderResult) × EntryAccount :=
  match req.takeProfitPrice with
  | none => (.ok none, x)
  | some price =>
      let (result, x) := placeProtective r.tp
        (protectiveOrder r .takeProfit (protectiveSide req.side) quantity price
          (req.tpClientOrderId.getD (req.clientOrderId ++ "-tp"))) x
      (result.map some, x)

/-- The id of the stop that the rollback cancels. -/
def stopToCancel (attachedSl : Option ConditionalOrderResult) : Option String :=
  (attachedSl.map ConditionalOrderResult.exchangeOrderId).filter (· ≠ "")

/-- `_rollback_entry`. -/
def rollbackEntry (req : EntryRequest) (r : EntryReplies) (quantity : ℚ)
    (attachedSl : Option ConditionalOrderResult) (x : EntryAccount) :
    EntryAccount × List AdapterCall :=
  let close := AdapterCall.partialClose req.symbol (protectiveSide req.side) quantity
    (req.clientOrderId ++ "-rb") "market" none
  match stopToCancel attachedSl with
  | none => ({ x with size := max 0 (x.size - r.close.executed) }, [close])
  | some orderId =>
      let orders :=
        if r.cancel.effective then x.orders.filter fun o => o.orderId ≠ orderId else x.orders
      ({ size := max 0 (x.size - r.close.executed), orders := orders },
        [.cancelConditionalOrder req.symbol orderId, close])

/-- `place_entry_order`, behind its market order. -/
def placeEntryOrder (req : EntryRequest) (r : EntryReplies) : EntryOutcome :=
  let filledQuantity := r.filled.getD req.quantity
  let opened : EntryAccount := { size := r.executed }
  let result : EntryOrderResult :=
    { symbol := req.symbol, side := req.side, filledQuantity := filledQuantity }
  if req.takeProfitPrice = none ∧ req.stopLossPrice = none then
    { account := opened, result := .ok result }
  else if filledQuantity ≤ 0 then { account := opened, result := .ok result }
  else
    match attachSl req r filledQuantity opened with
    | (.error error, x) =>
        let (x, calls) := rollbackEntry req r filledQuantity none x
        { account := x, calls := calls, result := .error error }
    | (.ok attachedSl, x) =>
        match attachTp req r filledQuantity x with
        | (.error error, x) =>
            let (x, calls) := rollbackEntry req r filledQuantity attachedSl x
            { account := x, calls := calls, result := .error error }
        | (.ok attachedTp, x) =>
            { account := x
              result := .ok { result with attachedSl := attachedSl, attachedTp := attachedTp } }

/-! ## What a failed bracket leaves -/

/-- The position is flat and no conditional order is left for it, or it is open and has its stop. -/
def EntryAccount.Safe (x : EntryAccount) : Prop :=
  (x.size = 0 ∧ x.orders = []) ∨ (x.size ≠ 0 ∧ ∃ o ∈ x.orders, o.orderType = .stopLoss)

instance (x : EntryAccount) : Decidable x.Safe := by
  unfold EntryAccount.Safe
  infer_instance

/-- The id of the stop that the rollback takes off the book: it is on record, and the cancel has an
effect. -/
def cancelledStop (req : EntryRequest) (r : EntryReplies) : Option String :=
  match req.stopLossPrice, r.sl with
  | some _, .accepted orderId =>
      if orderId ≠ "" ∧ r.cancel.effective = true then some orderId else none
  | _, _ => none

def StopLeft (req : EntryRequest) (r : EntryReplies) : Prop :=
  req.stopLossPrice ≠ none ∧ ∃ orderId ∈ r.sl.placedId, cancelledStop req r ≠ some orderId

/-- The bracket gets to its target: the stop is not asked for, or accepted. -/
def TargetSent (req : EntryRequest) (r : EntryReplies) : Prop :=
  req.takeProfitPrice ≠ none ∧ (req.stopLossPrice = none ∨ ∃ orderId, r.sl = .accepted orderId)

def TargetLeft (req : EntryRequest) (r : EntryReplies) : Prop :=
  TargetSent req r ∧ ∃ orderId ∈ r.tp.placedId, cancelledStop req r ≠ some orderId

/-- The answers cover the position: a close that executes all of it goes with a book from which both
orders are gone, and one that does not with a stop that stays. -/
def Covered (req : EntryRequest) (r : EntryReplies) : Prop :=
  (r.executed ≤ r.close.executed ∧ ¬StopLeft req r ∧ ¬TargetLeft req r) ∨
    (r.close.executed < r.executed ∧ StopLeft req r)

section Rollback

variable {req : EntryRequest} {r : EntryReplies} {x : EntryAccount}

theorem placeProtective_spec {reply : PlaceReply} {sent : String → LiveOrder} :
    (placeProtective reply sent x).2.size = x.size ∧
      ∀ o, o ∈ (placeProtective reply sent x).2.orders ↔
        o ∈ x.orders ∨ ∃ orderId ∈ reply.placedId, o = sent orderId := by
  refine ⟨?_, fun o => ?_⟩
  · cases reply with
    | accepted orderId => rfl
    | rejected error landed => cases landed <;> rfl
    | raised message landed => cases landed <;> rfl
  · rw [placeProtective_orders, List.mem_append, Option.mem_toList, Option.map_eq_some_iff]
    simp only [Option.mem_def, eq_comm]

theorem rollbackEntry_spec {quantity : ℚ} {attachedSl : Option ConditionalOrderResult} :
    (rollbackEntry req r quantity attachedSl x).1.size = max 0 (x.size - r.close.executed) ∧
      ∀ o, o ∈ (rollbackEntry req r quantity attachedSl x).1.orders ↔
        o ∈ x.orders ∧
          ¬(stopToCancel attachedSl = some o.orderId ∧ r.cancel.effective = true) := by
  cases hstop : stopToCancel attachedSl with
  | none =>
    simp only [rollbackEntry, hstop]
    exact ⟨trivial, by simp⟩
  | some orderId =>
    simp only [rollbackEntry, hstop]
    refine ⟨trivial, fun o => ?_⟩
    by_cases heffective : r.cancel.effective = true
    · rw [if_pos heffective, List.mem_filter, decide_eq_true_eq]
      simp only [Option.some.injEq, heffective, and_true, ne_eq, eq_comm]
    · simp [heffective]

/-- The stop of the bracket, under its id. -/
def stopOf (req : EntryRequest) (r : EntryReplies) (orderId : String) : LiveOrder :=
  protectiveOrder r .stopLoss (protectiveSide req.side) (r.filled.getD req.quantity)
    (req.stopLossPrice.getD 0) (req.slClientOrderId.getD (req.clientOrderId ++ "-sl")) orderId

/-- The target of the bracket, under its id. -/
def targetOf (req : EntryRequest) (r : EntryReplies) (orderId : String) : LiveOrder :=
  protectiveOrder r .takeProfit (protectiveSide req.side) (r.filled.getD req.quantity)
    (req.takeProfitPrice.getD 0) (req.tpClientOrderId.getD (req.clientOrderId ++ "-tp")) orderId

/-- What the requests of the bracket have put on the book. -/
def Booked (req : EntryRequest) (r : EntryReplies) (o : LiveOrder) : Prop :=
  (req.stopLossPrice ≠ none ∧ ∃ orderId ∈ r.sl.placedId, o = stopOf req r orderId) ∨
    (TargetSent req r ∧ ∃ orderId ∈ r.tp.placedId, o = targetOf req r orderId)

theorem attachSl_spec :
    (attachSl req r (r.filled.getD req.quantity) x).2.size = x.size ∧
      (∀ o, o ∈ (attachSl req r (r.filled.getD req.quantity) x).2.orders ↔
        o ∈ x.orders ∨
          (req.stopLossPrice ≠ none ∧ ∃ orderId ∈ r.sl.placedId, o = stopOf req r orderId)) ∧
      ∀ a, (attachSl req r (r.filled.getD req.quantity) x).1 = .ok a ↔
        (req.stopLossPrice = none ∧ a = none) ∨
          (req.stopLossPrice ≠ none ∧
            ∃ orderId, r.sl = .accepted orderId ∧ a = some (stopOf req r orderId).result) := by
  cases hprice : req.stopLossPrice with
  | none => simp [attachSl, hprice, eq_comm]
  | some price =>
    simp only [attachSl, hprice]
    have hsent : protectiveOrder r .stopLoss (protectiveSide req.side) (r.filled.getD req.quantity)
        price (req.slClientOrderId.getD (req.clientOrderId ++ "-sl")) = stopOf req r := by
      funext orderId
      simp only [stopOf, hprice, Option.getD_some]
    rw [hsent]
    refine ⟨placeProtective_spec.1, fun o => ?_, fun a => ?_⟩
    · rw [placeProtective_spec.2]
      simp
    · cases hsl : r.sl <;> simp [placeProtective, Except.map, eq_comm]

theorem attachTp_spec :
    (attachTp req r (r.filled.getD req.quantity) x).2.size = x.size ∧
      (∀ o, o ∈ (attachTp req r (r.filled.getD req.quantity) x).2.orders ↔
        o ∈ x.orders ∨
          (req.takeProfitPrice ≠ none ∧ ∃ orderId ∈ r.tp.placedId, o = targetOf req r orderId)) ∧
      ∀ error, (attachTp req r (r.filled.getD req.quantity) x).1 = .error error →
        req.takeProfitPrice ≠ none := by
  cases hprice : req.takeProfitPrice with
  | none => simp [attachTp, hprice]
  | some price =>
    simp only [attachTp, hprice]
    have hsent : protectiveOrder r .takeProfit (protectiveSide req.side)
        (r.filled.getD req.quantity) price
        (req.tpClientOrderId.getD (req.clientOrderId ++ "-tp")) = targetOf req r := by
      funext orderId
      simp only [targetOf, hprice, Option.getD_some]
    rw [hsent]
    refine ⟨placeProtective_spec.1, fun o => ?_, fun _ _ => by simp⟩
    rw [placeProtective_spec.2]
    simp

theorem cancelledStop_of_attached {attachedSl : Option ConditionalOrderResult}
    (h : (req.stopLossPrice = none ∧ attachedSl = none) ∨
      (req.stopLossPrice ≠ none ∧
        ∃ orderId, r.sl = .accepted orderId ∧ attachedSl = some (stopOf req r orderId).result))
    (id : String) :
    cancelledStop req r = some id ↔
      stopToCancel attachedSl = some id ∧ r.cancel.effective = true := by
  rcases h with ⟨hprice, rfl⟩ | ⟨hprice, orderId, hsl, rfl⟩
  · simp [cancelledStop, hprice, stopToCancel]
  · obtain ⟨price, hprice⟩ := Option.ne_none_iff_exists'.mp hprice
    have hid : (stopOf req r orderId).result.exchangeOrderId = orderId := rfl
    simp only [cancelledStop, hprice, hsl, stopToCancel, Option.map_some, hid]
    by_cases hempty : orderId = ""
    · simp [hempty]
    · by_cases heffective : r.cancel.effective = true
      · simp only [ne_eq, hempty, not_false_eq_true, heffective, if_true, Option.filter_some,
          decide_true, and_true]
      · simp [heffective]

theorem placeEntryOrder_cases {error : BracketError}
    (h : (placeEntryOrder req r).result = .error error) :
    ∃ attachedSl x, (placeEntryOrder req r).account =
        (rollbackEntry req r (r.filled.getD req.quantity) attachedSl x).1 ∧
      x.size = r.executed ∧ (∀ o, o ∈ x.orders ↔ Booked req r o) ∧
      ∀ id, cancelledStop req r = some id ↔
        stopToCancel attachedSl = some id ∧ r.cancel.effective = true := by
  obtain ⟨hslSize, hslOrders, hslOk⟩ := @attachSl_spec req r { size := r.executed }
  rw [placeEntryOrder] at h ⊢
  by_cases hbare : req.takeProfitPrice = none ∧ req.stopLossPrice = none
  · rw [if_pos hbare] at h
    cases h
  rw [if_neg hbare] at h ⊢
  by_cases hfilled : r.filled.getD req.quantity ≤ 0
  · rw [if_pos hfilled] at h
    cases h
  rw [if_neg hfilled] at h ⊢
  rcases hattach : attachSl req r (r.filled.getD req.quantity) { size := r.executed } with
    ⟨result, x⟩
  rw [hattach] at hslSize hslOrders hslOk
  simp only [hattach] at h ⊢
  cases result with
  | error slError =>
    -- the stop was asked for and not accepted, and nothing is cancelled
    have hprice : req.stopLossPrice ≠ none := fun hnone => by
      have := (hslOk none).mpr (.inl ⟨hnone, rfl⟩)
      cases this
    have hrefused : ∀ orderId, r.sl ≠ .accepted orderId := fun orderId hsl => by
      have := (hslOk _).mpr (.inr ⟨hprice, orderId, hsl, rfl⟩)
      cases this
    refine ⟨none, x, rfl, hslSize, fun o => ?_, fun id => ?_⟩
    · rw [hslOrders, Booked]
      have hsent : ¬TargetSent req r := by
        rintro ⟨-, hnone | ⟨orderId, hsl⟩⟩
        · exact hprice hnone
        · exact hrefused orderId hsl
      simp [hsent]
    · have hnone : cancelledStop req r = none := by
        rw [cancelledStop]
        split
        · rename_i orderId _ hsl
          exact absurd hsl (hrefused orderId)
        · rfl
      simp [hnone, stopToCancel]
  | ok attachedSl =>
    have hattached := (hslOk attachedSl).mp rfl
    obtain ⟨htpSize, htpOrders, htpError⟩ := @attachTp_spec req r x
    rcases htarget : attachTp req r (r.filled.getD req.quantity) x with ⟨result, y⟩
    rw [htarget] at htpSize htpOrders htpError
    simp only [htarget] at h ⊢
    cases result with
    | ok attachedTp => exact absurd h (by simp)
    | error tpError =>
      have hprice := htpError tpError rfl
      have hsent : TargetSent req r := by
        refine ⟨hprice, ?_⟩
        rcases hattached with ⟨hnone, -⟩ | ⟨-, orderId, hsl, -⟩
        · exact .inl hnone
        · exact .inr ⟨orderId, hsl⟩
      refine ⟨attachedSl, y, rfl, htpSize.trans hslSize, fun o => ?_,
        cancelledStop_of_attached hattached⟩
      rw [htpOrders, hslOrders, Booked]
      simp [hprice, hsent]

/-- **A failed bracket is rolled back** from a book with what its requests have put there, and the
stop that is taken off is the one that was accepted. -/
theorem account_rolledBack {error : BracketError}
    (h : (placeEntryOrder req r).result = .error error) :
    (placeEntryOrder req r).account.size = max 0 (r.executed - r.close.executed) ∧
      ∀ o, o ∈ (placeEntryOrder req r).account.orders ↔
        Booked req r o ∧ cancelledStop req r ≠ some o.orderId := by
  obtain ⟨attachedSl, x, haccount, hsize, horders, hcancelled⟩ := placeEntryOrder_cases h
  rw [haccount]
  refine ⟨?_, fun o => ?_⟩
  · rw [← hsize]
    exact rollbackEntry_spec.1
  · rw [rollbackEntry_spec.2, horders, ← hcancelled]

/-- **The rollback is safe** exactly if the answers cover the position: it is flat and its orders
are gone, or it is open and its stop is still there. -/
theorem bracketRollback_safe_iff (req : EntryRequest) (r : EntryReplies)
    (hfailed : ∃ error, (placeEntryOrder req r).result = .error error) :
    (placeEntryOrder req r).account.Safe ↔ Covered req r := by
  obtain ⟨error, herror⟩ := hfailed
  obtain ⟨hsize, horders⟩ := account_rolledBack herror
  have hflat : (placeEntryOrder req r).account.size = 0 ↔ r.executed ≤ r.close.executed := by
    rw [hsize, max_eq_left_iff, sub_nonpos]
  have hstop : (∃ o ∈ (placeEntryOrder req r).account.orders, o.orderType = .stopLoss) ↔
      StopLeft req r := by
    constructor
    · rintro ⟨o, ho, htype⟩
      obtain ⟨⟨hprice, orderId, hplaced, rfl⟩ | ⟨-, orderId, -, rfl⟩, hkept⟩ := (horders o).mp ho
      · exact ⟨hprice, orderId, hplaced, hkept⟩
      · exact absurd htype (by simp [targetOf, protectiveOrder])
    · rintro ⟨hprice, orderId, hplaced, hkept⟩
      exact ⟨stopOf req r orderId, (horders _).mpr ⟨.inl ⟨hprice, orderId, hplaced, rfl⟩, hkept⟩,
        rfl⟩
  have hempty : (placeEntryOrder req r).account.orders = [] ↔
      ¬StopLeft req r ∧ ¬TargetLeft req r := by
    rw [List.eq_nil_iff_forall_not_mem]
    constructor
    · refine fun hnone => ⟨?_, ?_⟩
      · rintro ⟨hprice, orderId, hplaced, hkept⟩
        exact hnone _ ((horders (stopOf req r orderId)).mpr
          ⟨.inl ⟨hprice, orderId, hplaced, rfl⟩, hkept⟩)
      · rintro ⟨hsent, orderId, hplaced, hkept⟩
        exact hnone _ ((horders (targetOf req r orderId)).mpr
          ⟨.inr ⟨hsent, orderId, hplaced, rfl⟩, hkept⟩)
    · rintro ⟨hstopGone, htargetGone⟩ o ho
      obtain ⟨⟨hprice, orderId, hplaced, rfl⟩ | ⟨hsent, orderId, hplaced, rfl⟩, hkept⟩ :=
        (horders o).mp ho
      · exact hstopGone ⟨hprice, orderId, hplaced, hkept⟩
      · exact htargetGone ⟨hsent, orderId, hplaced, hkept⟩
  rw [EntryAccount.Safe, hempty, ne_eq, hflat, hstop, not_le]
  exact Iff.rfl

end Rollback

/-! ## Two brackets that fail at the target -/

/-- A long entry of one coin with a stop and a target. -/
def bracketed : EntryRequest where
  symbol := "BTC/USDT:USDT"
  side := .buy
  quantity := 1
  clientOrderId := "e"
  takeProfitPrice := some 110
  stopLossPrice := some 95

/-- The target is refused, and the stop is cancelled. -/
def targetRefused (close : CloseReply) : EntryReplies where
  executed := 1
  filled := some 1
  sl := .accepted "7"
  tp := .rejected ⟨400, some (-1234), "TP rejected"⟩ none
  cancel := .accepted
  close := close

/-- The target is refused and the close goes through. -/
theorem bracketRollback_safe_closed :
    (∃ error, (placeEntryOrder bracketed (targetRefused (.answered 1))).result = .error error) ∧
      (placeEntryOrder bracketed (targetRefused (.answered 1))).account.Safe := by
  have hfailed : ∃ error,
      (placeEntryOrder bracketed (targetRefused (.answered 1))).result = .error error := ⟨_, rfl⟩
  refine ⟨hfailed, (bracketRollback_safe_iff _ _ hfailed).mpr (.inl ⟨?_, ?_, ?_⟩)⟩
  · exact le_refl _
  · rintro ⟨-, orderId, hplaced, hkept⟩
    obtain rfl := Option.some.inj hplaced
    exact hkept rfl
  · rintro ⟨-, orderId, hplaced, -⟩
    exact absurd hplaced (by simp [targetRefused, PlaceReply.placedId])

/-- The target is refused, the stop is cancelled, and the close fails: the position is open without
a stop. -/
theorem bracketRollback_naked :
    ¬∀ (req : EntryRequest) (r : EntryReplies), 0 < r.executed →
      (∃ error, (placeEntryOrder req r).result = .error error) →
        (placeEntryOrder req r).account.Safe := by
  intro hall
  have hsafe := hall bracketed (targetRefused (.raised "timed out" 0)) (by decide +kernel) ⟨_, rfl⟩
  revert hsafe
  decide +kernel

end BinanceAdapter

end AdviserConstructor
