import AdviserConstructor.Position.Context

/-!
# Order events and the levels they belong to

How `app/services/ws/manager.py` tells what an order event is about: the fill, stop-loss and
take-profit predicates, and the three ways of finding the take-profit level of a fill, by order
id, by price, and by the quantity by which the position shrank.

* `closestOpenTpLevelByQty_spec`: the level that a quantity is matched to is open and within the
  tolerance.
-/

namespace AdviserConstructor

/-- An order event with its fields as the handlers read them: ids stripped, words stripped and
in lower case, numbers that do not parse `0`. -/
structure OrderEvent where
  orderId : String := ""
  clientOrderId : String := ""
  orderType : String := ""
  status : String := ""
  executionType : String := ""
  isAlgo : Bool := false
  reduceOnly : Bool := false
  closePosition : Bool := false
  closeOnTrigger : Bool := false
  lastFilledQuantity : ℚ := 0
  filledQuantity : ℚ := 0
  quantity : ℚ := 0
  orderQuantity : ℚ := 0
  averagePrice : ℚ := 0
  lastFillPrice : ℚ := 0
  price : ℚ := 0
  triggerPrice : ℚ := 0
  markPrice : ℚ := 0
  lastPrice : ℚ := 0
  deriving DecidableEq, Repr

namespace OrderEvent

/-- The first positive number of a list, `0` when there is none. -/
def firstPositive (values : List ℚ) : ℚ := (values.find? fun value => 0 < value).getD 0

/-- `_extract_event_price`. -/
def extractEventPrice (event : OrderEvent) : ℚ :=
  firstPositive [event.price, event.triggerPrice, event.markPrice, event.lastPrice]

/-- `_resolve_filled_quantity`. -/
def resolveFilledQuantity (event : OrderEvent) (fallback : ℚ) : ℚ :=
  match [event.filledQuantity, event.lastFilledQuantity, event.quantity,
      event.orderQuantity].find? fun value => 0 < value with
  | some value => value
  | none => max fallback 0

/-- `_resolve_fill_price`. -/
def resolveFillPrice (event : OrderEvent) (fallback : ℚ) : ℚ :=
  match [event.averagePrice, event.lastFillPrice, event.price, event.triggerPrice,
      event.markPrice].find? fun value => 0 < value with
  | some value => value
  | none => max fallback 0

/-- `_is_conditional_order_event`. -/
def isConditionalOrderEvent (event : OrderEvent) : Bool :=
  event.orderType ∈ ["stop_loss", "take_profit", "trailing_stop"] || event.isAlgo

/-- `_is_reduce_only_event`. -/
def isReduceOnlyEvent (event : OrderEvent) : Bool :=
  event.reduceOnly || event.closePosition || event.closeOnTrigger

/-- `_is_fill_event`. -/
def isFillEvent (event : OrderEvent) : Bool :=
  event.status ∈ ["filled", "triggered"] || event.executionType ∈ ["trade", "filled"] ||
    0 < event.lastFilledQuantity || 0 < event.filledQuantity

/-- `_event_order_identifier`. -/
def orderIdentifier (event : OrderEvent) : String :=
  if event.orderId ≠ "" then event.orderId else event.clientOrderId

def ids (event : OrderEvent) : List String :=
  [event.orderId, event.clientOrderId].filter (· ≠ "")

end OrderEvent

namespace PositionContext

/-! ## What the event is -/

/-- The event carries the exchange id of the level. -/
def carries (event : OrderEvent) (level : TPLevel) : Bool :=
  match level.exchangeOrderId with
  | some id => id ≠ "" && id ∈ event.ids
  | none => false

/-- `_is_sl_trigger_event`. -/
def isSlTriggerEvent (position : PositionContext) (event : OrderEvent) : Bool :=
  event.isFillEvent &&
    (event.orderType ∈ ["stop_loss", "trailing_stop"] ||
      match position.slExchangeOrderId with
      | some id => event.orderIdentifier ≠ "" && id ≠ "" && event.orderIdentifier = id
      | none => false)

/-- `_is_tp_trigger_event`. -/
def isTpTriggerEvent (position : PositionContext) (event : OrderEvent) : Bool :=
  event.isFillEvent &&
    (event.orderType = "take_profit" || position.tpLevels.any (carries event))

/-! ## Which level it belongs to -/

/-- The relative tolerance of price matching, `MULTI_TP_MATCH_TOLERANCE_PCT`. -/
def multiTpMatchTolerancePct : ℚ := 1 / 200

/-- The least tolerance of price matching, `MULTI_TP_MIN_DELTA`. -/
def multiTpMinDelta : ℚ := 1 / 10000

/-- The tolerance of quantity matching, `PARTIAL_CLOSE_QTY_TOLERANCE_PCT`. -/
def partialCloseQtyTolerancePct : ℚ := 1 / 200

/-- The tolerance around the price of a level. -/
def priceTolerance (level : TPLevel) : ℚ :=
  max (|level.triggerPrice| * multiTpMatchTolerancePct) multiTpMinDelta

/-- One turn of the search: an entry replaces the best one so far if it is strictly closer. -/
def closer (distance : TPLevel → Option ℚ) (best : Option (ℕ × ℚ)) (entry : TPLevel × ℕ) :
    Option (ℕ × ℚ) :=
  match distance entry.1, best with
  | none, best => best
  | some d, none => some (entry.2, d)
  | some d, some (index, least) => if d < least then some (entry.2, d) else some (index, least)

/-- The index of the level with the least distance among those that `distance` gives one to; the
first one wins a tie. -/
def closestLevel (distance : TPLevel → Option ℚ) (levels : List TPLevel) : Option ℕ :=
  (levels.zipIdx.foldl (closer distance) none).map Prod.fst

/-- What the search holds behind some levels: nothing if none of them has a distance, and else the
first of those with the least one. -/
def Searched (distance : TPLevel → Option ℚ) (levels : List TPLevel) : Option (ℕ × ℚ) → Prop
  | none => ∀ level ∈ levels, distance level = none
  | some (index, least) =>
      (∃ level, levels[index]? = some level ∧ distance level = some least) ∧
        ∀ (j : ℕ) level d, levels[j]? = some level → distance level = some d →
          least < d ∨ least = d ∧ index ≤ j

variable {distance : TPLevel → Option ℚ}

theorem searched_closer {levels : List TPLevel} {best : Option (ℕ × ℚ)}
    (h : Searched distance levels best) (last : TPLevel) :
    Searched distance (levels ++ [last]) (closer distance best (last, levels.length)) := by
  have hlast : (levels ++ [last])[levels.length]? = some last := List.getElem?_concat_length
  have hsplit : ∀ {j : ℕ} {level : TPLevel}, (levels ++ [last])[j]? = some level →
      levels[j]? = some level ∨ j = levels.length ∧ level = last := by
    intro j level hj
    by_cases hlt : j < levels.length
    · rw [List.getElem?_append_left hlt] at hj
      exact Or.inl hj
    · rw [List.getElem?_append_right (Nat.le_of_not_lt hlt), List.getElem?_singleton] at hj
      split at hj
      · next hzero => exact Or.inr ⟨by omega, (Option.some.inj hj).symm⟩
      · cases hj
  have hkept : ∀ {j : ℕ} {level : TPLevel}, levels[j]? = some level →
      j < levels.length ∧ (levels ++ [last])[j]? = some level := by
    intro j level hj
    have hlt := (List.getElem?_eq_some_iff.mp hj).1
    exact ⟨hlt, by rw [List.getElem?_append_left hlt, hj]⟩
  unfold closer
  cases hd : distance last with
  | none =>
    -- the last level has no distance, and what is held stays held
    cases best with
    | none =>
      intro level hlevel
      rcases List.mem_append.mp hlevel with hold | hnew
      · exact h level hold
      · exact List.mem_singleton.mp hnew ▸ hd
    | some held =>
      obtain ⟨⟨level, hlevel, hdistance⟩, hleast⟩ := h
      refine ⟨⟨level, (hkept hlevel).2, hdistance⟩, fun j other d hj hother => ?_⟩
      rcases hsplit hj with hold | ⟨-, rfl⟩
      · exact hleast j other d hold hother
      · exact absurd (hd.symm.trans hother) (by simp)
  | some d =>
    cases best with
    | none =>
      refine ⟨⟨last, hlast, hd⟩, fun j other d' hj hother => ?_⟩
      rcases hsplit hj with hold | ⟨rfl, rfl⟩
      · exact absurd ((h other (List.mem_of_getElem? hold)).symm.trans hother) (by simp)
      · exact Or.inr ⟨Option.some.inj (hd.symm.trans hother), le_refl _⟩
    | some held =>
      obtain ⟨⟨level, hlevel, hdistance⟩, hleast⟩ := h
      dsimp only
      split
      case isTrue hless =>
        refine ⟨⟨last, hlast, hd⟩, fun j other d' hj hother => ?_⟩
        rcases hsplit hj with hold | ⟨rfl, rfl⟩
        · rcases hleast j other d' hold hother with hlt | ⟨heq, -⟩
          · exact Or.inl (hless.trans hlt)
          · exact Or.inl (heq ▸ hless)
        · exact Or.inr ⟨Option.some.inj (hd.symm.trans hother), le_refl _⟩
      case isFalse hnot =>
        refine ⟨⟨level, (hkept hlevel).2, hdistance⟩, fun j other d' hj hother => ?_⟩
        rcases hsplit hj with hold | ⟨rfl, rfl⟩
        · exact hleast j other d' hold hother
        · obtain rfl := Option.some.inj (hd.symm.trans hother)
          rcases (not_lt.mp hnot).lt_or_eq with hlt | heq
          · exact Or.inl hlt
          · exact Or.inr ⟨heq, (hkept hlevel).1.le⟩

theorem searched_foldl (distance : TPLevel → Option ℚ) (levels : List TPLevel) :
    Searched distance levels (levels.zipIdx.foldl (closer distance) none) := by
  induction levels using List.reverseRecOn with
  | nil => exact fun _ hlevel => absurd hlevel List.not_mem_nil
  | append_singleton levels last ih =>
    rw [List.zipIdx_append, List.foldl_append]
    simp only [List.zipIdx_singleton, List.foldl_cons, Nat.zero_add]
    exact searched_closer ih last

theorem closestLevel_spec {levels : List TPLevel} {i : ℕ}
    (h : closestLevel distance levels = some i) :
    ∃ level d, levels[i]? = some level ∧ distance level = some d ∧
      ∀ (j : ℕ) other d', levels[j]? = some other → distance other = some d' →
        d < d' ∨ d = d' ∧ i ≤ j := by
  obtain ⟨⟨index, least⟩, hbest, rfl⟩ := Option.map_eq_some_iff.mp h
  have hsearched := searched_foldl distance levels
  rw [hbest] at hsearched
  obtain ⟨⟨level, hlevel, hdistance⟩, hleast⟩ := hsearched
  exact ⟨level, least, hlevel, hdistance, hleast⟩

theorem closestLevel_ne_none {levels : List TPLevel} {i : ℕ} {level : TPLevel} {d : ℚ}
    (hlevel : levels[i]? = some level) (hdistance : distance level = some d) :
    closestLevel distance levels ≠ none := by
  intro hnone
  have hsearched := searched_foldl distance levels
  rw [Option.map_eq_none_iff.mp hnone] at hsearched
  exact absurd (hdistance.symm.trans (hsearched level (List.mem_of_getElem? hlevel))) (by simp)

/-- `_closest_open_tp_level_index`. -/
def closestOpenTpLevelIndex (position : PositionContext) (eventPrice : ℚ) : Option ℕ :=
  if eventPrice ≤ 0 then none
  else
    closestLevel
      (fun level =>
        if level.status = .triggered ∨ level.triggerPrice ≤ 0 ∨
            priceTolerance level < |level.triggerPrice - eventPrice| then none
        else some |level.triggerPrice - eventPrice|)
      position.tpLevels

/-- `_match_tp_level`. -/
def matchTpLevel (position : PositionContext) (event : OrderEvent) : Option ℕ :=
  if event.ids ≠ [] then
    position.tpLevels.findIdx? fun level => level.status ≠ .triggered && carries event level
  else
    match position.closestOpenTpLevelIndex
      (if 0 < event.triggerPrice then event.triggerPrice else 0) with
    | some index => some index
    | none => position.closestOpenTpLevelIndex event.extractEventPrice

/-- `_event_matches_triggered_level`. -/
def eventMatchesTriggeredLevel (position : PositionContext) (event : OrderEvent) : Bool :=
  position.tpLevels.any fun level => level.status = .triggered && carries event level

/-- The distance of a shrink from the quantity that an open level closes, if it is tolerable. -/
def quantityDistance (position : PositionContext) (deltaQty : ℚ) (level : TPLevel) : Option ℚ :=
  let expected := position.originalQuantity * (level.closePct / 100)
  if level.status = .triggered ∨ expected ≤ 0 ∨
      partialCloseQtyTolerancePct < |deltaQty - expected| / expected then none
  else some (|deltaQty - expected| / expected)

/-- `_closest_open_tp_level_by_qty`. -/
def closestOpenTpLevelByQty (position : PositionContext) (deltaQty : ℚ) : Option ℕ :=
  if deltaQty ≤ 0 ∨ position.originalQuantity ≤ 0 then none
  else closestLevel (position.quantityDistance deltaQty) position.tpLevels

/-- **The level that a quantity is matched to** is not triggered, and the quantity is within the
tolerance of what it closes. -/
theorem closestOpenTpLevelByQty_spec {position : PositionContext} {deltaQty : ℚ} {i : ℕ}
    (h : position.closestOpenTpLevelByQty deltaQty = some i) :
    ∃ level, position.tpLevels[i]? = some level ∧ level.status ≠ .triggered ∧
      |deltaQty - position.originalQuantity * (level.closePct / 100)| ≤
        partialCloseQtyTolerancePct * (position.originalQuantity * (level.closePct / 100)) := by
  unfold closestOpenTpLevelByQty at h
  split at h
  · cases h
  · obtain ⟨level, d, hlevel, hdistance, -⟩ := closestLevel_spec h
    unfold quantityDistance at hdistance
    dsimp only at hdistance
    split at hdistance
    · cases hdistance
    · next hnot =>
      simp only [not_or, not_le, not_lt] at hnot
      obtain ⟨hopen, hpositive, htolerance⟩ := hnot
      exact ⟨level, hlevel, hopen, (div_le_iff₀ hpositive).mp htolerance⟩

end PositionContext
end AdviserConstructor
