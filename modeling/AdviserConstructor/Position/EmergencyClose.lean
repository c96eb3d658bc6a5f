import AdviserConstructor.Position.OrderQueue
import AdviserConstructor.Position.Producers

/-!
# What an emergency close acts on

The `emergency_market_close` branch of `_execute_task` in
`app/services/position/order_queue.py`, with everything that its variable `raw_live` can hold:
the replies that the signature of `get_position` allows, the `None` that stands in for an
exception, and an object of some other type, which the branch takes for "unknown".

The branch should skip the close only when the exchange has said that there is nothing to
close, or when nobody knows of a quantity.

* `executeEmergencyClose_eq`: the queue's branch is this one, at the replies of the signature.
* `skipped_iff`: when the branch skips, read off its inputs.
* `partialClose_quantity`: what it sends is what was asked for, cut to what is live.
* `actsOnWhatIsKnown_iff`: it acts on what is known, unless the lookup raised while the
  parameters carried a positive quantity.  The log line of that case promises to fall back to
  the parameters, but the exception leaves the same `None` behind as a flat position.
-/

namespace AdviserConstructor

open TaskParams

/-! ## The branch -/

/-- The quantity to close: what was asked for, cut to what is live, and all that is live when
nothing was asked for. -/
def emergencyQuantity (requested : ℚ) (liveSize : Option ℚ) : ℚ :=
  if requested ≤ 0 then liveSize.getD 0
  else
    match liveSize with
    | some live => min requested live
    | none => requested

/-- The emergency branch of `_execute_task`. -/
def emergencyMarketClose (params : TaskParams) (raw : RawLive) (defaultId : String) :
    Except TaskError (Option AdapterCall) := do
  let symbol ← requireStr params "symbol"
  if raw.isNone then
    return none
  if raw.liveSize.any (· ≤ emergencyCloseDustEpsilon) then
    return none
  let requested ← resolveEmergencyQuantity params
  if requested ≤ 0 ∧ raw.liveSize = none then
    return none
  let side ← requireSide params "side"
  let clientOrderId ← requireStr params "client_order_id" (.str defaultId)
  return some (.partialClose symbol side (emergencyQuantity requested raw.liveSize) clientOrderId
    "market" none)

/-- **The branch of the queue is this one**, at the replies that the signature allows. -/
theorem executeEmergencyClose_eq (params : TaskParams) (live : PositionReply)
    (defaultId : String) :
    executeEmergencyClose params live defaultId =
      emergencyMarketClose params (.reply live) defaultId := by
  unfold executeEmergencyClose emergencyMarketClose
  cases hsymbol : requireStr params "symbol" with
  | error error => rfl
  | ok symbol =>
      cases live with
      | raised => rfl
      | noPosition => rfl
      | snapshot live =>
          by_cases hdust : |live.size| ≤ emergencyCloseDustEpsilon
          · simp [RawLive.liveSize, hdust, bind, Except.bind]
          · cases hrequested : resolveEmergencyQuantity params with
            | error error =>
                simp [RawLive.isNone, RawLive.liveSize, bind, Except.bind]
            | ok requested =>
                simp only [RawLive.isNone, RawLive.liveSize, bind, hdust, Bool.false_eq_true,
                  if_false, Option.any_some, decide_false, reduceCtorEq, and_false,
                  emergencyQuantity, Option.getD_some]

/-! ## Quantities -/

theorem firstPositive_pos_iff {params : TaskParams} {keys : List String} {requested : ℚ}
    (h : params.firstPositive keys = .ok requested) :
    0 < requested ↔
      (keys.any fun key =>
        match (params.lookup key).toFloat? with
        | some x => decide (0 < x)
        | none => false) = true := by
  induction keys with
  | nil =>
      rw [firstPositive, Except.ok.injEq] at h
      simp [← h]
  | cons key keys ih =>
      rw [firstPositive] at h
      rw [List.any_cons]
      cases hvalue : (params.lookup key).toFloat? with
      | none =>
          cases hkey : params.lookup key with
          | none =>
              rw [hkey] at h
              rw [ih h, Bool.false_or]
          | _ => simp only [hkey] at h hvalue; rw [hvalue] at h; cases h
      | some x =>
          have hnext : (if 0 < x then Except.ok x else params.firstPositive keys) =
              .ok requested := by
            cases hkey : params.lookup key with
            | none => rw [hkey] at hvalue; cases hvalue
            | _ => simp only [hkey] at h hvalue; rw [hvalue] at h; exact h
          by_cases hpos : 0 < x
          · rw [if_pos hpos, Except.ok.injEq] at hnext
            simp [← hnext, hpos]
          · rw [if_neg hpos] at hnext
            simp [ih hnext, hpos]

/-- A positive number stands under one of the three keys exactly when the resolved quantity is
positive, where the quantity can be resolved. -/
theorem resolveEmergencyQuantity_pos_iff {params : TaskParams} {requested : ℚ}
    (h : resolveEmergencyQuantity params = .ok requested) :
    0 < requested ↔ params.hasPositiveEmergencyQuantity = true :=
  firstPositive_pos_iff h

theorem emergencyQuantity_le {requested live : ℚ} :
    emergencyQuantity requested (some live) ≤ live := by
  unfold emergencyQuantity
  split
  · exact le_refl live
  · exact min_le_right requested live

/-! ## When the branch skips, and what it sends -/

section Branch

variable {params : TaskParams} {raw : RawLive} {defaultId symbol : String}

theorem emergencyMarketClose_of_skipped (hsymbol : requireStr params "symbol" = .ok symbol)
    (hskip : raw = .reply .raised ∨ raw.ReportsFlat emergencyCloseDustEpsilon) :
    emergencyMarketClose params raw defaultId = .ok none := by
  unfold emergencyMarketClose
  rw [hsymbol]
  rcases raw with (live | - | -) | -
  · have hdust : |live.size| ≤ emergencyCloseDustEpsilon := by
      rcases hskip with hraised | hflat
      · cases hraised
      · exact hflat
    simp [RawLive.liveSize, hdust, bind, Except.bind, pure, Except.pure]
  · rfl
  · rfl
  · rcases hskip with hraised | hflat
    · cases hraised
    · exact absurd hflat (by simp [RawLive.ReportsFlat])

theorem emergencyMarketClose_of_passed (hsymbol : requireStr params "symbol" = .ok symbol)
    (hraised : raw ≠ .reply .raised) (hflat : ¬raw.ReportsFlat emergencyCloseDustEpsilon) :
    emergencyMarketClose params raw defaultId = (do
      let requested ← resolveEmergencyQuantity params
      if requested ≤ 0 ∧ raw.liveSize = none then
        return none
      let side ← requireSide params "side"
      let clientOrderId ← requireStr params "client_order_id" (.str defaultId)
      return some (.partialClose symbol side (emergencyQuantity requested raw.liveSize)
        clientOrderId "market" none)) := by
  unfold emergencyMarketClose
  rw [hsymbol]
  rcases raw with (live | - | -) | -
  · have hdust : ¬|live.size| ≤ emergencyCloseDustEpsilon := hflat
    simp only [RawLive.isNone, RawLive.liveSize, bind, Except.bind, Option.any_some, hdust,
      decide_false, Bool.false_eq_true, if_false]
  · exact absurd trivial hflat
  · exact absurd rfl hraised
  · rfl

/-- **When the branch skips**: the symbol is readable, and the lookup raised, or the exchange
reports a flat position, or the live size is unknown and no positive quantity is asked for. -/
theorem skipped_iff :
    emergencyMarketClose params raw defaultId = .ok none ↔
      (∃ symbol, requireStr params "symbol" = .ok symbol) ∧
        (raw = .reply .raised ∨ raw.ReportsFlat emergencyCloseDustEpsilon ∨
          (raw.liveSize = none ∧
            ∃ requested, resolveEmergencyQuantity params = .ok requested ∧ requested ≤ 0)) := by
  cases hsymbol : requireStr params "symbol" with
  | error error =>
      have hrun : emergencyMarketClose params raw defaultId = .error error := by
        unfold emergencyMarketClose
        rw [hsymbol]
        rfl
      simp [hrun]
  | ok symbol =>
      by_cases hskip : raw = .reply .raised ∨ raw.ReportsFlat emergencyCloseDustEpsilon
      · rw [emergencyMarketClose_of_skipped hsymbol hskip]
        simpa using or_assoc.mp (Or.inl hskip)
      · obtain ⟨hraised, hflat⟩ := not_or.mp hskip
        rw [emergencyMarketClose_of_passed hsymbol hraised hflat]
        simp only [hraised, hflat, false_or, Except.ok.injEq, exists_eq', true_and]
        cases hrequested : resolveEmergencyQuantity params with
        | error error => simp [bind, Except.bind]
        | ok requested =>
            by_cases hunknown : requested ≤ 0 ∧ raw.liveSize = none
            · simp [bind, Except.bind, pure, Except.pure, hunknown.1, hunknown.2]
            · simp only [bind, Except.bind, hunknown, Except.ok.injEq, exists_eq_left']
              constructor
              · intro hnone
                cases hside : requireSide params "side" with
                | error error => rw [hside] at hnone; cases hnone
                | ok side =>
                    cases hid : requireStr params "client_order_id" (.str defaultId) with
                    | error error => rw [hside, hid] at hnone; cases hnone
                    | ok clientOrderId => rw [hside, hid] at hnone; cases hnone
              · intro hno
                exact absurd hno.symm hunknown

/-- **What the branch sends** is a market order for the resolved quantity, cut to the live
size, and it sends one only after the exchange did not report a flat position. -/
theorem partialClose_quantity {side : OrderSide} {quantity : ℚ} {clientOrderId orderType : String}
    {price : Option ℚ}
    (h : emergencyMarketClose params raw defaultId =
      .ok (some (.partialClose symbol side quantity clientOrderId orderType price))) :
    ∃ requested, resolveEmergencyQuantity params = .ok requested ∧
      quantity = emergencyQuantity requested raw.liveSize ∧
        ¬raw.ReportsFlat emergencyCloseDustEpsilon := by
  cases hsymbol : requireStr params "symbol" with
  | error error =>
      unfold emergencyMarketClose at h
      rw [hsymbol] at h
      cases h
  | ok name =>
      by_cases hskip : raw = .reply .raised ∨ raw.ReportsFlat emergencyCloseDustEpsilon
      · rw [emergencyMarketClose_of_skipped hsymbol hskip] at h
        cases h
      · obtain ⟨hraised, hflat⟩ := not_or.mp hskip
        rw [emergencyMarketClose_of_passed hsymbol hraised hflat] at h
        cases hrequested : resolveEmergencyQuantity params with
        | error error => rw [hrequested] at h; cases h
        | ok requested =>
            refine ⟨requested, rfl, ?_, hflat⟩
            rw [hrequested] at h
            simp only [bind, Except.bind] at h
            by_cases hunknown : requested ≤ 0 ∧ raw.liveSize = none
            · rw [if_pos hunknown] at h
              cases h
            · rw [if_neg hunknown] at h
              cases hside : requireSide params "side" with
              | error error => rw [hside] at h; cases h
              | ok side =>
                  cases hid : requireStr params "client_order_id" (.str defaultId) with
                  | error error => rw [hside, hid] at h; cases h
                  | ok clientOrderId =>
                      rw [hside, hid] at h
                      simp only [pure, Except.pure, Except.ok.injEq, Option.some.injEq,
                        AdapterCall.partialClose.injEq] at h
                      exact h.2.2.1.symm

end Branch

/-! ## Acting on what is known -/

/-- Somebody knows of a positive quantity: the parameters or the exchange. -/
def QuantityKnown (params : TaskParams) (raw : RawLive) : Prop :=
  params.hasPositiveEmergencyQuantity = true ∨ ∃ live, raw.liveSize = some live ∧ 0 < live

/-- The branch acts on what is known. -/
structure ActsOnWhatIsKnown (params : TaskParams) (raw : RawLive) (defaultId : String) : Prop where
  skipped : emergencyMarketClose params raw defaultId = .ok none →
    raw.ReportsFlat emergencyCloseDustEpsilon ∨ ¬QuantityKnown params raw
  /-- when the lookup raised, the quantity of the parameters is closed -/
  fallback : ∀ symbol side clientOrderId requested, raw = .reply .raised →
    requireStr params "symbol" = .ok symbol → requireSide params "side" = .ok side →
    requireStr params "client_order_id" (.str defaultId) = .ok clientOrderId →
    resolveEmergencyQuantity params = .ok requested → 0 < requested →
    emergencyMarketClose params raw defaultId =
      .ok (some (.partialClose symbol side requested clientOrderId "market" none))
  /-- no more is closed than the exchange holds -/
  bounded : ∀ symbol side quantity clientOrderId orderType price live,
    emergencyMarketClose params raw defaultId =
      .ok (some (.partialClose symbol side quantity clientOrderId orderType price)) →
    raw = .reply (.snapshot live) → quantity ≤ |live.size|

theorem quantity_bounded {params : TaskParams} {raw : RawLive} {defaultId symbol : String}
    {side : OrderSide} {quantity : ℚ} {clientOrderId orderType : String} {price : Option ℚ}
    {live : PositionSnapshot}
    (h : emergencyMarketClose params raw defaultId =
      .ok (some (.partialClose symbol side quantity clientOrderId orderType price)))
    (hlive : raw = .reply (.snapshot live)) : quantity ≤ |live.size| := by
  obtain ⟨requested, -, rfl, -⟩ := partialClose_quantity h
  rw [hlive]
  exact emergencyQuantity_le

/-- **The branch acts on what is known, unless the lookup raised with a positive quantity at
hand.**  A raised lookup is skipped like a flat position, so that an outage of the exchange
leaves the position open. -/
theorem actsOnWhatIsKnown_iff (params : TaskParams) (raw : RawLive) (defaultId : String) :
    ActsOnWhatIsKnown params raw defaultId ↔
      ¬(raw = .reply .raised ∧ (∃ symbol, requireStr params "symbol" = .ok symbol) ∧
        params.hasPositiveEmergencyQuantity = true) := by
  constructor
  · rintro hacts ⟨hraised, ⟨symbol, hsymbol⟩, hpositive⟩
    have hskip := @emergencyMarketClose_of_skipped _ _ defaultId _ hsymbol (.inl hraised)
    rcases hacts.skipped hskip with hflat | hunknown
    · rw [hraised] at hflat
      exact hflat
    · exact hunknown (.inl hpositive)
  · intro hnot
    refine ⟨fun hskip => ?_, ?_, ?_⟩
    · obtain ⟨hsymbol, hraised | hflat | ⟨hlive, requested, hrequested, hnonpos⟩⟩ :=
        skipped_iff.mp hskip
      · refine .inr ?_
        rintro (hpositive | ⟨live, hlive, -⟩)
        · exact hnot ⟨hraised, hsymbol, hpositive⟩
        · rw [hraised] at hlive
          cases hlive
      · exact .inl hflat
      · refine .inr ?_
        rintro (hpositive | ⟨live, hlive', -⟩)
        · have hpos := (resolveEmergencyQuantity_pos_iff hrequested).mpr hpositive
          exact absurd hpos (not_lt.mpr hnonpos)
        · rw [hlive] at hlive'
          cases hlive'
    · intro symbol side clientOrderId requested hraised hsymbol _ _ hrequested hpos
      exact absurd
        ⟨hraised, ⟨symbol, hsymbol⟩, (resolveEmergencyQuantity_pos_iff hrequested).mp hpos⟩ hnot
    · intro symbol side quantity clientOrderId orderType price live hsend hlive
      exact quantity_bounded hsend hlive

/-- The emergency task of a stop that failed for a long position of one unit, while
`get_position` raises: the close is skipped. -/
theorem emergencyClose_skipped_onOutage :
    ¬ActsOnWhatIsKnown
      (emergencyParams
        (initializePositionRuntimeSl
          { positionId := "7", symbol := "BTC/USDT:USDT", currentQuantity := 1,
            currentSlPrice := 90 } 0 0).params "SL placement failed after retries: 503")
      (.reply .raised) "acc-7-emergency-0" := by
  intro hacts
  have hskip : emergencyMarketClose
      (emergencyParams
        (initializePositionRuntimeSl
          { positionId := "7", symbol := "BTC/USDT:USDT", currentQuantity := 1,
            currentSlPrice := 90 } 0 0).params "SL placement failed after retries: 503")
      (.reply .raised) "acc-7-emergency-0" = .ok none :=
    @emergencyMarketClose_of_skipped _ _ _ "BTC/USDT:USDT" rfl (.inl rfl)
  rcases hacts.skipped hskip with hflat | hunknown
  · exact hflat
  · exact hunknown (.inl (by decide +kernel))

/-! ## The queue -/

end AdviserConstructor
