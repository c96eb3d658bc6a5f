import Mathlib.Algebra.Order.Floor.Ring
import Mathlib.Data.Rat.Floor
import AdviserConstructor.Library.StepSystem
import AdviserConstructor.SlTp.LiveTracker
import AdviserConstructor.Ws.Lifecycle

/-!
# Hydration of a live position

Every sixty seconds `hydrate_active_positions` of `app/services/auto_trade/service.py` reads the
rows of the active positions and hands a context built from each to `track_position`, which copies
the fields of a row onto the live position.  In between lie awaits, and the runtime goes on
adjusting the stop, booking the entry fill and persisting.

The three fields that matter here are the entry price, the original quantity and the stop price.
The runtime writes all three, `_merge_persisted_fields_into_live` copies all three, and
`_merge_position_context_into_row` writes two of them back: the entry price never reaches the row,
and the stop only if it is above zero.

A persist loads the row, merges the position into it and commits; the update that it commits names
only the columns that differ from what was loaded.  A step of `HydrationRun` is one of these
phases, a write of the runtime, or one half of a hydration, so that a run is any interleaving of
any number of hydrations and persists.

* `notRewound_of_run`: along a run that merges only current hydrations, the live position has what
  the runtime has last written, in every state reached.
* `merge_rewinds`: a stop adjustment between read and merge is undone by the merge, and so is the
  entry price of a fill, however long ago it was persisted.
-/

namespace AdviserConstructor

open PositionContext StepSystem

/-! ## The row -/

/-- `trailing_config_json`. -/
structure TrailingConfig where
  enabled : Bool := false
  callbackRate : Option ℚ := none
  activationPrice : Option ℚ := none
  highestPrice : Option ℚ := none
  lowestPrice : Option ℚ := none
  deriving DecidableEq

/-- `breakeven_config_json`. -/
structure BreakevenConfig where
  enabled : Bool := false
  triggerRr : ℚ := 1
  activated : Bool := false
  deriving DecidableEq

/-- `volatility_config_json`. -/
structure VolatilityConfig where
  enabled : Bool := false
  atrPeriod : ℤ := 14
  atrMultiplier : ℚ := 2
  lastAtr : Option ℚ := none
  deriving DecidableEq

/-- The columns of `AutoTradePosition` that a context is built from.  The JSON columns hold what
they are parsed to. -/
structure Row where
  positionId : String := ""
  symbol : String := ""
  side : PositionSide := .long
  state : PositionState := .open
  entryPrice : ℚ
  quantity : ℚ
  tpPrice : ℚ := 0
  slPrice : ℚ := 0
  originalQuantity : Option ℚ := none
  currentQuantity : Option ℚ := none
  slExchangeOrderId : Option String := none
  slHistory : List SLHistoryEntry := []
  tpMode : TpMode := .single
  tpLevels : List TPLevel := []
  tpHistory : List TPHistoryEntry := []
  trailingConfig : TrailingConfig := {}
  breakevenConfig : BreakevenConfig := {}
  volatilityConfig : VolatilityConfig := {}
  adjustmentPriority : List String := ["watcher", "trailing", "breakeven", "volatility"]
  transitionLog : List TransitionLogEntry := []
  deriving DecidableEq

/-- `from_db_row`. -/
def PositionContext.fromDbRow (row : Row) : PositionContext where
  positionId := row.positionId
  symbol := row.symbol
  state := row.state
  stateMachine := { state := row.state, transitionLog := row.transitionLog }
  side := row.side
  entryPrice := row.entryPrice
  originalQuantity := row.originalQuantity.getD 0
  currentQuantity := row.currentQuantity.getD 0
  currentSlPrice := row.slPrice
  slExchangeOrderId := row.slExchangeOrderId
  slHistory := row.slHistory
  tpMode := row.tpMode
  tpLevels := row.tpLevels
  currentTpPrice := some row.tpPrice
  tpHistory := row.tpHistory
  trailingEnabled := row.trailingConfig.enabled
  trailingCallbackRate := row.trailingConfig.callbackRate
  trailingActivationPrice := row.trailingConfig.activationPrice
  trailingHighestPrice := row.trailingConfig.highestPrice
  trailingLowestPrice := row.trailingConfig.lowestPrice
  breakevenEnabled := row.breakevenConfig.enabled
  breakevenTriggerRr := row.breakevenConfig.triggerRr
  breakevenActivated := row.breakevenConfig.activated
  volatilitySlEnabled := row.volatilityConfig.enabled
  volatilityAtrPeriod := row.volatilityConfig.atrPeriod
  volatilityAtrMultiplier := row.volatilityConfig.atrMultiplier
  volatilityLastAtr := row.volatilityConfig.lastAtr
  adjustmentPriority := row.adjustmentPriority

/-! ## Persisting -/

/-- `_POSITION_EPSILON`. -/
def positionEpsilon : ℚ := 1 / 1000000000

/-- `_resolve_runtime_tp_price`. -/
def PositionContext.resolveRuntimeTpPrice (position : PositionContext) : Option ℚ :=
  match position.tpMode, position.tpLevels with
  | .multi, level :: _ => some level.triggerPrice
  | _, _ => position.currentTpPrice

namespace Row

/-- `_merge_position_context_into_row`. -/
def mergePositionContext (row : Row) (position : PositionContext) : Row :=
  { row with
    state := position.state
    originalQuantity := some position.originalQuantity
    currentQuantity := some position.currentQuantity
    quantity :=
      if position.state ≠ .closed ∧ positionEpsilon < position.currentQuantity then
        position.currentQuantity
      else if row.quantity ≤ positionEpsilon ∧ positionEpsilon < position.originalQuantity then
        position.originalQuantity
      else row.quantity
    slPrice :=
      if positionEpsilon < position.currentSlPrice then position.currentSlPrice else row.slPrice
    tpPrice :=
      match position.resolveRuntimeTpPrice with
      | some price => if positionEpsilon < price then price else row.tpPrice
      | none => row.tpPrice
    slExchangeOrderId := position.slExchangeOrderId
    slHistory := position.slHistory
    tpMode := position.tpMode
    tpLevels := position.tpLevels
    tpHistory := position.tpHistory
    trailingConfig :=
      { enabled := position.trailingEnabled
        callbackRate := position.trailingCallbackRate
        activationPrice := position.trailingActivationPrice
        highestPrice := position.trailingHighestPrice
        lowestPrice := position.trailingLowestPrice }
    breakevenConfig :=
      { enabled := position.breakevenEnabled
        triggerRr := position.breakevenTriggerRr
        activated := position.breakevenActivated }
    volatilityConfig :=
      { enabled := position.volatilitySlEnabled
        atrPeriod := position.volatilityAtrPeriod
        atrMultiplier := position.volatilityAtrMultiplier
        lastAtr := position.volatilityLastAtr }
    adjustmentPriority := position.adjustmentPriority
    transitionLog := position.stateMachine.transitionLog }

/-- What a `Numeric(20, 8)` column keeps of a number: eight decimals, halves away from zero. -/
def numeric (x : ℚ) : ℚ :=
  let scaled : ℚ := ⌊|x| * 10 ^ 8 + 1 / 2⌋
  if x < 0 then -(scaled / 10 ^ 8) else scaled / 10 ^ 8

/-- A column of the row behind an update, which names it if the merge has changed it. -/
def column {α : Type} [DecidableEq α] (loaded merged stored : α) : α :=
  if merged = loaded then stored else merged

/-- The commit of a persist that has loaded `loaded` and made `merged` of it. -/
def commit (loaded merged stored : Row) : Row :=
  { stored with
    state := column loaded.state merged.state stored.state
    entryPrice := column loaded.entryPrice merged.entryPrice stored.entryPrice
    quantity := column loaded.quantity merged.quantity stored.quantity
    tpPrice := column loaded.tpPrice merged.tpPrice stored.tpPrice
    slPrice := column loaded.slPrice merged.slPrice stored.slPrice
    originalQuantity :=
      if merged.originalQuantity = loaded.originalQuantity then stored.originalQuantity
      else merged.originalQuantity.map numeric
    currentQuantity :=
      if merged.currentQuantity = loaded.currentQuantity then stored.currentQuantity
      else merged.currentQuantity.map numeric
    slExchangeOrderId :=
      column loaded.slExchangeOrderId merged.slExchangeOrderId stored.slExchangeOrderId
    slHistory := column loaded.slHistory merged.slHistory stored.slHistory
    tpMode := column loaded.tpMode merged.tpMode stored.tpMode
    tpLevels := column loaded.tpLevels merged.tpLevels stored.tpLevels
    tpHistory := column loaded.tpHistory merged.tpHistory stored.tpHistory
    trailingConfig := column loaded.trailingConfig merged.trailingConfig stored.trailingConfig
    breakevenConfig := column loaded.breakevenConfig merged.breakevenConfig stored.breakevenConfig
    volatilityConfig :=
      column loaded.volatilityConfig merged.volatilityConfig stored.volatilityConfig
    adjustmentPriority :=
      column loaded.adjustmentPriority merged.adjustmentPriority stored.adjustmentPriority
    transitionLog := column loaded.transitionLog merged.transitionLog stored.transitionLog }

end Row

/-! ## Merging into the live position -/

namespace PositionContext

/-- `_merge_persisted_fields_into_live`. -/
def mergePersistedFieldsIntoLive (live snapshot : PositionContext) : PositionContext :=
  { live with
    entryPrice := snapshot.entryPrice
    originalQuantity := snapshot.originalQuantity
    currentSlPrice := snapshot.currentSlPrice
    currentTpPrice := snapshot.currentTpPrice
    tpMode := snapshot.tpMode
    tpLevels :=
      live.tpLevels.mapIdx fun i level =>
        match snapshot.tpLevels[i]? with
        | none => level
        | some snap =>
            { level with
              triggerPrice := snap.triggerPrice
              closePct := snap.closePct
              slLockPct := snap.slLockPct
              moveSlTo := snap.moveSlTo } }

/-- `track_position`: what is tracked under the id of the position afterwards. -/
def trackPosition (live : Option PositionContext) (position : PositionContext)
    (replaceInPlace : Bool) : PositionContext :=
  match live with
  | none => position
  | some live =>
      if replaceInPlace then position else live.mergePersistedFieldsIntoLive position

end PositionContext

/-- The fields that the runtime writes and a hydration copies. -/
structure RuntimeFields where
  entryPrice : ℚ
  originalQuantity : ℚ
  currentSlPrice : ℚ
  deriving DecidableEq

def PositionContext.runtimeFields (position : PositionContext) : RuntimeFields where
  entryPrice := position.entryPrice
  originalQuantity := position.originalQuantity
  currentSlPrice := position.currentSlPrice

/-- The fields that a context built from the row has. -/
def Row.runtimeFields (row : Row) : RuntimeFields := (fromDbRow row).runtimeFields

/-! ## Writes of the runtime -/

/-- A write of the runtime to one of the three fields. -/
inductive RuntimeWrite where
  /-- the callback of an executed stop adjustment -/
  | slAdjusted (reason triggerSource : String) (result : ConditionalOrderResult)
  /-- the realtime adjuster takes over what the pipeline returned -/
  | slDecided (result : SLAdjustmentResult)
  /-- an order event while the entry is being waited for -/
  | entryFill (event : OrderEvent) (answers : Answers)

namespace RuntimeWrite

/-- The position after the write; `none` when it does not apply. -/
def apply (position : PositionContext) : RuntimeWrite → Option PositionContext
  | .slAdjusted reason triggerSource result =>
      some (position.applySlAdjustment reason triggerSource result)
  | .slDecided result => some (Adjuster.applyStateChanges position result)
  | .entryFill event answers =>
      (position.handleEntryFillEvent answers event none).map Handled.position

/-- The latest values written, after the write. -/
def record (position : PositionContext) (written : RuntimeFields) : RuntimeWrite → RuntimeFields
  | .slAdjusted _ _ result =>
      { written with
        currentSlPrice :=
          if 0 < result.triggerPrice then result.triggerPrice else position.currentSlPrice }
  | .slDecided result => { written with currentSlPrice := result.newSlPrice }
  | .entryFill event _ =>
      let fillPrice := event.resolveFillPrice position.entryPrice
      let filledQuantity := event.resolveFilledQuantity position.currentQuantity
      { written with
        entryPrice := if 0 < fillPrice then fillPrice else written.entryPrice
        originalQuantity :=
          if 0 < filledQuantity then filledQuantity else written.originalQuantity }

end RuntimeWrite

/-! ## Runs -/

/-- A hydration between the read of the row and the merge. -/
structure Hydration where
  row : Row
  /-- what the live position had when the row was read -/
  asOf : RuntimeFields

/-- A persist that has not committed yet. -/
inductive Persist where
  | loaded (row : Row)
  | merged (loaded merged : Row)

/-- A tracked position, its row, and what is in flight between them. -/
structure HydrationRun where
  live : PositionContext
  row : Row
  /-- the latest values that the runtime has written -/
  written : RuntimeFields
  hydrations : List Hydration := []
  persists : List Persist := []

/-- What happens next. -/
inductive HydrationEvent where
  | write (w : RuntimeWrite)
  | read
  /-- a hydration hands its context to `track_position` -/
  | merge (i : ℕ)
  /-- a hydration fails before it gets there -/
  | abandon (i : ℕ)
  | load
  /-- a persist merges the live position into what it has loaded -/
  | store (i : ℕ)
  | commit (i : ℕ)

namespace HydrationRun

/-- A tracked position and its row, with nothing in flight. -/
def initial (live : PositionContext) (row : Row) : HydrationRun where
  live := live
  row := row
  written := live.runtimeFields

def step (s : HydrationRun) : HydrationEvent → Option HydrationRun
  | .write w =>
      (w.apply s.live).map fun position =>
        { s with live := position, written := w.record s.live s.written }
  | .read => some { s with hydrations := s.hydrations ++ [⟨s.row, s.live.runtimeFields⟩] }
  | .merge i =>
      s.hydrations[i]?.map fun hydration =>
        { s with
          live := trackPosition (some s.live) (fromDbRow hydration.row) false
          hydrations := s.hydrations.eraseIdx i }
  | .abandon i => some { s with hydrations := s.hydrations.eraseIdx i }
  | .load => some { s with persists := s.persists ++ [.loaded s.row] }
  | .store i =>
      match s.persists[i]? with
      | some (.loaded row) =>
          some
            { s with persists := s.persists.set i (.merged row (row.mergePositionContext s.live)) }
      | _ => none
  | .commit i =>
      match s.persists[i]? with
      | some (.merged loaded merged) =>
          some { s with row := loaded.commit merged s.row, persists := s.persists.eraseIdx i }
      | _ => none

/-- The live position has what the runtime has last written. -/
def NotRewound (s : HydrationRun) : Prop := s.live.runtimeFields = s.written

instance (s : HydrationRun) : Decidable s.NotRewound := by
  unfold NotRewound
  infer_instance

/-- The condition on a step: a hydration that is merged found the row in agreement with the live
position when it read it, and the runtime has changed none of the fields since. -/
def Current (s : HydrationRun) : HydrationEvent → Prop
  | .merge i =>
      ∀ hydration ∈ s.hydrations[i]?,
        hydration.row.runtimeFields = hydration.asOf ∧ s.live.runtimeFields = hydration.asOf
  | _ => True

instance (s : HydrationRun) (e : HydrationEvent) : Decidable (s.Current e) := by
  cases e <;> unfold Current <;> infer_instance

/-! ### Writes keep up -/

section Writes

variable {position moved : PositionContext}

theorem runtimeFields_syncPosition (answers : Answers) (position : PositionContext) :
    (position.syncPosition answers false).1.runtimeFields = position.runtimeFields := by
  have hclosed : (applySyncTransition { position with currentQuantity := 0 } .allClosed
      .closed).runtimeFields = position.runtimeFields := by
    unfold applySyncTransition
    split <;> rfl
  unfold syncPosition
  cases answers.sync with
  | raised => rfl
  | noPosition => exact hclosed
  | snapshot live =>
    dsimp only
    split
    · exact hclosed
    · rw [if_neg (by simp)]
      split <;> rfl

theorem runtimeFields_applyTransition (answers : Answers) (position : PositionContext)
    (trigger : TransitionTrigger) :
    (position.applyTransition answers trigger).2.runtimeFields = position.runtimeFields := by
  unfold applyTransition
  split
  · rfl
  · exact runtimeFields_syncPosition answers position

theorem runtimeFields_transition (position : PositionContext) (trigger : TransitionTrigger) :
    (position.transition trigger).runtimeFields = position.runtimeFields := by
  unfold PositionContext.transition
  split <;> rfl

theorem runtimeFields_applyTracking (position : PositionContext) (update : TrackingUpdate) :
    (Adjuster.applyTracking position update).runtimeFields = position.runtimeFields := by
  cases update <;> rfl

/-- **A write leaves the position with what is recorded**, if it found it so. -/
theorem runtimeFields_write {w : RuntimeWrite} (h : w.apply position = some moved) :
    moved.runtimeFields = w.record position position.runtimeFields := by
  cases w with
  | slAdjusted reason triggerSource result =>
    obtain rfl := Option.some.inj h
    have hsame := runtimeFields_transition
      { position with
        currentSlPrice :=
          if 0 < result.triggerPrice then result.triggerPrice else position.currentSlPrice
        slExchangeOrderId := some result.exchangeOrderId
        slHistory := position.slHistory ++
          [{ oldPrice := position.currentSlPrice
             newPrice :=
              if 0 < result.triggerPrice then result.triggerPrice else position.currentSlPrice
             reason := reason
             triggerSource := triggerSource
             exchangeOrderId := result.exchangeOrderId }] } .adjustmentComplete
    exact hsame
  | slDecided result =>
    obtain rfl := Option.some.inj h
    have htracked : ∀ (updates : List TrackingUpdate) (p : PositionContext),
        (updates.foldl Adjuster.applyTracking p).runtimeFields = p.runtimeFields := by
      intro updates
      induction updates with
      | nil => exact fun p => rfl
      | cons update updates ih =>
        exact fun p => (ih _).trans (runtimeFields_applyTracking p update)
    have hfields := htracked result.updateTracking position
    simp only [runtimeFields, RuntimeFields.mk.injEq] at hfields
    simp only [Adjuster.applyStateChanges, runtimeFields, RuntimeWrite.record,
      RuntimeFields.mk.injEq]
    exact ⟨hfields.1, hfields.2.1, trivial⟩
  | entryFill event answers =>
    obtain ⟨handled, hhandled, rfl⟩ := Option.map_eq_some_iff.mp h
    unfold handleEntryFillEvent at hhandled
    split at hhandled
    · cases hhandled
    · obtain rfl := Option.some.inj hhandled
      exact runtimeFields_applyTransition answers _ .entryFilled

end Writes

/-! ### Merges -/

section Merges

variable {s t : HydrationRun}

theorem notRewound_merge_iff {i : ℕ} {hydration : Hydration}
    (hi : s.hydrations[i]? = some hydration) (hstep : step s (.merge i) = some t) :
    t.NotRewound ↔ hydration.row.runtimeFields = s.written := by
  simp only [step, hi, Option.map_some, Option.some.injEq] at hstep
  subst hstep
  exact Iff.rfl

/-- **A step that merges only a current hydration** keeps the position up to date. -/
theorem NotRewound.step {e : HydrationEvent} (hs : s.NotRewound) (hcurrent : s.Current e)
    (hstep : HydrationRun.step s e = some t) : t.NotRewound := by
  cases e with
  | write w =>
    obtain ⟨position, hwrite, rfl⟩ := Option.map_eq_some_iff.mp hstep
    have hfields := runtimeFields_write hwrite
    rw [hs] at hfields
    exact hfields
  | read => exact Option.some.inj hstep ▸ hs
  | merge i =>
    obtain ⟨hydration, hi, -⟩ := Option.map_eq_some_iff.mp hstep
    obtain ⟨hpersisted, hsince⟩ := hcurrent hydration hi
    exact (notRewound_merge_iff hi hstep).mpr (hpersisted.trans (hsince.symm.trans hs))
  | abandon i => exact Option.some.inj hstep ▸ hs
  | load => exact Option.some.inj hstep ▸ hs
  | store i =>
    simp only [HydrationRun.step] at hstep
    split at hstep
    · exact Option.some.inj hstep ▸ hs
    · cases hstep
  | commit i =>
    simp only [HydrationRun.step] at hstep
    split at hstep
    · exact Option.some.inj hstep ▸ hs
    · cases hstep

end Merges

/-- **The runtime's writes are not taken back** in any state of a run that merges only current
hydrations. -/
theorem notRewound_of_run {live : PositionContext} {row : Row} {s : HydrationRun}
    {es : List HydrationEvent} (hcurrent : AlongRun step Current (initial live row) es)
    (hrun : run step (initial live row) es = some s) : s.NotRewound :=
  invariant_of_alongRun step (I := NotRewound) (fun _ _ _ hs he hstep => hs.step he hstep)
    (show (initial live row).NotRewound from rfl) hcurrent hrun

/-! ## A stop and an entry price taken back -/

/-- The row of an open long position behind a stop at 90. -/
def openRow : Row where
  positionId := "7"
  symbol := "BTCUSDT"
  entryPrice := 100
  quantity := 1
  slPrice := 90
  originalQuantity := some 1
  currentQuantity := some 1
  slExchangeOrderId := some "sl-1"

def stopMoved : RuntimeWrite :=
  .slAdjusted "breakeven" "multi_tp"
    { exchangeOrderId := "sl-2"
      clientOrderId := "be-7"
      orderType := .stopLoss
      triggerPrice := 95
      quantity := 1 }

/-- The entry order has filled at 101. -/
def filledAt101 : RuntimeWrite :=
  .entryFill
    { orderId := "e-1", orderType := "market", status := "filled", filledQuantity := 1,
      averagePrice := 101 } {}

/-- A hydration behind the persist of the adjustment is harmless. -/
theorem notRewound_persistedFirst :
    ∃ s, run step (initial (fromDbRow openRow) openRow)
        [.write stopMoved, .load, .store 0, .commit 0, .read, .merge 0] = some s ∧
      s.live.currentSlPrice = 95 ∧ s.NotRewound := by
  have hcurrent : AlongRun step Current (initial (fromDbRow openRow) openRow)
      [.write stopMoved, .load, .store 0, .commit 0, .read, .merge 0] := by
    decide +kernel
  have hend : (run step (initial (fromDbRow openRow) openRow)
      [.write stopMoved, .load, .store 0, .commit 0, .read, .merge 0]).map
        (fun s => decide (s.live.currentSlPrice = 95)) = some true := by
    decide +kernel
  obtain ⟨s, hs, hprice⟩ := Option.map_eq_some_iff.mp hend
  exact ⟨s, hs, of_decide_eq_true hprice, notRewound_of_run hcurrent hs⟩

/-- **Two merges that rewind.**  The stop is moved and persisted between the read and the merge of
a hydration, and goes back to 90.  The entry has filled at 101 and everything has been persisted
before the hydration begins, and the entry price goes back to 100. -/
theorem merge_rewinds :
    (∃ s, run step (initial (fromDbRow openRow) openRow)
        [.read, .write stopMoved, .load, .store 0, .commit 0, .merge 0] = some s ∧
      s.written.currentSlPrice = 95 ∧ s.live.currentSlPrice = 90 ∧ ¬s.NotRewound) ∧
    ∃ s, run step
        (initial (fromDbRow { openRow with state := .entering })
          { openRow with state := .entering })
        [.write filledAt101, .load, .store 0, .commit 0, .read, .merge 0] = some s ∧
      s.written.entryPrice = 101 ∧ s.live.entryPrice = 100 ∧ ¬s.NotRewound := by
  constructor
  · have hend : (run step (initial (fromDbRow openRow) openRow)
        [.read, .write stopMoved, .load, .store 0, .commit 0, .merge 0]).map
          (fun s => decide (s.written.currentSlPrice = 95 ∧ s.live.currentSlPrice = 90 ∧
            ¬s.NotRewound)) = some true := by
      decide +kernel
    obtain ⟨s, hs, hstate⟩ := Option.map_eq_some_iff.mp hend
    exact ⟨s, hs, of_decide_eq_true hstate⟩
  · have hend : (run step
        (initial (fromDbRow { openRow with state := .entering })
          { openRow with state := .entering })
        [.write filledAt101, .load, .store 0, .commit 0, .read, .merge 0]).map
          (fun s => decide (s.written.entryPrice = 101 ∧ s.live.entryPrice = 100 ∧
            ¬s.NotRewound)) = some true := by
      decide +kernel
    obtain ⟨s, hs, hstate⟩ := Option.map_eq_some_iff.mp hend
    exact ⟨s, hs, of_decide_eq_true hstate⟩

end HydrationRun
end AdviserConstructor
