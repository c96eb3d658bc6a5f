import AdviserConstructor.AutoTrade.SignalTrading
import AdviserConstructor.Library.StepSystem
import AdviserConstructor.Ws.Lifecycle

/-!
# Closed rows and contexts that are still held

The exit paths of `app/services/auto_trade/service.py` mark a row closed.  The runtime has a context
of the same position, of its own, and goes on with it: a stop adjustment, the callback of an order
task and a change of the size each write to the context and persist it, and a persist merges every
field of the context into the row, the status with them.

A persist loads the row, merges the context into what it has loaded and commits the columns that
the merge has changed.  A step of `ClosureRun` is one of these phases, a write of the runtime to its
context, or the commit of an exit path.

* `closedForGood_iff`: a run in which closed rows stay closed is one in which each persist that
  commits on a closed row has merged a context that is closed and holds nothing, or else has loaded
  the row before it was closed, and merged a context that still says what it had loaded.
* `staleStop_reopens`: a stop adjustment after a signal has closed the position reopens the row.
-/

namespace AdviserConstructor

open StepSystem

/-! ## Writers -/

/-- A write of the runtime to the context that it holds. -/
inductive ContextWrite where
  /-- the success callback of an order task -/
  | callback (task : SuccessCallback) (result : ConditionalOrderResult)
  /-- the realtime adjuster takes over what the pipeline returned -/
  | slDecided (result : SLAdjustmentResult)
  /-- a position update of the user stream -/
  | sizeUpdate (answers : Answers) (size : ℚ)
  | orderEvent (answers : Answers) (event : OrderEvent)

def ContextWrite.apply (position : PositionContext) : ContextWrite → PositionContext
  | .callback task result => PositionContext.applyCallback result position task
  | .slDecided result => Adjuster.applyStateChanges position result
  | .sizeUpdate answers size => (position.handlePositionUpdate answers size none).position
  | .orderEvent answers event => (position.routeLifecycleEvent answers event none).position

/-- How an exit path marks a row. -/
inductive ExitMark where
  /-- the flatten, and the reconciler that polls -/
  | marked (closeReason : String) (closePrice : Option ℚ)
  /-- a signal that finds the position gone -/
  | alreadyClosed (historyId : ℕ) (snapshot : Option ExchangePosition)
  | oppositeTrend (historyId : ℕ) (closeReason : String) (order : CloseOrder)
      (signal : TradeSignal)
  /-- the sync with the exchange, for a missing and for a duplicate position -/
  | synced (closeReason : String) (historyId : Option ℕ) (closePrice : Option ℚ)

def ExitMark.apply (row : PositionRow) : ExitMark → PositionRow
  | .marked closeReason closePrice => row.markPositionClosed closeReason closePrice
  | .alreadyClosed historyId snapshot => row.alreadyClosedOnExchange historyId snapshot
  | .oppositeTrend historyId closeReason order signal =>
      row.closedOnOppositeTrend historyId closeReason order signal
  | .synced closeReason historyId closePrice =>
      { row.close closeReason with closeHistoryId := historyId, closePrice := closePrice }

theorem ExitMark.closed_apply (mark : ExitMark) (row : PositionRow) : (mark.apply row).Closed := by
  cases mark with
  | marked closeReason closePrice => exact row.closed_markPositionClosed closeReason closePrice
  | alreadyClosed historyId snapshot => exact row.closed_close "already_closed_on_exchange"
  | oppositeTrend historyId closeReason order signal => exact row.closed_close closeReason
  | synced closeReason historyId closePrice => exact row.closed_close closeReason

/-! ## Runs -/

/-- A persist that has not committed yet. -/
inductive RowPersist where
  | loaded (row : PositionRow)
  /-- the context is merged as it is held then -/
  | merged (loaded : PositionRow) (position : PositionContext)

/-- A row, the context that the runtime holds of it, and the persists in between. -/
structure ClosureRun where
  held : PositionContext
  row : PositionRow
  persists : List RowPersist := []

/-- What happens next. -/
inductive ClosureEvent where
  | write (w : ContextWrite)
  | exit (mark : ExitMark)
  | load
  /-- a persist merges the held context into what it has loaded -/
  | merge (i : ℕ)
  | commit (i : ℕ)

namespace ClosureRun

/-- One step.  An exit path is about an open row; it does not tell the runtime. -/
def step (s : ClosureRun) : ClosureEvent → Option ClosureRun
  | .write w => some { s with held := w.apply s.held }
  | .exit mark => if s.row.status = .open then some { s with row := mark.apply s.row } else none
  | .load => some { s with persists := s.persists ++ [.loaded s.row] }
  | .merge i =>
      match s.persists[i]? with
      | some (.loaded row) =>
          some { s with persists := s.persists.set i (.merged row s.held) }
      | _ => none
  | .commit i =>
      match s.persists[i]? with
      | some (.merged loaded position) =>
          some
            { s with
              row := loaded.commit (loaded.mergePosition position) s.row
              persists := s.persists.eraseIdx i }
      | _ => none

/-- **Closed rows stay closed**: no state of the run behind one with a closed row has another. -/
def ClosedForGood (s : ClosureRun) (events : List ClosureEvent) : Prop :=
  ∀ bs cs u v, bs ++ cs <+: events → run step s bs = some u → run step u cs = some v →
    u.row.Closed → v.row.Closed

/-! ## Commits on a closed row -/

/-- The context that a persist has merged is closed and holds nothing; or else the persist has
loaded the row before it was closed, and the context says what it had loaded. -/
def Spares (loaded : PositionRow) (position : PositionContext) : Prop :=
  (position.state = .closed ∨
    ¬ loaded.Closed ∧ position.state = loaded.state ∧
      statusFromRuntimeState position.state = loaded.status) ∧
    (Row.numeric position.currentQuantity ≤ 0 ∨
      ¬ loaded.Closed ∧ loaded.currentQuantity = some position.currentQuantity)

instance (loaded : PositionRow) (position : PositionContext) : Decidable (Spares loaded position) :=
  inferInstanceAs (Decidable (_ ∧ _))

theorem statusFromRuntimeState_eq_closed {state : PositionState} :
    statusFromRuntimeState state = .closed ↔ state = .closed := by
  cases state <;> decide

theorem numeric_nonpos {x : ℚ} (h : x ≤ 0) : Row.numeric x ≤ 0 := by
  have hfloor : (0 : ℤ) ≤ ⌊|x| * 10 ^ 8 + 1 / 2⌋ := Int.floor_nonneg.mpr (by positivity)
  have hscaled : (0 : ℚ) ≤ (⌊|x| * 10 ^ 8 + 1 / 2⌋ : ℚ) / 10 ^ 8 :=
    div_nonneg (Int.cast_nonneg hfloor) (by norm_num)
  unfold Row.numeric
  rcases h.lt_or_eq with hneg | rfl
  · rw [if_pos hneg]
    exact neg_nonpos.mpr hscaled
  · decide +kernel

theorem column_eq_iff {α : Type} [DecidableEq α] {loaded merged stored value : α}
    (hstored : stored = value) :
    Row.column loaded merged stored = value ↔ merged = loaded ∨ merged = value := by
  unfold Row.column
  by_cases hsame : merged = loaded
  · rw [if_pos hsame]
    exact iff_of_true hstored (Or.inl hsame)
  · rw [if_neg hsame, or_iff_right hsame]

variable {position : PositionContext}

theorem closed_of_context {loaded : PositionRow} (h : loaded.Closed)
    (hstate : position.state = loaded.state) : position.state = .closed := hstate.trans h.2.1

theorem numeric_of_context {loaded : PositionRow} (h : loaded.Closed)
    (hquantity : loaded.currentQuantity = some position.currentQuantity) :
    Row.numeric position.currentQuantity ≤ 0 := by
  have hheld := h.2.2
  rw [hquantity] at hheld
  exact numeric_nonpos hheld

theorem closed_columns_iff {loaded stored : PositionRow} (hclosed : stored.Closed) :
    ((loaded.commit (loaded.mergePosition position) stored).status = .closed ∧
        (loaded.commit (loaded.mergePosition position) stored).state = .closed) ↔
      position.state = .closed ∨
        ¬ loaded.Closed ∧ position.state = loaded.state ∧
          statusFromRuntimeState position.state = loaded.status := by
  have hstatus : (loaded.commit (loaded.mergePosition position) stored).status = .closed ↔
      statusFromRuntimeState position.state = loaded.status ∨
        statusFromRuntimeState position.state = .closed := column_eq_iff hclosed.1
  have hstate : (loaded.commit (loaded.mergePosition position) stored).state = .closed ↔
      position.state = loaded.state ∨ position.state = .closed := column_eq_iff hclosed.2.1
  rw [hstatus, hstate, statusFromRuntimeState_eq_closed]
  by_cases hheld : position.state = .closed
  · exact iff_of_true ⟨Or.inr hheld, Or.inr hheld⟩ (Or.inl hheld)
  · rw [or_iff_left hheld, or_iff_left hheld, or_iff_right hheld]
    constructor
    · rintro ⟨hsameStatus, hsame⟩
      exact ⟨fun hloaded => hheld (closed_of_context hloaded hsame), hsame, hsameStatus⟩
    · rintro ⟨-, hsame, hsameStatus⟩
      exact ⟨hsameStatus, hsame⟩

theorem closed_quantity_iff {loaded stored : PositionRow} (hclosed : stored.Closed) :
    (loaded.commit (loaded.mergePosition position) stored).currentQuantity.getD 0 ≤ 0 ↔
      Row.numeric position.currentQuantity ≤ 0 ∨
        ¬ loaded.Closed ∧ loaded.currentQuantity = some position.currentQuantity := by
  change (if some position.currentQuantity = loaded.currentQuantity then stored.currentQuantity
    else (some position.currentQuantity).map Row.numeric).getD 0 ≤ 0 ↔ _
  by_cases hsame : some position.currentQuantity = loaded.currentQuantity
  · rw [if_pos hsame]
    refine iff_of_true hclosed.2.2 ?_
    by_cases hloaded : loaded.Closed
    · exact Or.inl (numeric_of_context hloaded hsame.symm)
    · exact Or.inr ⟨hloaded, hsame.symm⟩
  · rw [if_neg hsame, Option.map_some]
    exact (or_iff_left fun h => hsame h.2.symm).symm

/-- **A commit leaves a closed row closed if and only if it spares it.** -/
theorem closed_commit_iff {loaded stored : PositionRow} (hclosed : stored.Closed) :
    (loaded.commit (loaded.mergePosition position) stored).Closed ↔ Spares loaded position := by
  unfold Spares
  rw [← closed_columns_iff hclosed, ← closed_quantity_iff hclosed]
  exact and_assoc.symm

/-- The condition on a step: a persist that commits on a closed row spares it. -/
def Sparing (s : ClosureRun) : ClosureEvent → Prop
  | .commit i =>
      s.row.Closed → ∀ loaded position, s.persists[i]? = some (.merged loaded position) →
        Spares loaded position
  | _ => True

variable {s s' : ClosureRun}

theorem step_exit {mark : ExitMark} (hs : s.step (.exit mark) = some s') :
    s' = { s with row := mark.apply s.row } := by
  simp only [step, Option.ite_none_right_eq_some, Option.some.injEq] at hs
  exact hs.2.symm

theorem step_merge {i : ℕ} (hs : s.step (.merge i) = some s') : s'.row = s.row := by
  unfold step at hs
  cases hpersist : s.persists[i]? with
  | none => simp only [hpersist, reduceCtorEq] at hs
  | some persist =>
    cases persist with
    | loaded row =>
      simp only [hpersist, Option.some.injEq] at hs
      exact hs ▸ rfl
    | merged loaded position => simp only [hpersist, reduceCtorEq] at hs

theorem step_commit {i : ℕ} (hs : s.step (.commit i) = some s') :
    ∃ loaded position, s.persists[i]? = some (.merged loaded position) ∧
      s'.row = loaded.commit (loaded.mergePosition position) s.row := by
  unfold step at hs
  cases hpersist : s.persists[i]? with
  | none => simp only [hpersist, reduceCtorEq] at hs
  | some persist =>
    cases persist with
    | loaded row => simp only [hpersist, reduceCtorEq] at hs
    | merged loaded position =>
      simp only [hpersist, Option.some.injEq] at hs
      exact ⟨loaded, position, rfl, hs ▸ rfl⟩

theorem closed_step_iff {e : ClosureEvent} (hs : s.step e = some s') :
    (s.row.Closed → s'.row.Closed) ↔ s.Sparing e := by
  cases e with
  | write w =>
    obtain rfl := Option.some.inj hs
    exact iff_of_true id trivial
  | exit mark =>
    obtain rfl := step_exit hs
    exact iff_of_true (fun _ => mark.closed_apply s.row) trivial
  | load =>
    obtain rfl := Option.some.inj hs
    exact iff_of_true id trivial
  | merge i => exact iff_of_true (fun hclosed => step_merge hs ▸ hclosed) trivial
  | commit i =>
    obtain ⟨loaded, position, hpersist, hrow⟩ := step_commit hs
    rw [hrow]
    refine imp_congr_right fun hclosed => (closed_commit_iff hclosed).trans ?_
    rw [hpersist]
    constructor
    · rintro hspares _ _ ⟨⟩
      exact hspares
    · exact fun h => h loaded position rfl

theorem sparing_of_stuck {e : ClosureEvent} (hs : s.step e = none) : s.Sparing e := by
  cases e with
  | commit i =>
    intro _ loaded position hpersist
    simp only [step, hpersist, reduceCtorEq] at hs
  | write | exit | load | merge => exact trivial

theorem sparing_iff {e : ClosureEvent} :
    (∀ s', s.step e = some s' → s.row.Closed → s'.row.Closed) ↔ s.Sparing e := by
  cases hs : s.step e with
  | none => exact iff_of_true (by rintro _ ⟨⟩) (sparing_of_stuck hs)
  | some s' =>
    rw [← closed_step_iff hs]
    exact ⟨fun h => h s' rfl, fun h u hu => Option.some.inj hu ▸ h⟩

/-- **Closed rows stay closed along a run if and only if every persist that commits on one has
merged a context that is closed and holds nothing**, or one that says what the row had said when it
was loaded, before the close. -/
theorem closedForGood_iff (s : ClosureRun) (events : List ClosureEvent) :
    s.ClosedForGood events ↔ AlongRun step Sparing s events := by
  unfold ClosedForGood
  rw [stable_iff_alongRun]
  constructor
  · exact AlongRun.mono step fun u e => sparing_iff.mp
  · exact AlongRun.mono step fun u e => sparing_iff.mpr

/-- A long position of one, with a stop, in the row and in the runtime. -/
def openPosition : ClosureRun where
  held :=
    { state := .open
      stateMachine := { state := .open }
      currentQuantity := 1
      originalQuantity := 1
      currentSlPrice := 95
      slExchangeOrderId := some "7" }
  row :=
    { entryPrice := 100
      quantity := 1
      currentQuantity := some 1
      originalQuantity := some 1
      slPrice := 95
      slExchangeOrderId := some "7" }

/-- A signal closes the position; then a stop adjustment that was under way is booked and
persisted. -/
def staleStop : List ClosureEvent :=
  [.exit (.oppositeTrend 1 "opposite_confirmed" { id := "9" }
      { trend := .short, confidencePct := 70, priceCurrent := 100 }),
    .write (.callback (.slAdjustment "trailing" "realtime_pipeline")
      { exchangeOrderId := "8", clientOrderId := "c", orderType := .stopLoss
        triggerPrice := 96, quantity := 1 }),
    .load, .merge 0, .commit 0]

/-- **A stop adjustment that is persisted behind the close reopens the row.** -/
theorem staleStop_reopens : ¬ openPosition.ClosedForGood staleStop := by
  intro h
  have hclosed := h (staleStop.take 1) (staleStop.drop 1) _ _ (List.prefix_refl _) rfl rfl
  exact absurd (hclosed (by decide +kernel)) (by decide +kernel)

end ClosureRun

end AdviserConstructor
