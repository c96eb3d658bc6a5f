import AdviserConstructor.AutoTrade.PartialTpReconcile
import AdviserConstructor.Ws.Reconciler

/-!
# What the poll infers

`_reconcile_partial_tp_via_rest` of `app/services/auto_trade/service.py` sees which orders of a
ladder are gone, and how much of the position has been closed since its entry.  It takes the rungs
whose orders are gone for filled, in order, as long as what has been closed covers half of what they
close together.

An order may be gone because it was cancelled.  What has been closed is the work of all rungs that
were filled, also of those that were advanced by earlier polls, while the half is of the rungs that
are missing now; so the test for a cancelled rung counts what other rungs have closed.

* `mem_acceptedLevels_iff`: a missing rung is accepted exactly if what has been closed covers half
  of the missing rungs up to it.
* `restInference_sound_iff`: the poll advances rungs only that were filled, exactly if for every
  cancelled rung what has been closed stays below half of the missing rungs up to it.
* `restInference_invents`: the first of two equal rungs was filled and advanced, the second is
  cancelled, and the poll advances it.
-/

namespace AdviserConstructor

open PositionContext

namespace RestPass

/-! ## What is accepted -/

def nominal (originalQuantity : ℚ) (rung : ℕ × TPLevel) : ℚ :=
  originalQuantity * (rung.2.closePct / 100)

section Accept

variable {originalQuantity observedClosed cumulative : ℚ} {rungs : List (ℕ × TPLevel)}

theorem mem_acceptFrom_iff (hnominal : ∀ rung ∈ rungs, 0 ≤ nominal originalQuantity rung)
    (rung : ℕ × TPLevel) :
    rung ∈ acceptFrom originalQuantity observedClosed cumulative rungs ↔
      ∃ front back, rungs = front ++ rung :: back ∧
        (cumulative + (front.map (nominal originalQuantity)).sum +
            nominal originalQuantity rung) * (1 / 2) ≤ observedClosed + positionEpsilon := by
  induction rungs generalizing cumulative with
  | nil => simp [acceptFrom]
  | cons first rest ih =>
    obtain ⟨index, level⟩ := first
    have hrest : ∀ rung ∈ rest, 0 ≤ nominal originalQuantity rung :=
      fun r hr => hnominal r (List.mem_cons_of_mem _ hr)
    rw [acceptFrom]
    by_cases htest : (cumulative + originalQuantity * (level.closePct / 100)) * (1 / 2) ≤
        observedClosed + positionEpsilon
    · rw [if_pos htest, List.mem_cons, ih hrest]
      constructor
      · rintro (rfl | ⟨front, back, rfl, hcovered⟩)
        · refine ⟨[], rest, rfl, ?_⟩
          simpa [nominal] using htest
        · refine ⟨(index, level) :: front, back, rfl, ?_⟩
          rw [List.map_cons, List.sum_cons, ← add_assoc cumulative]
          exact hcovered
      · rintro ⟨front, back, hsplit, hcovered⟩
        cases front with
        | nil => exact .inl (List.cons.inj hsplit).1.symm
        | cons _ front =>
          obtain ⟨rfl, htail⟩ := List.cons.inj hsplit
          rw [List.map_cons, List.sum_cons, ← add_assoc cumulative] at hcovered
          exact .inr ⟨front, back, htail, hcovered⟩
    · -- the first rung fails the test, and all that lie behind it would too
      rw [if_neg htest]
      refine iff_of_false List.not_mem_nil ?_
      rintro ⟨front, back, hsplit, hcovered⟩
      refine htest (le_trans ?_ hcovered)
      cases front with
      | nil =>
        obtain ⟨rfl, -⟩ := List.cons.inj hsplit
        simp [nominal]
      | cons _ front =>
        obtain ⟨rfl, rfl⟩ := List.cons.inj hsplit
        have hfront : 0 ≤ (front.map (nominal originalQuantity)).sum := by
          refine List.sum_nonneg fun x hx => ?_
          obtain ⟨r, hr, rfl⟩ := List.mem_map.mp hx
          exact hrest r (List.mem_append_left _ hr)
        have hlast := hrest rung (List.mem_append_right _ List.mem_cons_self)
        rw [List.map_cons, List.sum_cons]
        have hunfold : nominal originalQuantity (index, level) =
            originalQuantity * (level.closePct / 100) := rfl
        linarith

end Accept

def missing (row : PositionRow) (openOrders : List String) : List (ℕ × TPLevel) :=
  filled (fromDbRow row.toRow) openOrders

/-- The context behind phase 2: driven over the accepted rungs, if there are any. -/
def reconciled (row : PositionRow) (liveSize : ℚ) (openOrders : Option (List String))
    (live : PositionReply) (now : ℚ) (nowMs : ℕ) : PositionContext :=
  match RestPass.decide row liveSize openOrders with
  | none => fromDbRow row.toRow
  | some pass => pass.drive live now nowMs

end RestPass

/-! ## What the engine advances -/

/-- Every level whose stop shift has been dispatched is triggered. -/
def PositionContext.DispatchedTriggered (position : PositionContext) : Prop :=
  ∀ i ∈ position.dispatchedSlLevels, position.Triggered i

theorem triggered_handleTpTriggered {position : PositionContext} {i : ℕ}
    (h : position.DispatchedTriggered) (hi : i < position.tpLevels.length) (triggerSource : String)
    (live : PositionReply) (now : ℚ) (nowMs : ℕ) :
    let next := (MultiTp.handleTpTriggered position i triggerSource live now nowMs).1
    next.DispatchedTriggered ∧ next.tpLevels.length = position.tpLevels.length ∧
      ∀ j, next.Triggered j ↔ position.Triggered j ∨ j = i := by
  have hlevel := List.getElem?_eq_getElem hi
  unfold MultiTp.handleTpTriggered
  rw [hlevel]
  dsimp only
  by_cases halready : MultiTp.alreadyTriggered position i position.tpLevels[i] = true
  · rw [if_pos halready]
    have htriggered : position.Triggered i := by
      simp only [MultiTp.alreadyTriggered, Bool.or_eq_true, decide_eq_true_eq] at halready
      rcases halready with hstatus | hdispatched
      · rw [Triggered, hlevel, Option.map_some, hstatus]
      · exact h i hdispatched
    refine ⟨h, rfl, fun j => ⟨Or.inl, ?_⟩⟩
    rintro (hj | rfl)
    · exact hj
    · exact htriggered
  · rw [if_neg halready]
    have hkeeps := keepsLevels_closeOrContinue (MultiTp.bookFill position i position.tpLevels[i])
    refine ⟨fun j hj => ?_, ?_, fun j => hkeeps.triggered_iff.trans (triggered_bookFill hlevel)⟩
    · rw [hkeeps.triggered_iff, triggered_bookFill hlevel]
      rw [hkeeps.dispatched] at hj
      rcases Finset.mem_insert.mp hj with rfl | hj
      · exact .inr rfl
      · exact .inl (h j hj)
    · rw [hkeeps.levels]
      exact List.length_modify ..

theorem triggered_foldl_handleTpTriggered (triggerSource : String) (live : PositionReply) (now : ℚ)
    (nowMs : ℕ) (rungs : List (ℕ × TPLevel)) {position : PositionContext}
    (h : position.DispatchedTriggered)
    (hrungs : ∀ rung ∈ rungs, rung.1 < position.tpLevels.length) (j : ℕ) :
    (rungs.foldl
        (fun context (rung : ℕ × TPLevel) =>
          (MultiTp.handleTpTriggered context rung.1 triggerSource live now nowMs).1)
        position).Triggered j ↔
      position.Triggered j ∨ ∃ rung ∈ rungs, rung.1 = j := by
  induction rungs generalizing position with
  | nil => simp
  | cons first rest ih =>
    obtain ⟨hdispatched, hlength, htriggered⟩ := triggered_handleTpTriggered h
      (hrungs first List.mem_cons_self) triggerSource live now nowMs
    rw [List.foldl_cons, ih hdispatched fun rung hr => by
      rw [hlength]
      exact hrungs rung (List.mem_cons_of_mem _ hr)]
    rw [htriggered, List.exists_mem_cons_iff, or_assoc, eq_comm (a := j)]

namespace RestPass

section Missing

variable {row : PositionRow} {openOrders : List String} {rung : ℕ × TPLevel}

theorem level_of_mem_missing (h : rung ∈ missing row openOrders) :
    row.tpLevels[rung.1]? = some rung.2 ∧ rung.2.status ≠ .triggered := by
  obtain ⟨hcandidate, -⟩ := List.mem_filter.mp h
  obtain ⟨hmem, hcond⟩ := List.mem_filter.mp hcandidate
  obtain ⟨swapped, hswapped, rfl⟩ := List.mem_map.mp hmem
  refine ⟨?_, fun hstatus => ?_⟩
  · have hget := List.mem_zipIdx_iff_getElem?.mp hswapped
    exact hget
  · have hlevel : swapped.1.status = .triggered := hstatus
    simp [hlevel] at hcond

theorem lt_of_mem_missing (h : rung ∈ missing row openOrders) : rung.1 < row.tpLevels.length :=
  (List.getElem?_eq_some_iff.mp (level_of_mem_missing h).1).1

end Missing

theorem acceptFrom_subset (originalQuantity observedClosed : ℚ) (rungs : List (ℕ × TPLevel)) :
    ∀ cumulative, acceptFrom originalQuantity observedClosed cumulative rungs ⊆ rungs := by
  induction rungs with
  | nil => exact fun _ => List.Subset.refl _
  | cons first rest ih =>
    intro cumulative
    rw [acceptFrom]
    split
    · exact List.cons_subset_cons _ (ih _)
    · exact List.nil_subset _

/-! ## The situation -/

/-- The situation of a poll: an open multi-TP row, the rungs that were filled since the entry with
what each has executed, and the size that the exchange reports. -/
structure Situation (row : PositionRow) (liveSize lotStep : ℚ) (fills : Finset ℕ)
    (executed : ℕ → ℚ) : Prop where
  isOpen : row.status = .open
  notClosed : row.state ≠ .closed
  multi : row.tpMode = .multi
  original_nonneg : 0 ≤ row.originalQuantity.getD 0
  closePct_nonneg : ∀ level ∈ row.tpLevels, 0 ≤ level.closePct
  /-- each filled rung has executed what it closes, within a lot and above half of it -/
  executed_near : ∀ i ∈ fills, ∃ level, row.tpLevels[i]? = some level ∧
    nominal (row.originalQuantity.getD 0) (i, level) - lotStep < executed i ∧
    nominal (row.originalQuantity.getD 0) (i, level) * (1 / 2) < executed i ∧
    executed i ≤ nominal (row.originalQuantity.getD 0) (i, level)
  size : liveSize = row.originalQuantity.getD 0 - ∑ i ∈ fills, executed i
  triggered : ∀ i, (fromDbRow row.toRow).Triggered i → i ∈ fills

section Situation

variable {row : PositionRow} {liveSize lotStep : ℚ} {fills : Finset ℕ} {executed : ℕ → ℚ}
  {openOrders : List String}

theorem Situation.nominal_nonneg (h : Situation row liveSize lotStep fills executed)
    {rung : ℕ × TPLevel} (hrung : row.tpLevels[rung.1]? = some rung.2) :
    0 ≤ nominal (row.originalQuantity.getD 0) rung :=
  mul_nonneg h.original_nonneg
    (div_nonneg (h.closePct_nonneg _ (List.mem_of_getElem? hrung)) (by norm_num))

theorem Situation.observed (h : Situation row liveSize lotStep fills executed) :
    max (row.originalQuantity.getD 0 - liveSize) 0 = ∑ i ∈ fills, executed i := by
  have hnonneg : 0 ≤ ∑ i ∈ fills, executed i := by
    refine Finset.sum_nonneg fun i hi => ?_
    obtain ⟨level, hlevel, -, hhalf, -⟩ := h.executed_near i hi
    have hnominal := @nominal_nonneg _ _ _ _ _ h (i, level) hlevel
    linarith
  rw [h.size, sub_sub_cancel, max_eq_left hnonneg]

/-- **A missing rung is accepted** exactly if what has been closed covers half of the missing rungs
up to it. -/
theorem mem_acceptedLevels_iff (h : Situation row liveSize lotStep fills executed)
    (rung : ℕ × TPLevel) :
    rung ∈ acceptedLevels (fromDbRow row.toRow) liveSize openOrders ↔
      ∃ front back, missing row openOrders = front ++ rung :: back ∧
        ((front.map (nominal (row.originalQuantity.getD 0))).sum +
            nominal (row.originalQuantity.getD 0) rung) * (1 / 2) ≤
          ∑ i ∈ fills, executed i + positionEpsilon := by
  have hmem := @mem_acceptFrom_iff (row.originalQuantity.getD 0)
    (max (row.originalQuantity.getD 0 - liveSize) 0) 0 (missing row openOrders)
    (fun rung hr => h.nominal_nonneg (level_of_mem_missing hr).1) rung
  rw [h.observed] at hmem
  simp only [zero_add] at hmem
  rw [← hmem, acceptedLevels]
  have hobserved : max ((fromDbRow row.toRow).originalQuantity - liveSize) 0 =
      ∑ i ∈ fills, executed i := h.observed
  rw [hobserved]
  exact Iff.rfl

/-- **The poll triggers the accepted rungs** and no other ones, as long as a position is held. -/
theorem triggered_reconciled (h : Situation row liveSize lotStep fills executed)
    (hheld : positionEpsilon < liveSize) (live : PositionReply) (now : ℚ) (nowMs : ℕ) (i : ℕ) :
    (reconciled row liveSize (some openOrders) live now nowMs).Triggered i ↔
      (fromDbRow row.toRow).Triggered i ∨
        ∃ rung ∈ acceptedLevels (fromDbRow row.toRow) liveSize openOrders, rung.1 = i := by
  have hdecide : RestPass.decide row liveSize (some openOrders) =
      if acceptedLevels (fromDbRow row.toRow) liveSize openOrders = [] then none
      else some
        { context := fromDbRow row.toRow
          accepted := acceptedLevels (fromDbRow row.toRow) liveSize openOrders
          liveSize := liveSize } := by
    rw [RestPass.decide, if_neg (not_le.mpr hheld),
      if_neg (by simp [h.isOpen, h.notClosed, h.multi])]
    rfl
  rw [reconciled, hdecide]
  by_cases hnone : acceptedLevels (fromDbRow row.toRow) liveSize openOrders = []
  · rw [hnone]
    simp
  · rw [if_neg hnone]
    exact @triggered_foldl_handleTpTriggered "rest_reconcile_inferred" live now nowMs _
      { fromDbRow row.toRow with currentQuantity := _ }
      (fun i hi => absurd hi (Finset.notMem_empty i))
      (fun rung hr => lt_of_mem_missing (acceptFrom_subset _ _ _ _ hr)) i

end Situation

/-- The poll advances no rung that was not filled. -/
def InventsNothing (row : PositionRow) (fills : Finset ℕ) (context : PositionContext) : Prop :=
  ∀ i, context.Triggered i → (fromDbRow row.toRow).Triggered i ∨ i ∈ fills

/-- The condition: if a position is held then for every missing rung that was not filled, what all
filled rungs have executed stays below half of what the missing rungs up to it close together. -/
def CancelledStandOut (row : PositionRow) (liveSize : ℚ) (openOrders : List String)
    (fills : Finset ℕ) (executed : ℕ → ℚ) : Prop :=
  positionEpsilon < liveSize →
    ∀ front rung back, missing row openOrders = front ++ rung :: back → rung.1 ∉ fills →
      ∑ i ∈ fills, executed i + positionEpsilon <
        ((front.map (nominal (row.originalQuantity.getD 0))).sum +
          nominal (row.originalQuantity.getD 0) rung) * (1 / 2)

/-- **The poll invents no fill** exactly if every cancelled rung stands out. -/
theorem restInference_sound_iff {row : PositionRow} {liveSize lotStep : ℚ} {fills : Finset ℕ}
    {executed : ℕ → ℚ} (h : Situation row liveSize lotStep fills executed)
    (openOrders : List String) (live : PositionReply) (now : ℚ) (nowMs : ℕ) :
    InventsNothing row fills (reconciled row liveSize (some openOrders) live now nowMs) ↔
      CancelledStandOut row liveSize openOrders fills executed := by
  constructor
  · intro hsound hheld front rung back hsplit hcancelled
    by_contra hcovered
    have haccepted := (mem_acceptedLevels_iff h rung).mpr ⟨front, back, hsplit, not_lt.mp hcovered⟩
    have hmissing : rung ∈ missing row openOrders := acceptFrom_subset _ _ _ _ haccepted
    obtain ⟨hlevel, hstatus⟩ := level_of_mem_missing hmissing
    have htriggered := (triggered_reconciled h hheld live now nowMs _).mpr
      (.inr ⟨rung, haccepted, rfl⟩)
    rcases hsound rung.1 htriggered with hbefore | hfill
    · -- a missing rung is not triggered yet
      have hget : (fromDbRow row.toRow).tpLevels[rung.1]? = some rung.2 := hlevel
      rw [Triggered, hget] at hbefore
      exact hstatus (Option.some.inj hbefore)
    · exact hcancelled hfill
  · intro hstand i hi
    by_cases hheld : positionEpsilon < liveSize
    · rcases (triggered_reconciled h hheld live now nowMs i).mp hi with
        hbefore | ⟨rung, haccepted, rfl⟩
      · exact .inl hbefore
      · right
        obtain ⟨front, back, hsplit, hcovered⟩ := (mem_acceptedLevels_iff h rung).mp haccepted
        by_contra hcancelled
        exact absurd hcovered (not_le.mpr (hstand hheld front rung back hsplit hcancelled))
    · -- a position that is gone is no longer reconciled
      have hdecide : RestPass.decide row liveSize (some openOrders) = none := by
        rw [RestPass.decide, if_pos (not_lt.mp hheld)]
      rw [reconciled, hdecide] at hi
      exact .inl hi

/-! ## A cancelled rung -/

def rungOf (closePct : ℚ) (status : TPStatus) (orderId : String) : TPLevel :=
  { closePct := closePct, triggerPrice := 110, status := status, exchangeOrderId := some orderId }

/-- Four units with two rungs of a quarter and a final one of the half; the first rung has the
status given. -/
def ladderRow (first : TPStatus) : PositionRow where
  entryPrice := 100
  quantity := 4
  tpMode := .multi
  originalQuantity := some 4
  tpLevels := [rungOf 25 first "1", rungOf 25 .open "2", rungOf 50 .open "3"]

theorem situation_ladderRow {first : TPStatus} :
    Situation (ladderRow first) 3 (1 / 1000) {0} (fun _ => 1) where
  isOpen := rfl
  notClosed := PositionState.noConfusion
  multi := rfl
  original_nonneg := by norm_num [ladderRow]
  closePct_nonneg := by simp [ladderRow, rungOf]
  executed_near := by
    intro i hi
    obtain rfl := Finset.mem_singleton.mp hi
    refine ⟨rungOf 25 first "1", rfl, ?_, ?_, ?_⟩ <;> norm_num [nominal, ladderRow, rungOf]
  size := by norm_num [ladderRow]
  triggered := by
    intro i hi
    match i with
    | 0 => exact Finset.mem_singleton_self 0
    | 1 => exact absurd (Option.some.inj hi) TPStatus.noConfusion
    | 2 => exact absurd (Option.some.inj hi) TPStatus.noConfusion
    | i + 3 => exact absurd hi (by simp [Triggered, fromDbRow, ladderRow])

/-- The first rung has been filled, its order is gone and the others rest: the poll advances what
was filled. -/
theorem restInference_filled :
    InventsNothing (ladderRow .open) {0}
      (reconciled (ladderRow .open) 3 (some ["2", "3"]) .noPosition 0 0) := by
  refine (restInference_sound_iff (situation_ladderRow) ["2", "3"] .noPosition 0 0).mpr ?_
  intro _ front rung back hsplit hcancelled
  have hmissing : missing (ladderRow .open) ["2", "3"] = [(0, rungOf 25 .open "1")] := by decide
  have hmem : rung ∈ missing (ladderRow .open) ["2", "3"] := by
    rw [hsplit]
    exact List.mem_append_right _ List.mem_cons_self
  rw [hmissing, List.mem_singleton] at hmem
  exact absurd (Finset.mem_singleton.mpr (congrArg Prod.fst hmem)) hcancelled

/-- **The poll invents a fill**: the first rung was filled and advanced before, the second one is
cancelled, and what the first one has closed bears out the second one. -/
theorem restInference_invents :
    ¬ ∀ (row : PositionRow) (liveSize lotStep : ℚ) (fills : Finset ℕ) (executed : ℕ → ℚ),
      Situation row liveSize lotStep fills executed →
        ∀ (openOrders : Option (List String)) (live : PositionReply) (now : ℚ) (nowMs : ℕ),
          InventsNothing row fills (reconciled row liveSize openOrders live now nowMs) := by
  intro hall
  have hsound := hall (ladderRow .triggered) 3 (1 / 1000) {0} (fun _ => 1) situation_ladderRow
    (some ["3"]) .noPosition 0 0 1
  have hadvanced :
      (reconciled (ladderRow .triggered) 3 (some ["3"]) .noPosition 0 0).Triggered 1 := by
    decide +kernel
  rcases hsound hadvanced with hbefore | hfill
  · exact absurd hbefore (by decide)
  · exact absurd hfill (by decide)

end RestPass

end AdviserConstructor
