import AdviserConstructor.Ws.Reconciler

/-!
# Reductions that are no take-profit fills

`Ws.Reconciler` asks whether the partial-close reconciler loses a fill.  This module asks whether it
invents one.  A position may shrink without any of its take-profit orders being filled: a watcher
closes a part of it (`close_partial` in `app/services/watchers/event_bus.py`), or somebody reduces
it by hand.  All that a position update shows is the size behind it.

A step of `reductionStep` is a step of a `TpRun`, a reduction, or the arrival of an order event of
an order that is none of the levels'.  Nothing in the handler of such an event ends a pending
reconciler.

* `inventsNothing_iff`: in every state of a run only filled levels are triggered, and only their
  stop shifts are dispatched, if and only if whenever a reconciler fires, each unfilled level whose
  quantity the shrink resembles is outdone by a filled one that it resembles more.
* `closePartial_invents`: the watcher's default of a quarter, on a ladder whose first level closes a
  quarter.
-/

namespace AdviserConstructor

open PositionContext StepSystem

/-! ## The run -/

/-- The quantity that `close_partial` of `handle_watcher_event` closes, if it closes anything. -/
def closePartialQuantity (position : PositionContext) (closePct : ℚ) : Option ℚ :=
  if closePct ≤ 0 then none
  else
    let closeQty := position.currentQuantity * min closePct 100 / 100
    if closeQty ≤ 0 then none else some closeQty

/-- The event is of an order that is none of the levels'. -/
def describesNoLevel (position : PositionContext) (event : OrderEvent) : Bool :=
  event.ids ≠ [] && !position.tpLevels.any (carries event)

/-- What happens next. -/
inductive ReductionEvent where
  | tp (event : TpEvent)
  /-- the position is reduced by something else than its take-profit orders -/
  | reduction (quantity : ℚ)
  /-- a watcher closes a part of the position -/
  | closePartial (closePct : ℚ)
  /-- an order event of an order that is none of the levels' -/
  | otherOrder (event : OrderEvent) (answers : Answers)

namespace PositionContext

/-- The shrink is within the tolerance of what the level `i` closes, and the level is open. -/
def Resembles (position : PositionContext) (deltaQty : ℚ) (i : ℕ) : Prop :=
  (0 < deltaQty ∧ 0 < position.originalQuantity) ∧ ¬ position.Triggered i ∧
    0 < position.quantityOf i ∧
      |deltaQty - position.quantityOf i| / position.quantityOf i ≤ partialCloseQtyTolerancePct

/-- The shrink resembles the level `j`, and more than the level `i`, or as much and `j` comes
first. -/
def Outdoes (position : PositionContext) (deltaQty : ℚ) (j i : ℕ) : Prop :=
  let deviation := fun k => |deltaQty - position.quantityOf k| / position.quantityOf k
  position.Resembles deltaQty j ∧
    (deviation j < deviation i ∨ deviation j = deviation i ∧ j < i)

instance (position : PositionContext) (deltaQty : ℚ) (i : ℕ) :
    Decidable (position.Resembles deltaQty i) := inferInstanceAs (Decidable (_ ∧ _))

instance (position : PositionContext) (deltaQty : ℚ) (j i : ℕ) :
    Decidable (position.Outdoes deltaQty j i) := inferInstanceAs (Decidable (_ ∧ _))

section Resembles

variable {position : PositionContext} {deltaQty : ℚ} {i : ℕ}

theorem quantityOf_of_getElem? {level : TPLevel} (h : position.tpLevels[i]? = some level) :
    position.quantityOf i = MultiTp.levelQuantity position level := by
  unfold quantityOf
  rw [h, Option.map_some, Option.getD_some]

theorem quantityDistance_eq_some_iff {level : TPLevel} {d : ℚ}
    (h : position.tpLevels[i]? = some level)
    (hshrink : 0 < deltaQty ∧ 0 < position.originalQuantity) :
    position.quantityDistance deltaQty level = some d ↔
      position.Resembles deltaQty i ∧
        d = |deltaQty - position.quantityOf i| / position.quantityOf i := by
  have htriggered : position.Triggered i ↔ level.status = .triggered := by
    unfold Triggered
    rw [h, Option.map_some, Option.some.injEq]
  unfold Resembles quantityDistance
  rw [quantityOf_of_getElem? h, htriggered]
  change (if level.status = .triggered ∨ MultiTp.levelQuantity position level ≤ 0 ∨
    partialCloseQtyTolerancePct < |deltaQty - MultiTp.levelQuantity position level| /
      MultiTp.levelQuantity position level then none else some _) = some d ↔ _
  split
  case isTrue hout =>
    refine iff_of_false (by simp) fun hin => ?_
    obtain ⟨⟨-, hopen, hpositive, htolerance⟩, -⟩ := hin
    rcases hout with hdone | hnone | hfar
    · exact hopen hdone
    · exact not_lt.mpr hnone hpositive
    · exact not_lt.mpr htolerance hfar
  case isFalse hin =>
    simp only [not_or, not_le, not_lt] at hin
    rw [Option.some.injEq, and_iff_right ⟨hshrink, hin⟩]
    exact eq_comm

theorem Resembles.exists_level (h : position.Resembles deltaQty i) :
    ∃ level, position.tpLevels[i]? = some level := by
  cases hlevel : position.tpLevels[i]? with
  | some level => exact ⟨level, rfl⟩
  | none =>
    have hpositive := h.2.2.1
    unfold quantityOf at hpositive
    rw [hlevel, Option.map_none] at hpositive
    exact absurd hpositive (lt_irrefl 0)

/-- **The level that a shrink is matched to** resembles it, and is outdone by none. -/
theorem closestOpenTpLevelByQty_outdoes
    (h : position.closestOpenTpLevelByQty deltaQty = some i) :
    position.Resembles deltaQty i ∧ ∀ j, ¬ position.Outdoes deltaQty j i := by
  unfold closestOpenTpLevelByQty at h
  split at h
  case isTrue => exact absurd h (by simp)
  case isFalse hshrink =>
    rw [not_or, not_le, not_le] at hshrink
    obtain ⟨level, d, hlevel, hdistance, hleast⟩ := closestLevel_spec h
    obtain ⟨hresembles, rfl⟩ := (quantityDistance_eq_some_iff hlevel hshrink).mp hdistance
    refine ⟨hresembles, fun j ⟨hother, hless⟩ => ?_⟩
    obtain ⟨other, hj⟩ := hother.exists_level
    have hnear := hleast j other _ hj
      ((quantityDistance_eq_some_iff hj hshrink).mpr ⟨hother, rfl⟩)
    rcases hnear with hlt | ⟨heq, hle⟩
    · rcases hless with hless | ⟨hless, -⟩
      · exact lt_asymm hlt hless
      · exact absurd hless hlt.ne'
    · rcases hless with hless | ⟨-, hless⟩
      · exact absurd heq hless.ne'
      · exact Nat.not_lt.mpr hle hless

theorem exists_closestOpenTpLevelByQty (h : position.Resembles deltaQty i) :
    ∃ j, position.closestOpenTpLevelByQty deltaQty = some j ∧
      (j = i ∨ position.Outdoes deltaQty j i) := by
  obtain ⟨level, hlevel⟩ := h.exists_level
  have hdistance := (quantityDistance_eq_some_iff hlevel h.1).mpr ⟨h, rfl⟩
  have hunfold : position.closestOpenTpLevelByQty deltaQty =
      closestLevel (position.quantityDistance deltaQty) position.tpLevels :=
    if_neg (by rw [not_or, not_le, not_le]; exact h.1)
  obtain ⟨j, hj⟩ := Option.ne_none_iff_exists'.mp (closestLevel_ne_none hlevel hdistance)
  rw [hunfold]
  refine ⟨j, hj, ?_⟩
  obtain ⟨other, d, hother, hd, hleast⟩ := closestLevel_spec hj
  obtain ⟨hresembles, rfl⟩ := (quantityDistance_eq_some_iff hother h.1).mp hd
  rcases hleast i level _ hlevel hdistance with hlt | ⟨heq, hle⟩
  · exact Or.inr ⟨hresembles, Or.inl hlt⟩
  · rcases hle.lt_or_eq with hlt | rfl
    · exact Or.inr ⟨hresembles, Or.inr ⟨heq, hlt⟩⟩
    · exact Or.inl rfl

end Resembles

end PositionContext

namespace TpRun

/-- The exchange reduces the position, by what is left of it at most. -/
def reduce (s : TpRun) (quantity : ℚ) : TpRun :=
  let size := max (s.exchangeSize - quantity) 0
  { s with
    exchangeSize := size
    sizes := s.sizes ++ [(size, s.fills.length)] }

def reductionStep (s : TpRun) : ReductionEvent → Option TpRun
  | .tp event => step s event
  | .reduction quantity => if 0 < quantity then some (s.reduce quantity) else none
  | .closePartial closePct => (closePartialQuantity s.position closePct).map s.reduce
  | .otherOrder event answers =>
      if describesNoLevel s.position event = true ∧ s.Truthful answers then
        some (s.apply answers (s.position.routeLifecycleEvent answers event s.reconciler))
      else none

/-- Only levels that were filled are triggered, and only their stop shifts are dispatched. -/
def InventsNothing (s : TpRun) : Prop :=
  ∀ i, s.position.Triggered i ∨ i ∈ s.position.dispatchedSlLevels → i ∈ s.fills

/-- The condition on a step: when the reconciler fires with the shrink `deltaQty`, each open level
that was not filled and whose quantity the shrink resembles is outdone by one that was. -/
def Borne (s : TpRun) : ReductionEvent → Prop
  | .tp (.reconcile _) => s.position.isLive = true → ∀ deltaQty ∈ s.reconciler,
      ∀ i < s.position.tpLevels.length, s.position.Resembles deltaQty i → i ∉ s.fills →
        ∃ j ∈ s.fills, s.position.Outdoes deltaQty j i
  | _ => True

instance (s : TpRun) (e : ReductionEvent) : Decidable (s.Borne e) := by
  unfold Borne
  split <;> infer_instance

/-! ## What a step triggers -/

section Steps

variable {s t : TpRun} {event : OrderEvent} {answers : Answers}

theorem inventsNothing_iff_of_underway (h : s.position.Underway) :
    s.InventsNothing ↔ ∀ i, s.position.Triggered i → i ∈ s.fills := by
  constructor
  · exact fun hall i hi => hall i (.inl hi)
  · rintro hall i (hi | hi)
    · exact hall i hi
    · exact hall i (h.dispatched i hi)

theorem triggered_settled_of_keepsLevels {position : PositionContext} {handled : Handled}
    (h : position.Underway) (hkeeps : KeepsLevels position handled.position) :
    (handled.settled answers).Underway ∧
      ∀ j, (handled.settled answers).Triggered j ↔ position.Triggered j := by
  rw [Handled.settled]
  split
  · exact ⟨(hkeeps.underway h).cancelRemaining answers,
      fun _ => (triggered_cancelRemaining answers).trans hkeeps.triggered_iff⟩
  · exact ⟨hkeeps.underway h, fun _ => hkeeps.triggered_iff⟩

theorem keepsLevels_handleSlTriggeredEvent {position : PositionContext} {reconciler : Option ℚ}
    {handled : Handled}
    (h : position.handleSlTriggeredEvent answers event reconciler = some handled) :
    KeepsLevels position handled.position := by
  rw [handleSlTriggeredEvent] at h
  by_cases hstop : position.isSlTriggerEvent event = true
  · rw [if_neg (by simp [hstop])] at h
    by_cases hclosed : position.state = .closed ∧ position.currentQuantity ≤ 0
    · rw [if_pos hclosed] at h
      exact Option.some.inj h ▸ KeepsLevels.refl position
    · rw [if_neg hclosed] at h
      have hfirst := keepsLevels_applyTransition answers position
        (show TransitionTrigger.slTriggered ≠ .syncComplete by simp)
      dsimp only at h
      split at h
      · exact Option.some.inj h ▸ hfirst
      · obtain rfl := Option.some.inj h
        -- the booking writes the quantity and the history of the stop
        refine hfirst.trans (KeepsLevels.trans ?_
          (keepsLevels_applyTransition answers _ (show TransitionTrigger.allClosed ≠ _ by simp)))
        exact ⟨rfl, rfl, rfl, rfl, id⟩
  · rw [if_pos (by simp [hstop])] at h
    cases h

theorem handleMultiTpEvent_of_describesNoLevel {position : PositionContext}
    (hother : describesNoLevel position event = true) (reconciler : Option ℚ) :
    position.handleMultiTpEvent answers event reconciler =
      { position := position, reconciler := reconciler } := by
  simp only [describesNoLevel, Bool.and_eq_true, decide_eq_true_eq, Bool.not_eq_true',
    List.any_eq_false] at hother
  obtain ⟨hids, hcarries⟩ := hother
  have hdone : position.eventMatchesTriggeredLevel event = false := by
    rw [eventMatchesTriggeredLevel, List.any_eq_false]
    intro level hlevel
    simp [hcarries level hlevel]
  have hnone : position.matchTpLevel event = none := by
    rw [matchTpLevel, if_pos hids, List.findIdx?_eq_none_iff]
    intro level hlevel
    simp [hcarries level hlevel]
  rw [handleMultiTpEvent, hdone, hnone]
  rfl

theorem keepsLevels_handleTpTriggeredEvent {position : PositionContext} {reconciler : Option ℚ}
    {handled : Handled} (hother : describesNoLevel position event = true)
    (h : position.handleTpTriggeredEvent answers event reconciler = some handled) :
    KeepsLevels position handled.position := by
  have hmulti := @handleMultiTpEvent_of_describesNoLevel event answers position hother reconciler
  have hsingle : KeepsLevels position
      (position.handleSingleTpEvent answers reconciler).position := by
    rw [handleSingleTpEvent]
    split
    · exact KeepsLevels.refl position
    · have hempty : KeepsLevels position { position with currentQuantity := 0 } :=
        ⟨rfl, rfl, rfl, rfl, id⟩
      exact hempty.trans
        (keepsLevels_closePosition answers _ (show TransitionTrigger.tpTriggered ≠ _ by simp))
  rw [handleTpTriggeredEvent, hmulti] at h
  split at h
  · cases h
  · split at h
    · exact Option.some.inj h ▸ KeepsLevels.refl position
    · exact Option.some.inj h ▸ hsingle

theorem handleEntryFillEvent_of_underway {position : PositionContext} (h : position.Underway)
    (reconciler : Option ℚ) : position.handleEntryFillEvent answers event reconciler = none := by
  have hentered := h.entered.1
  simp only [beforeEntry, List.mem_cons, not_or] at hentered
  rw [handleEntryFillEvent, if_pos (.inl hentered.2.1)]

/-- **An order event of another order** triggers no level. -/
theorem keepsLevels_routeLifecycleEvent {position : PositionContext} (h : position.Underway)
    (hother : describesNoLevel position event = true) (reconciler : Option ℚ) :
    KeepsLevels position (position.routeLifecycleEvent answers event reconciler).position := by
  rw [routeLifecycleEvent, handleEntryFillEvent_of_underway h]
  cases hsl : position.handleSlTriggeredEvent answers event reconciler with
  | some handled => exact keepsLevels_handleSlTriggeredEvent hsl
  | none =>
    cases htp : position.handleTpTriggeredEvent answers event reconciler with
    | some handled => exact keepsLevels_handleTpTriggeredEvent hother htp
    | none => exact KeepsLevels.refl position

/-- The level that the reconciler infers has filled if and only if each unfilled one that the
shrink resembles is outdone by a filled one. -/
theorem inferred_filled_iff :
    (∀ i ∈ s.inferred, i ∈ s.fills) ↔ s.Borne (.tp (.reconcile answers)) := by
  unfold inferred Borne
  by_cases hlive : s.position.isLive = true
  · rw [if_pos hlive]
    cases hreconciler : s.reconciler with
    | none => exact iff_of_true (by simp) fun _ _ hdelta => absurd hdelta (by simp)
    | some deltaQty =>
      constructor
      · rintro hfilled - _ ⟨⟩ i - hresembles hunfilled
        obtain ⟨j, hj, heq | houtdoes⟩ := exists_closestOpenTpLevelByQty hresembles
        · exact absurd (hfilled j hj) (heq ▸ hunfilled)
        · exact ⟨j, hfilled j hj, houtdoes⟩
      · intro hborne i hi
        by_contra hunfilled
        obtain ⟨hresembles, hnone⟩ := closestOpenTpLevelByQty_outdoes hi
        obtain ⟨level, hlevel⟩ := hresembles.exists_level
        obtain ⟨j, -, houtdoes⟩ := hborne hlive deltaQty rfl i
          (List.getElem?_eq_some_iff.mp hlevel).1 hresembles hunfilled
        exact hnone j houtdoes
  · rw [if_neg hlive]
    exact iff_of_true (by simp) fun h => absurd h hlive

/-- What a step leads to: the position is underway as before, and if nothing had been invented then
nothing is exactly if the step is borne out. -/
theorem step_inventsNothing_iff (h : s.position.Underway) (hs : s.InventsNothing)
    {e : ReductionEvent} (hstep : reductionStep s e = some t) :
    t.position.Underway ∧ (t.InventsNothing ↔ s.Borne e) := by
  rw [inventsNothing_iff_of_underway h] at hs
  -- a step that triggers nothing and forgets no fill invents nothing
  have hquiet : t.position.Underway → (∀ j, t.position.Triggered j → s.position.Triggered j) →
      s.fills ⊆ t.fills → t.InventsNothing := by
    intro hunderway htriggered hfills
    rw [inventsNothing_iff_of_underway hunderway]
    exact fun i hi => hfills (hs i (htriggered i hi))
  cases e with
  | tp event =>
    have hstep : step s event = some t := hstep
    cases event with
    | fill i =>
      simp only [step] at hstep
      split at hstep
      · cases hstep
      · split at hstep
        · cases hstep
          exact ⟨h, iff_of_true (hquiet h (fun _ => id) (List.subset_append_left ..)) trivial⟩
        · cases hstep
    | orderUpdate i event answers =>
      have hfilled : i ∈ s.fills := by
        simp only [step] at hstep
        split at hstep
        · next hguard => exact hguard.1
        · cases hstep
      obtain ⟨⟨-, hfills, -⟩, hunderway, -, htriggered⟩ := triggered_orderUpdate h hstep
      refine ⟨hunderway, iff_of_true ?_ trivial⟩
      rw [inventsNothing_iff_of_underway hunderway, hfills]
      intro j hj
      rcases (htriggered j).mp hj with hj | rfl
      · exact hs j hj
      · exact hfilled
    | positionUpdate size answers =>
      simp only [step] at hstep
      split at hstep
      · cases hstep
      · split at hstep
        · cases hstep
          obtain ⟨hunderway, -, htriggered⟩ :=
            settled_positionUpdate h answers size s.reconciler
          refine ⟨hunderway, iff_of_true ?_ trivial⟩
          exact hquiet hunderway (fun j => (htriggered j).mp) (List.Subset.refl _)
        · cases hstep
    | reconcile answers =>
      obtain ⟨⟨-, hfills, -⟩, hunderway, -, htriggered⟩ := triggered_reconcile h hstep
      refine ⟨hunderway, ?_⟩
      rw [inventsNothing_iff_of_underway hunderway, hfills, ← inferred_filled_iff]
      constructor
      · exact fun hall i hi => hall i ((htriggered i).mpr (.inr hi))
      · intro hborne i hi
        rcases (htriggered i).mp hi with hi | hi
        · exact hs i hi
        · exact hborne i hi
  | reduction quantity =>
    simp only [reductionStep] at hstep
    split at hstep
    · cases hstep
      exact ⟨h, iff_of_true (hquiet h (fun _ => id) (List.Subset.refl _)) trivial⟩
    · cases hstep
  | closePartial closePct =>
    obtain ⟨quantity, -, rfl⟩ := Option.map_eq_some_iff.mp hstep
    exact ⟨h, iff_of_true (hquiet h (fun _ => id) (List.Subset.refl _)) trivial⟩
  | otherOrder event answers =>
    simp only [reductionStep] at hstep
    split at hstep
    · next hguard =>
      cases hstep
      obtain ⟨hunderway, htriggered⟩ := triggered_settled_of_keepsLevels h
        (keepsLevels_routeLifecycleEvent h hguard.1 s.reconciler)
      refine ⟨hunderway, iff_of_true ?_ trivial⟩
      exact hquiet hunderway (fun j => (htriggered j).mp) (List.Subset.refl _)
    · cases hstep

end Steps

/-! ## Runs -/

/-- A multi-TP position behind its entry, none of whose levels has been advanced. -/
structure Untouched (start : PositionContext) : Prop where
  multi : start.tpMode = .multi
  live : start.isLive = true
  machine : start.stateMachine.state = start.state
  waiting : ∀ level ∈ start.tpLevels, level.status ≠ .triggered
  undispatched : start.dispatchedSlLevels = ∅

theorem Untouched.underway {start : PositionContext} (h : Untouched start) : start.Underway where
  multi := h.multi
  entered := by
    have hlive := h.live
    simp only [PositionContext.isLive, Bool.or_eq_true, decide_eq_true_eq] at hlive
    have hstate : start.state ∉ beforeEntry := by
      rcases hlive with hlive | hlive <;> rw [hlive] <;> decide
    exact ⟨hstate, h.machine ▸ hstate⟩
  dispatched := fun i hi => by
    rw [h.undispatched] at hi
    exact absurd hi (Finset.notMem_empty i)

theorem Untouched.inventsNothing {start : PositionContext} (h : Untouched start) :
    (initial start).InventsNothing := by
  rw [inventsNothing_iff_of_underway h.underway]
  intro i hi
  obtain ⟨level, hlevel, hstatus⟩ := Option.map_eq_some_iff.mp hi
  exact absurd hstatus (h.waiting level (List.mem_of_getElem? hlevel))

/-- **The reconciler invents no fill in any state of a run** if and only if whenever it fires, each
unfilled level that the shrink resembles is outdone by a filled one. -/
theorem inventsNothing_iff {start : PositionContext} (h : Untouched start) {s : TpRun}
    {es : List ReductionEvent} (hrun : run reductionStep (initial start) es = some s) :
    (∀ es' u, es' <+: es → run reductionStep (initial start) es' = some u → u.InventsNothing) ↔
      AlongRun reductionStep Borne (initial start) es := by
  rw [forall_prefix_iff_alongRun]
  have hsame : AlongRun reductionStep
        (fun s e => ∀ t, reductionStep s e = some t → t.InventsNothing) (initial start) es ↔
      AlongRun reductionStep Borne (initial start) es := by
    refine alongRun_iff_of_invariant reductionStep
      (I := fun s => s.position.Underway ∧ s.InventsNothing) ?_ ?_
      ⟨h.underway, h.inventsNothing⟩ hrun
    · rintro s e t ⟨hunderway, hnothing⟩ hnext hstep
      exact ⟨(step_inventsNothing_iff hunderway hnothing hstep).1, hnext t hstep⟩
    · rintro s e t ⟨hunderway, hnothing⟩ hstep
      rw [← (step_inventsNothing_iff hunderway hnothing hstep).2]
      constructor
      · exact fun hnext => hnext t hstep
      · intro ht u hu
        exact Option.some.inj (hstep.symm.trans hu) ▸ ht
  exact ⟨fun hall => hsame.mp hall.2, fun hborne => ⟨h.inventsNothing, hsame.mpr hborne⟩⟩

/-! ## A watcher closes a quarter -/

/-- A fill that is inferred, and a reduction that is like no level. -/
def unlikeReduction : List ReductionEvent :=
  [.tp (.fill 0), .tp (.positionUpdate (3 / 4) {}), .tp (.reconcile {}), .reduction (1 / 10),
    .tp (.positionUpdate (13 / 20) {}), .tp (.reconcile {})]

theorem untouched_quarters : Untouched quarters := by
  refine ⟨rfl, rfl, rfl, ?_, rfl⟩
  decide

theorem inventsNothing_unlikeReduction :
    ∃ s, run reductionStep (initial quarters) unlikeReduction = some s ∧
      ∀ es' u, es' <+: unlikeReduction → run reductionStep (initial quarters) es' = some u →
        u.InventsNothing := by
  have hborne : AlongRun reductionStep Borne (initial quarters) unlikeReduction := by
    decide +kernel
  have hend : (run reductionStep (initial quarters) unlikeReduction).isSome = true := by
    decide +kernel
  obtain ⟨s, hs⟩ := Option.isSome_iff_exists.mp hend
  exact ⟨s, hs, (inventsNothing_iff untouched_quarters hs).mpr hborne⟩

/-- **A fill is invented**: the watcher closes its default of a quarter, the event of its order
arrives, the position update shows the shrink, and the timer advances the first level, whose order
rests on the exchange. -/
theorem closePartial_invents :
    ¬ ∀ (start : PositionContext), Untouched start → ∀ (es : List ReductionEvent) (s : TpRun),
      run reductionStep (initial start) es = some s → s.InventsNothing := by
  intro hall
  have hend : (run reductionStep (initial quarters)
      [.closePartial 25, .otherOrder { clientOrderId := "watcher-close", status := "filled" } {},
        .tp (.positionUpdate (3 / 4) {}), .tp (.reconcile {})]).map
        (fun s => decide (s.position.Triggered 0 ∧ 0 ∉ s.fills)) = some true := by
    decide +kernel
  obtain ⟨s, hs, hstate⟩ := Option.map_eq_some_iff.mp hend
  obtain ⟨htriggered, hunfilled⟩ := of_decide_eq_true hstate
  exact hunfilled (hall quarters untouched_quarters _ s hs 0 (.inl htriggered))

end TpRun

end AdviserConstructor
