import Mathlib.Data.Finset.Basic
import AdviserConstructor.SlTp.MultiTp

/-!
# A fill of the multi-TP engine

What one call of `handle_tp_triggered` does to the position, apart from the task that it
dispatches: the levels that a list of fills leaves, and the two multi-step transitions.

* `transitionPartialClose_spec`, `transitionAllClosed_spec`: the paths through the state machine.
* `closeOrContinue_eq`: the transition behind a fill touches the state only.
* `handleTpTriggered_of_done`: a call without a level, or with one that is done, changes nothing.
* `fillPosition_of_new`: any other call books the fill and moves on.
-/

namespace AdviserConstructor
namespace PositionContext

open MultiTp

/-! ## The levels -/

/-- The levels after some fills; when the position is closed the others are cancelled. -/
def levelsAfter (closed : Bool) (fills : List ℕ) (levels : List TPLevel) : List TPLevel :=
  levels.mapIdx fun i level =>
    { level with
      status :=
        if i ∈ fills then .triggered else if closed then .cancelled else level.status }

theorem levelsAfter_getElem? (closed : Bool) (fills : List ℕ) (levels : List TPLevel) (i : ℕ) :
    (levelsAfter closed fills levels)[i]? =
      levels[i]?.map fun level =>
        { level with
          status :=
            if i ∈ fills then .triggered else if closed then .cancelled else level.status } := by
  rw [levelsAfter, List.getElem?_mapIdx]

@[simp] theorem length_levelsAfter (closed : Bool) (fills : List ℕ) (levels : List TPLevel) :
    (levelsAfter closed fills levels).length = levels.length := by
  rw [levelsAfter, List.length_mapIdx]

theorem levelsAfter_modify (closed : Bool) (fills : List ℕ) (levels : List TPLevel) (i : ℕ) :
    ((levelsAfter closed fills levels).modify i fun level => { level with status := .triggered }) =
      levelsAfter closed (fills ++ [i]) levels := by
  refine List.ext_getElem? fun j => ?_
  rw [List.getElem?_modify, levelsAfter_getElem?, levelsAfter_getElem?]
  cases levels[j]? with
  | none => simp
  | some level =>
    by_cases hij : i = j
    · subst hij
      simp
    · have hji : j ≠ i := Ne.symm hij
      simp [hij, hji]

theorem levelsAfter_congr (closed : Bool) {fills fills' : List ℕ} {levels : List TPLevel}
    (h : ∀ i < levels.length, i ∈ fills ↔ i ∈ fills') :
    levelsAfter closed fills levels = levelsAfter closed fills' levels := by
  refine List.ext_getElem? fun i => ?_
  rw [levelsAfter_getElem?, levelsAfter_getElem?]
  cases hi : levels[i]? with
  | none => rfl
  | some level =>
    have hmem := h i (List.getElem?_eq_some_iff.mp hi).1
    simp only [hmem]

@[simp] theorem map_closePct_levelsAfter (closed : Bool) (fills : List ℕ)
    (levels : List TPLevel) :
    (levelsAfter closed fills levels).map TPLevel.closePct = levels.map TPLevel.closePct := by
  refine List.ext_getElem? fun i => ?_
  rw [List.getElem?_map, levelsAfter_getElem?, List.getElem?_map, Option.map_map]
  rfl

/-! ## Transitions -/

theorem transition_of_valid {position : PositionContext} {trigger : TransitionTrigger}
    {target : PositionState} (hne : trigger ≠ .syncComplete)
    (h : validTransitions position.stateMachine.state trigger = some target) :
    ∃ machine, machine.state = target ∧
      position.transition trigger = { position with stateMachine := machine } := by
  have hfst := PositionStateMachine.transition_of_ne_syncComplete (m := position.stateMachine) hne
  rw [h] at hfst
  obtain ⟨⟨next, machine⟩, hmove, rfl⟩ := Option.map_eq_some_iff.mp hfst
  refine ⟨machine, PositionStateMachine.transition_state hmove, ?_⟩
  rw [transition, hmove]

variable {position : PositionContext}

theorem transition_of_invalid {trigger : TransitionTrigger}
    (h : validTransitions position.stateMachine.state trigger = none) :
    position.transition trigger = position := by
  rw [transition, PositionStateMachine.transition, h]

/-- A live position goes on after a partial close. -/
theorem transitionPartialClose_spec
    (h : position.stateMachine.state = .open ∨ position.stateMachine.state = .adjusting) :
    ∃ machine, machine.state = .open ∧
      transitionPartialClose position = { position with stateMachine := machine } := by
  unfold transitionPartialClose can PositionStateMachine.canTransition
  rcases h with h | h
  · obtain ⟨m, hm, hfirst⟩ := @transition_of_valid position .partialClose .closing (by simp)
      (by rw [h]; rfl)
    obtain ⟨m', hm', hsecond⟩ := @transition_of_valid { position with stateMachine := m }
      .partialClose .open (by simp) (by rw [hm]; rfl)
    refine ⟨m', hm', ?_⟩
    rw [h, hfirst]
    simp [validTransitions, hm, hsecond]
  · obtain ⟨m, hm, hfirst⟩ := @transition_of_valid position .tpTriggered .closing (by simp)
      (by rw [h]; rfl)
    obtain ⟨m', hm', hsecond⟩ := @transition_of_valid { position with stateMachine := m }
      .partialClose .open (by simp) (by rw [hm]; rfl)
    refine ⟨m', hm', ?_⟩
    rw [h, hfirst]
    simp [validTransitions, hsecond]

/-- A live position is closed, and a closed one stays so. -/
theorem transitionAllClosed_spec
    (h : position.stateMachine.state = .open ∨ position.stateMachine.state = .adjusting ∨
      position.stateMachine.state = .closed) :
    ∃ machine, machine.state = .closed ∧
      transitionAllClosed position = { position with stateMachine := machine } := by
  have hlive : validTransitions position.stateMachine.state .tpTriggered = some .closing →
      validTransitions position.stateMachine.state .allClosed = none →
      ∃ machine, machine.state = .closed ∧
        transitionAllClosed position = { position with stateMachine := machine } := by
    intro htp hall
    obtain ⟨m, hm, hfirst⟩ := @transition_of_valid position .tpTriggered .closing (by simp) htp
    obtain ⟨m', hm', hsecond⟩ := @transition_of_valid { position with stateMachine := m }
      .allClosed .closed (by simp) (by rw [hm]; rfl)
    refine ⟨m', hm', ?_⟩
    unfold transitionAllClosed can PositionStateMachine.canTransition
    rw [hall, hfirst]
    simp [hm, validTransitions, hsecond]
  rcases h with h | h | h
  · exact hlive (by rw [h]; rfl) (by rw [h]; rfl)
  · exact hlive (by rw [h]; rfl) (by rw [h]; rfl)
  · refine ⟨position.stateMachine, h, ?_⟩
    have hnone : ∀ trigger, validTransitions position.stateMachine.state trigger = none := by
      intro trigger
      rw [h]
      cases trigger <;> rfl
    unfold transitionAllClosed can PositionStateMachine.canTransition
    simp [transition_of_invalid (hnone .tpTriggered), hnone]

theorem transition_eq (position : PositionContext) (trigger : TransitionTrigger) :
    ∃ machine, position.transition trigger = { position with stateMachine := machine } := by
  unfold transition
  cases position.stateMachine.transition trigger with
  | none => exact ⟨position.stateMachine, rfl⟩
  | some moved => exact ⟨moved.2, rfl⟩

theorem transitionPartialClose_eq (position : PositionContext) :
    ∃ machine, transitionPartialClose position = { position with stateMachine := machine } := by
  obtain ⟨closing, hclosing⟩ := transition_eq position .partialClose
  obtain ⟨reopened, hreopened⟩ := transition_eq { position with stateMachine := closing }
    .partialClose
  obtain ⟨triggered, htriggered⟩ := transition_eq position .tpTriggered
  obtain ⟨settled, hsettled⟩ := transition_eq { position with stateMachine := triggered }
    .partialClose
  unfold transitionPartialClose
  rw [hclosing, htriggered]
  dsimp only
  split
  · split
    · exact ⟨reopened, hreopened⟩
    · exact ⟨closing, rfl⟩
  · exact ⟨settled, hsettled⟩

theorem transitionAllClosed_eq (position : PositionContext) :
    ∃ machine, transitionAllClosed position = { position with stateMachine := machine } := by
  obtain ⟨closed, hclosed⟩ := transition_eq position .allClosed
  obtain ⟨triggered, htriggered⟩ := transition_eq position .tpTriggered
  obtain ⟨done, hdone⟩ := transition_eq { position with stateMachine := triggered } .allClosed
  obtain ⟨part, hpart⟩ := transition_eq { position with stateMachine := triggered } .partialClose
  obtain ⟨settled, hsettled⟩ := transition_eq { position with stateMachine := part } .allClosed
  unfold transitionAllClosed
  rw [hclosed, htriggered]
  dsimp only
  split
  · exact ⟨closed, rfl⟩
  · split
    · exact ⟨done, hdone⟩
    · split
      · rw [hpart]
        exact ⟨settled, hsettled⟩
      · exact ⟨triggered, rfl⟩

/-- **The transition behind a fill touches the state only.** -/
theorem closeOrContinue_eq (position : PositionContext) :
    ∃ machine : PositionStateMachine, closeOrContinue position =
      { position with stateMachine := machine, state := machine.state } := by
  unfold closeOrContinue
  split
  · obtain ⟨machine, hmachine⟩ := transitionAllClosed_eq position
    exact ⟨machine, by rw [hmachine]; rfl⟩
  · obtain ⟨machine, hmachine⟩ := transitionPartialClose_eq position
    exact ⟨machine, by rw [hmachine]; rfl⟩

/-! ## A fill -/

/-- The position after `handle_tp_triggered`; what the services answer only shows in the task. -/
def fillPosition (position : PositionContext) (level : ℕ) : PositionContext :=
  (handleTpTriggered position level "" .raised 0 0).1

theorem handleTpTriggered_fst (position : PositionContext) (level : ℕ) (triggerSource : String)
    (live : PositionReply) (now : ℚ) (nowMs : ℕ) :
    (handleTpTriggered position level triggerSource live now nowMs).1 =
      position.fillPosition level := by
  unfold fillPosition handleTpTriggered
  cases position.tpLevels[level]? with
  | none => rfl
  | some found =>
    dsimp only
    split <;> rfl

/-- The engine books a fill that it has not seen yet. -/
theorem fillPosition_of_new {i : ℕ} {level : TPLevel} (hlevel : position.tpLevels[i]? = some level)
    (hnew : alreadyTriggered position i level = false) :
    position.fillPosition i = closeOrContinue (bookFill position i level) := by
  unfold fillPosition handleTpTriggered
  simp [hlevel, hnew]

/-- A call without a level, or with one that is done, changes nothing. -/
theorem handleTpTriggered_of_done {i : ℕ}
    (h : ∀ level, position.tpLevels[i]? = some level → alreadyTriggered position i level = true)
    (triggerSource : String) (live : PositionReply) (now : ℚ) (nowMs : ℕ) :
    handleTpTriggered position i triggerSource live now nowMs = (position, none) := by
  unfold handleTpTriggered
  cases hlevel : position.tpLevels[i]? with
  | none => rfl
  | some level => simp [h level hlevel]

end PositionContext

/-! ## A ladder of two targets -/

namespace MultiTp

/-- The first of two targets, at which the stop goes to the entry price. -/
def firstTarget : TPLevel :=
  { closePct := 50, triggerPrice := 110, status := .open, slLockPct := some 0 }

/-- A long position with two targets. -/
def twoTargets : PositionContext where
  positionId := "7"
  symbol := "BTC/USDT:USDT"
  state := .open
  stateMachine := { state := .open }
  side := .long
  entryPrice := 100
  originalQuantity := 2
  currentQuantity := 2
  currentSlPrice := 90
  slExchangeOrderId := some "55"
  tpMode := .multi
  tpLevels := [firstTarget, { closePct := 50, triggerPrice := 120, status := .open }]

end MultiTp
end AdviserConstructor
