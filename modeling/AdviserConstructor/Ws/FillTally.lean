import Mathlib.Algebra.BigOperators.Ring.List
import Mathlib.Algebra.Order.BigOperators.Group.Finset
import Mathlib.Algebra.Order.BigOperators.Group.List
import Mathlib.Data.List.Infix
import AdviserConstructor.SlTp.TpFills
import AdviserConstructor.Ws.Lifecycle

/-!
# What a list of fills leaves behind

A multi-TP position that starts fresh and whose fills are processed one after the other, each
once, ends in a state that can be read off the list of fills: which levels are triggered, what
the history says, and, until the last declared level fills, what quantity is left.  `Tally` is
that description, and `reference` the processing.

The last declared level closes whatever quantity is booked, so with it the position closes.  A
closed position has its other levels cancelled, because the cleanup follows.

* `processFill_open`, `processFill_last`, `processFill_closed`: one fill takes the tally of a list
  to the tally of the list with the fill appended.
* `reference_spec`: the tally of the reference.
-/

namespace AdviserConstructor
namespace PositionContext

open MultiTp

/-! ## Processing a fill -/

/-- A fill as the manager processes it: the engine, then the cleanup if the position is done. -/
def processFill (answers : Answers) (position : PositionContext) (level : ℕ) : PositionContext :=
  let filled := position.fillPosition level
  if filled.state = .closed ∨ filled.currentQuantity ≤ 0 then filled.cancelRemaining answers
  else filled

/-- Every fill processed exactly once, in order. -/
def reference (start : PositionContext) (fills : List ℕ) : PositionContext :=
  fills.foldl (processFill {}) start

/-! ## Fresh positions -/

/-- An open multi-TP position with its take-profit orders placed and no fill yet. -/
structure Fresh (start : PositionContext) : Prop where
  multi : start.tpMode = .multi
  live : start.isLive = true
  machine : start.stateMachine.state = start.state
  whole : start.currentQuantity = start.originalQuantity
  positive : 0 < start.originalQuantity
  levels : start.tpLevels ≠ []
  waiting : ∀ level ∈ start.tpLevels, isRemaining level = true
  placed : ∀ level ∈ start.tpLevels, ∃ id, level.exchangeOrderId = some id ∧ id ≠ ""
  share : ∀ level ∈ start.tpLevels, 0 < level.closePct
  /-- the levels before the last do not close the position -/
  beforeLast : (start.tpLevels.dropLast.map TPLevel.closePct).sum < 100
  undispatched : start.dispatchedSlLevels = ∅

/-- The quantity that the level `i` closes. -/
def quantityOf (start : PositionContext) (i : ℕ) : ℚ :=
  (start.tpLevels[i]?.map (levelQuantity start)).getD 0

/-- The quantity that fills leave, while the last declared level is not among them. -/
def leftBy (start : PositionContext) (fills : List ℕ) : ℚ :=
  start.originalQuantity - (fills.map start.quantityOf).sum

/-- The index of the last declared level. -/
def lastLevel (start : PositionContext) : ℕ := start.tpLevels.length - 1

/-- The state that the fills `fills` lead to from `start`, apart from the quantity. -/
structure Tally (start : PositionContext) (closed : Bool) (fills : List ℕ)
    (position : PositionContext) : Prop where
  multi : position.tpMode = .multi
  original : position.originalQuantity = start.originalQuantity
  levels : position.tpLevels = levelsAfter closed fills start.tpLevels
  dispatched : position.dispatchedSlLevels = fills.toFinset
  history : position.tpHistory =
    start.tpHistory ++ fills.filterMap fun i => start.tpLevels[i]?.map (fillEntry i)
  state : position.state =
    if closed then .closed else if fills = [] then start.state else .open
  machine : position.stateMachine.state = position.state

section Tally

variable {start position : PositionContext} {closed : Bool} {fills : List ℕ}

theorem Tally.length (h : Tally start closed fills position) :
    position.tpLevels.length = start.tpLevels.length := by
  rw [h.levels, length_levelsAfter]

theorem Tally.isLive (hfresh : Fresh start) (h : Tally start false fills position) :
    position.isLive = true := by
  have hstate := h.state
  by_cases hnil : fills = []
  · have hlive := hfresh.live
    simp only [PositionContext.isLive, hstate, hnil, Bool.false_eq_true, if_false]
    exact hlive
  · simp [PositionContext.isLive, hstate, hnil]

end Tally

/-! ## Transitions -/

theorem applyTransition_of_valid {position : PositionContext} {trigger : TransitionTrigger}
    {target : PositionState} (answers : Answers) (hne : trigger ≠ .syncComplete)
    (h : validTransitions position.stateMachine.state trigger = some target) :
    ∃ machine, machine.state = target ∧ position.applyTransition answers trigger =
      (some target, { position with stateMachine := machine, state := target }) := by
  have hfst := PositionStateMachine.transition_of_ne_syncComplete (m := position.stateMachine) hne
  rw [h] at hfst
  obtain ⟨⟨next, machine⟩, hmove, rfl⟩ := Option.map_eq_some_iff.mp hfst
  refine ⟨machine, PositionStateMachine.transition_state hmove, ?_⟩
  rw [applyTransition, hmove]

theorem closePosition_of_live {position : PositionContext} (answers : Answers)
    (h : position.stateMachine.state = .open ∨ position.stateMachine.state = .adjusting) :
    ∃ machine : PositionStateMachine, machine.state = .closed ∧
      (closePosition answers position .manualClose).2 =
        { position with stateMachine := machine, state := .closed } := by
  have hvalid : validTransitions position.stateMachine.state .manualClose = some .closing := by
    rcases h with h | h <;> rw [h] <;> rfl
  obtain ⟨m, hm, hfirst⟩ := applyTransition_of_valid answers (by simp) hvalid
  obtain ⟨m', hm', hsecond⟩ := @applyTransition_of_valid
    { position with stateMachine := m, state := .closing } .allClosed .closed answers (by simp)
    (by rw [hm]; rfl)
  refine ⟨m', hm', ?_⟩
  unfold closePosition PositionStateMachine.canTransition
  rw [hvalid, hfirst]
  simp only [Option.isSome_some, if_true]
  rw [hsecond]

theorem closePosition_of_closed {position : PositionContext} {answers : Answers}
    (h : position.stateMachine.state = .closed) (hstate : position.state = .closed)
    (hzero : position.currentQuantity = 0)
    (hsync : match answers.sync with
      | .raised => True
      | .noPosition => True
      | .snapshot live => live.size = 0) :
    ∃ machine : PositionStateMachine, machine.state = .closed ∧
      (closePosition answers position .manualClose).2 =
        { position with stateMachine := machine, state := .closed } := by
  have hnone : ∀ trigger, validTransitions position.stateMachine.state trigger = none := by
    intro trigger
    rw [h]
    cases trigger <;> rfl
  have hrefused : ∀ quantity trigger,
      PositionStateMachine.transition
        { position with currentQuantity := quantity }.stateMachine trigger = none := by
    intro quantity trigger
    rw [PositionStateMachine.transition, hnone]
  have happly : (closePosition answers position .manualClose).2 =
      (position.syncPosition answers false).1 := by
    unfold closePosition PositionStateMachine.canTransition
    rw [hnone]
    simp only [Option.isSome_none, Bool.false_eq_true, if_false, applyTransition]
    rw [hrefused position.currentQuantity]
  rw [happly]
  cases hreply : answers.sync with
  | raised =>
    refine ⟨position.stateMachine, h, ?_⟩
    rw [syncPosition, hreply, ← hstate]
  | noPosition =>
    refine ⟨{ position.stateMachine with state := .closed }, rfl, ?_⟩
    rw [syncPosition, hreply, applySyncTransition, hrefused, ← hzero]
  | snapshot live =>
    rw [hreply] at hsync
    refine ⟨{ position.stateMachine with state := .closed }, rfl, ?_⟩
    rw [syncPosition, hreply, applySyncTransition, hrefused]
    simp only [hsync, if_true, ← hzero]

/-! ## The cleanup -/

theorem cancelLevel_of_mem {answers : Answers} {position : PositionContext} {level : TPLevel}
    (hmem : level ∈ position.tpLevels)
    (hplaced : ∃ id, level.exchangeOrderId = some id ∧ id ≠ "") :
    cancelLevel (position.cleanupOrderIds answers) level =
      if level.status = .triggered then level else { level with status := .cancelled } := by
  obtain ⟨id, hid, hne⟩ := hplaced
  unfold cancelLevel
  rw [hid]
  by_cases htriggered : level.status = .triggered
  · simp [htriggered]
  · have hknown : id ∈ position.cleanupOrderIds answers := by
      refine List.mem_append_left _
        (List.mem_filter.mpr ⟨List.mem_append_right _ ?_, by simp [hne]⟩)
      exact List.mem_filterMap.mpr
        ⟨level, List.mem_filter.mpr ⟨hmem, by simp [htriggered]⟩, hid⟩
    simp [hknown]

theorem cancelRemaining_levels {start position : PositionContext} {closed : Bool} {fills : List ℕ}
    (hfresh : Fresh start) (answers : Answers)
    (hlevels : position.tpLevels = levelsAfter closed fills start.tpLevels) :
    (position.cancelRemaining answers).tpLevels = levelsAfter true fills start.tpLevels := by
  refine List.ext_getElem? fun i => ?_
  have hget := levelsAfter_getElem? closed fills start.tpLevels i
  change (position.tpLevels.map (cancelLevel (position.cleanupOrderIds answers)))[i]? = _
  rw [List.getElem?_map, levelsAfter_getElem?]
  rw [← hlevels] at hget
  cases hi : start.tpLevels[i]? with
  | none =>
    rw [hget, hi]
    rfl
  | some level =>
    rw [hi, Option.map_some] at hget
    have hmem := List.mem_of_getElem? hi
    have hwaiting : level.status ≠ .triggered := by
      intro htriggered
      have := hfresh.waiting level hmem
      simp [isRemaining, htriggered] at this
    rw [hget, Option.map_some]
    rw [cancelLevel_of_mem (List.mem_of_getElem? hget) (hfresh.placed level hmem)]
    by_cases hin : i ∈ fills
    · simp [hin]
    · cases closed <;> simp [hin, hwaiting]

theorem tally_cancelRemaining {start position : PositionContext} {closed : Bool} {fills : List ℕ}
    (hfresh : Fresh start) (answers : Answers) (hmulti : position.tpMode = .multi)
    (horiginal : position.originalQuantity = start.originalQuantity)
    (hlevels : position.tpLevels = levelsAfter closed fills start.tpLevels)
    (hdispatched : position.dispatchedSlLevels = fills.toFinset)
    (hhistory : position.tpHistory =
      start.tpHistory ++ fills.filterMap fun i => start.tpLevels[i]?.map (fillEntry i))
    (hstate : position.state = .closed) (hmachine : position.stateMachine.state = .closed) :
    Tally start true fills (position.cancelRemaining answers) :=
  ⟨hmulti, horiginal, cancelRemaining_levels hfresh answers hlevels, hdispatched, hhistory, hstate,
    hmachine.trans hstate.symm⟩

/-! ## One fill -/

section Fill

variable {start position : PositionContext} {closed : Bool} {fills : List ℕ} {i : ℕ}
  {level : TPLevel}

theorem bookFill_spec (h : Tally start closed fills position)
    (hi : start.tpLevels[i]? = some level) :
    ∃ found booked, position.tpLevels[i]? = some found ∧ bookFill position i found = booked ∧
      booked.tpMode = .multi ∧ booked.originalQuantity = start.originalQuantity ∧
      booked.tpLevels = levelsAfter closed (fills ++ [i]) start.tpLevels ∧
      booked.dispatchedSlLevels = (fills ++ [i]).toFinset ∧
      booked.tpHistory =
        start.tpHistory ++
          (fills ++ [i]).filterMap (fun i => start.tpLevels[i]?.map (fillEntry i)) ∧
      booked.stateMachine = position.stateMachine ∧
      booked.currentQuantity = max (position.currentQuantity -
        if i + 1 = start.tpLevels.length then position.currentQuantity
        else start.quantityOf i) 0 ∧
      (found.status = .triggered ↔ i ∈ fills ∨ (closed = false ∧ level.status = .triggered)) := by
  have hfound := levelsAfter_getElem? closed fills start.tpLevels i
  rw [← h.levels, hi] at hfound
  refine ⟨_, _, hfound, rfl, h.multi, h.original, ?_, ?_, ?_, rfl, ?_, ?_⟩
  · rw [bookFill, h.levels, levelsAfter_modify]
  · rw [bookFill, h.dispatched, List.toFinset_append, Finset.union_comm]
    rfl
  · rw [bookFill, h.history, List.append_assoc]
    simp [hi, fillEntry]
  · simp [bookFill, h.length, levelQuantity, h.original, quantityOf, hi]
  · by_cases hmem : i ∈ fills
    · simp [hmem]
    · cases closed <;> simp [hmem]

theorem fillPosition_eq (h : Tally start closed fills position) {found : TPLevel}
    (hfound : position.tpLevels[i]? = some found) (hopen : found.status ≠ .triggered)
    (hnew : i ∉ fills) :
    position.fillPosition i = closeOrContinue (bookFill position i found) := by
  have hnot : alreadyTriggered position i found = false := by
    simp [alreadyTriggered, hopen, h.dispatched, hnew]
  exact fillPosition_of_new hfound hnot

theorem Fresh.status_ne_triggered (hfresh : Fresh start) (hi : start.tpLevels[i]? = some level) :
    level.status ≠ .triggered := by
  intro htriggered
  have hremaining := hfresh.waiting level (List.mem_of_getElem? hi)
  simp [isRemaining, htriggered] at hremaining

/-- A level that was not filled before is not found triggered. -/
theorem Fresh.found_ne_triggered (hfresh : Fresh start) (hi : start.tpLevels[i]? = some level)
    (hnew : i ∉ fills) {found : TPLevel} (hstatus : found.status = .triggered ↔
      i ∈ fills ∨ closed = false ∧ level.status = .triggered) : found.status ≠ .triggered := by
  rw [Ne, hstatus]
  rintro (hmem | ⟨-, htriggered⟩)
  · exact hnew hmem
  · exact hfresh.status_ne_triggered hi htriggered

theorem quantityOf_nonneg (hfresh : Fresh start) (i : ℕ) : 0 ≤ start.quantityOf i := by
  unfold quantityOf
  cases hi : start.tpLevels[i]? with
  | none => simp
  | some level =>
    have hshare := hfresh.share level (List.mem_of_getElem? hi)
    have := hfresh.positive
    simp only [Option.map_some, Option.getD_some, levelQuantity]
    positivity

/-- **A fill of a level before the last** takes the tally on. -/
theorem processFill_open (hfresh : Fresh start) (h : Tally start false fills position)
    (answers : Answers) (hi : start.tpLevels[i]? = some level) (hnew : i ∉ fills)
    (hlast : i ≠ start.lastLevel) (hothers : start.lastLevel ∉ fills)
    (hleft : 0 < position.currentQuantity - start.quantityOf i) :
    Tally start false (fills ++ [i]) (position.processFill answers i) ∧
      (position.processFill answers i).currentQuantity =
        position.currentQuantity - start.quantityOf i := by
  obtain ⟨found, booked, hfound, hbooked, hmulti, horiginal, hlevels, hdispatched, hhistory,
    hmachine, hquantity, hstatus⟩ := bookFill_spec h hi
  have hopen := hfresh.found_ne_triggered hi hnew hstatus
  have hpos : 0 < start.tpLevels.length := List.length_pos_of_ne_nil hfresh.levels
  have hindex : i + 1 ≠ start.tpLevels.length := by
    intro hsame
    exact hlast (by unfold lastLevel; omega)
  rw [if_neg hindex, max_eq_left hleft.le] at hquantity
  -- the last declared level is still waiting
  have hremaining : booked.tpLevels.any isRemaining = true := by
    have hlt : start.lastLevel < start.tpLevels.length := by unfold lastLevel; omega
    have hget := levelsAfter_getElem? false (fills ++ [i]) start.tpLevels start.lastLevel
    rw [List.getElem?_eq_getElem hlt, ← hlevels] at hget
    refine List.any_eq_true.mpr ⟨_, List.mem_of_getElem? hget, ?_⟩
    have hnot : start.lastLevel ∉ fills ++ [i] := by
      simp [hothers, Ne.symm hlast]
    simp only [hnot, Bool.false_eq_true]
    exact hfresh.waiting _ (List.getElem_mem hlt)
  have hlive : booked.stateMachine.state = .open ∨ booked.stateMachine.state = .adjusting := by
    rw [hmachine, h.machine]
    have := h.isLive hfresh
    simpa [PositionContext.isLive] using this
  obtain ⟨machine, hm, hmove⟩ := transitionPartialClose_spec hlive
  have hfilled : position.fillPosition i =
      { booked with stateMachine := machine, state := machine.state } := by
    rw [fillPosition_eq h hfound hopen hnew, hbooked, closeOrContinue, hremaining, hmove]
    simp only [Bool.not_true, Bool.false_or, decide_eq_true_eq]
    rw [if_neg (by rw [hquantity]; exact not_le.mpr hleft)]
    rfl
  have hprocess : position.processFill answers i =
      { booked with stateMachine := machine, state := machine.state } := by
    unfold processFill
    rw [hfilled]
    refine if_neg ?_
    rintro (hclosed | hle)
    · exact absurd (hm ▸ hclosed) (by simp)
    · exact absurd (hquantity ▸ hle) (not_le.mpr hleft)
  rw [hprocess]
  exact ⟨⟨hmulti, horiginal, hlevels, hdispatched, hhistory, by simp [hm], rfl⟩, hquantity⟩

theorem processFill_of_nothing_left (hfresh : Fresh start) (h : Tally start closed fills position)
    (answers : Answers) (hi : start.tpLevels[i]? = some level) (hnew : i ∉ fills)
    (hleft : (position.currentQuantity -
      if i + 1 = start.tpLevels.length then position.currentQuantity else start.quantityOf i) ≤ 0) :
    Tally start true (fills ++ [i]) (position.processFill answers i) ∧
      (position.processFill answers i).currentQuantity = 0 := by
  obtain ⟨found, booked, hfound, hbooked, hmulti, horiginal, hlevels, hdispatched, hhistory,
    hmachine, hquantity, hstatus⟩ := bookFill_spec h hi
  have hopen := hfresh.found_ne_triggered hi hnew hstatus
  rw [max_eq_right hleft] at hquantity
  have hmove : booked.stateMachine.state = .open ∨ booked.stateMachine.state = .adjusting ∨
      booked.stateMachine.state = .closed := by
    rw [hmachine, h.machine]
    cases closed with
    | true => exact Or.inr (Or.inr (h.state.trans rfl))
    | false =>
      have hlive := h.isLive hfresh
      simp only [PositionContext.isLive, Bool.or_eq_true, decide_eq_true_eq] at hlive
      exact hlive.imp id Or.inl
  obtain ⟨machine, hm, hmove⟩ := transitionAllClosed_spec hmove
  have hfilled : position.fillPosition i =
      { booked with stateMachine := machine, state := machine.state } := by
    rw [fillPosition_eq h hfound hopen hnew, hbooked, closeOrContinue, hmove]
    simp [hquantity]
    rfl
  have hprocess : position.processFill answers i =
      cancelRemaining answers { booked with stateMachine := machine, state := machine.state } := by
    unfold processFill
    rw [hfilled]
    exact if_pos (Or.inl hm)
  rw [hprocess]
  exact ⟨tally_cancelRemaining hfresh answers hmulti horiginal hlevels hdispatched hhistory hm hm,
    hquantity⟩

/-- **The fill of the last declared level** closes the position. -/
theorem processFill_last (hfresh : Fresh start) (h : Tally start closed fills position)
    (answers : Answers) (hnew : start.lastLevel ∉ fills) :
    Tally start true (fills ++ [start.lastLevel])
        (position.processFill answers start.lastLevel) ∧
      (position.processFill answers start.lastLevel).currentQuantity = 0 := by
  have hpos : 0 < start.tpLevels.length := List.length_pos_of_ne_nil hfresh.levels
  have hlt : start.lastLevel < start.tpLevels.length := by unfold lastLevel; omega
  refine processFill_of_nothing_left hfresh h answers (List.getElem?_eq_getElem hlt) hnew ?_
  rw [if_pos (by unfold lastLevel; omega), sub_self]

/-- **A fill of a closed position** is booked all the same. -/
theorem processFill_closed (hfresh : Fresh start) (h : Tally start true fills position)
    (answers : Answers) (hzero : position.currentQuantity = 0)
    (hi : start.tpLevels[i]? = some level) (hnew : i ∉ fills) :
    Tally start true (fills ++ [i]) (position.processFill answers i) ∧
      (position.processFill answers i).currentQuantity = 0 := by
  refine processFill_of_nothing_left hfresh h answers hi hnew ?_
  have hquantity := quantityOf_nonneg hfresh i
  rw [hzero]
  split
  · exact le_of_eq (sub_self 0)
  · linarith

end Fill

/-! ## The reference -/

section Reference

variable {start : PositionContext}

theorem sum_range_getElem? {α : Type*} (f : α → ℚ) (l : List α) :
    ∑ i ∈ Finset.range l.length, (l[i]?.map f).getD 0 = (l.map f).sum := by
  induction l with
  | nil => rfl
  | cons a l ih =>
    rw [List.length_cons, Finset.sum_range_succ', List.map_cons, List.sum_cons, ← ih, add_comm]
    rfl

theorem sum_quantityOf_beforeLast (start : PositionContext) :
    ∑ i ∈ Finset.range start.lastLevel, start.quantityOf i =
      start.originalQuantity * ((start.tpLevels.dropLast.map TPLevel.closePct).sum / 100) := by
  have hlength : start.lastLevel = start.tpLevels.dropLast.length :=
    (List.length_dropLast ..).symm
  have hlevels : ∀ i ∈ Finset.range start.tpLevels.dropLast.length,
      start.quantityOf i = (start.tpLevels.dropLast[i]?.map (levelQuantity start)).getD 0 := by
    intro i hi
    rw [Finset.mem_range, List.length_dropLast] at hi
    rw [quantityOf, List.getElem?_dropLast, if_pos hi]
  rw [hlength, Finset.sum_congr rfl hlevels, sum_range_getElem?]
  have hlevel : levelQuantity start = fun level => start.originalQuantity / 100 * level.closePct :=
    funext fun level => by rw [levelQuantity]; ring
  rw [hlevel, List.sum_map_mul_left]
  ring

theorem leftBy_pos (hfresh : Fresh start) {fills : List ℕ} (hnodup : fills.Nodup)
    (hlt : ∀ i ∈ fills, i < start.tpLevels.length) (hlast : start.lastLevel ∉ fills) :
    0 < start.leftBy fills := by
  have hsum : (fills.map start.quantityOf).sum ≤
      ∑ i ∈ Finset.range start.lastLevel, start.quantityOf i := by
    rw [← List.sum_toFinset _ hnodup]
    refine Finset.sum_le_sum_of_subset_of_nonneg ?_ fun i _ _ => quantityOf_nonneg hfresh i
    intro i hi
    rw [List.mem_toFinset] at hi
    have hne : i ≠ start.lastLevel := fun hsame => hlast (hsame ▸ hi)
    have := hlt i hi
    rw [Finset.mem_range]
    unfold lastLevel at hne ⊢
    omega
  rw [sum_quantityOf_beforeLast] at hsum
  have hshare :
      start.originalQuantity * ((start.tpLevels.dropLast.map TPLevel.closePct).sum / 100) <
        start.originalQuantity := by
    refine mul_lt_of_lt_one_right hfresh.positive ?_
    have := hfresh.beforeLast
    linarith
  unfold leftBy
  linarith

theorem leftBy_append (start : PositionContext) (fills : List ℕ) (i : ℕ) :
    start.leftBy (fills ++ [i]) = start.leftBy fills - start.quantityOf i := by
  simp only [leftBy, List.map_append, List.map_singleton, List.sum_append, List.sum_singleton]
  ring

theorem tally_nil (hfresh : Fresh start) : Tally start false [] start where
  multi := hfresh.multi
  original := rfl
  levels := by
    refine List.ext_getElem? fun i => ?_
    rw [levelsAfter_getElem?]
    simp
  dispatched := hfresh.undispatched
  history := by simp
  state := rfl
  machine := hfresh.machine

/-- **The reference** has the tally of its fills; the quantity is what they leave until the last
declared level has filled, and then nothing. -/
theorem reference_spec (hfresh : Fresh start) {fills : List ℕ} (hnodup : fills.Nodup)
    (hlt : ∀ i ∈ fills, i < start.tpLevels.length) :
    (start.lastLevel ∉ fills → Tally start false fills (start.reference fills) ∧
        (start.reference fills).currentQuantity = start.leftBy fills) ∧
      (start.lastLevel ∈ fills → Tally start true fills (start.reference fills) ∧
        (start.reference fills).currentQuantity = 0) := by
  induction fills using List.reverseRecOn with
  | nil =>
    refine ⟨fun _ => ⟨tally_nil hfresh, ?_⟩, fun hmem => absurd hmem List.not_mem_nil⟩
    simp [reference, leftBy, hfresh.whole]
  | append_singleton fills i ih =>
    have hnew : i ∉ fills := by
      rw [List.nodup_append] at hnodup
      exact fun hmem => hnodup.2.2 i hmem i (List.mem_singleton_self i) rfl
    have hfills : fills.Nodup := (List.nodup_append.mp hnodup).1
    have hlength : i < start.tpLevels.length := hlt i (by simp)
    obtain ⟨hopen, hclosed⟩ := ih hfills fun j hj => hlt j (List.mem_append_left _ hj)
    have hlevel := List.getElem?_eq_getElem hlength
    have hstep : start.reference (fills ++ [i]) = (start.reference fills).processFill {} i := by
      rw [reference, List.foldl_append]
      rfl
    rw [hstep]
    by_cases hmem : start.lastLevel ∈ fills
    · obtain ⟨htally, hzero⟩ := hclosed hmem
      refine ⟨fun hnot => absurd (List.mem_append_left _ hmem) hnot, fun _ => ?_⟩
      exact processFill_closed hfresh htally {} hzero hlevel hnew
    · obtain ⟨htally, hquantity⟩ := hopen hmem
      by_cases hlast : i = start.lastLevel
      · subst hlast
        refine ⟨fun hnot => absurd (List.mem_append_right _ (List.mem_singleton_self _)) hnot,
          fun _ => ?_⟩
        exact processFill_last hfresh htally {} hmem
      · have hnot : start.lastLevel ∉ fills ++ [i] := by
          simp [hmem, Ne.symm hlast]
        refine ⟨fun _ => ?_, fun hin => absurd hin hnot⟩
        have hleft := leftBy_pos hfresh hnodup hlt hnot
        rw [leftBy_append, ← hquantity] at hleft
        obtain ⟨htally', hquantity'⟩ :=
          processFill_open hfresh htally {} hlevel hnew hlast hmem hleft
        exact ⟨htally', by rw [hquantity', hquantity, leftBy_append]⟩

end Reference

end PositionContext
end AdviserConstructor
