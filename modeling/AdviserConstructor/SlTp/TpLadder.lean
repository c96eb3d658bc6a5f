import Mathlib.Tactic.Linarith
import AdviserConstructor.SlTp.TpFills

/-!
# A ladder of targets

`MultiTPEngine.handle_tp_triggered` of `app/services/sl_tp/multi_tp.py` over a whole ladder: calls
with level indices in any order and with any repetition, one after the other.

`Climb` is what a list of calls leaves behind.  The levels that were called are triggered, each
with one history entry and at most one dispatched shift; the quantity is what their percentages
leave of the original, cut off at nothing, until the last declared level is called, which closes
whatever is left; and the position is closed exactly when nothing is left.

* `climb_call`: one call takes the description of a list to that of the list with the call
  appended.
* `climb_run`: the description of every run.
* `lawful_iff`: what a ladder promises holds along a run exactly when the last declared level is
  not called while another level is still waiting.  The engine means to sweep up rounding
  dust with the last level, and sweeps up the levels that were skipped with it.
-/

namespace AdviserConstructor
namespace MultiTp

open PositionContext

/-! ## Calls -/

/-- One call of `handle_tp_triggered`, with what the services answer. -/
structure TpCall where
  level : ℕ
  triggerSource : String := "order_trade_update"
  live : PositionReply := .noPosition
  now : ℚ := 0
  nowMs : ℕ := 0
  deriving DecidableEq

/-- The position, and the shifts dispatched so far with the levels they are for. -/
structure LadderRun where
  position : PositionContext
  shifts : List (ℕ × OrderTask) := []
  deriving DecidableEq

/-- A call that is awaited before the next one. -/
def LadderRun.call (r : LadderRun) (c : TpCall) : LadderRun :=
  let handled := handleTpTriggered r.position c.level c.triggerSource c.live c.now c.nowMs
  { position := handled.1
    shifts := r.shifts ++ (handled.2.map fun task => (c.level, task)).toList }

/-- The calls of a list, one after the other. -/
def ladderRun (start : PositionContext) (calls : List TpCall) : LadderRun :=
  calls.foldl LadderRun.call { position := start }

theorem ladderRun_append (start : PositionContext) (calls : List TpCall) (c : TpCall) :
    ladderRun start (calls ++ [c]) = (ladderRun start calls).call c := by
  rw [ladderRun, List.foldl_append]
  rfl

/-- An open position whose targets are all waiting. -/
structure FreshLadder (start : PositionContext) : Prop where
  machine : start.stateMachine.state = .open
  state : start.state = .open
  whole : start.currentQuantity = start.originalQuantity
  positive : 0 < start.originalQuantity
  waiting : ∀ level ∈ start.tpLevels, isRemaining level = true
  share : ∀ level ∈ start.tpLevels, 0 < level.closePct
  undispatched : start.dispatchedSlLevels = ∅

/-! ## Percentages -/

/-- The close percentages of the triggered levels together. -/
def triggeredPct (levels : List TPLevel) : ℚ :=
  ((levels.filter fun level => level.status = .triggered).map TPLevel.closePct).sum

theorem triggeredPct_cons (level : TPLevel) (levels : List TPLevel) :
    triggeredPct (level :: levels) =
      (if level.status = .triggered then level.closePct else 0) + triggeredPct levels := by
  unfold triggeredPct
  by_cases h : level.status = .triggered
  · simp [h]
  · simp [h]

theorem triggeredPct_modify {levels : List TPLevel} {i : ℕ} {level : TPLevel}
    (hlevel : levels[i]? = some level) (hwaiting : level.status ≠ .triggered) :
    triggeredPct (levels.modify i fun level => { level with status := .triggered }) =
      triggeredPct levels + level.closePct := by
  induction levels generalizing i with
  | nil => cases hlevel
  | cons first rest ih =>
      cases i with
      | zero =>
          rw [List.getElem?_cons_zero, Option.some.injEq] at hlevel
          subst hlevel
          rw [List.modify_zero_cons, triggeredPct_cons, triggeredPct_cons, if_pos rfl,
            if_neg hwaiting]
          ring
      | succ i =>
          rw [List.modify_succ_cons, triggeredPct_cons, triggeredPct_cons, ih hlevel]
          ring

theorem triggeredPct_add_le {levels : List TPLevel} {level : TPLevel} (hmem : level ∈ levels)
    (hwaiting : level.status ≠ .triggered) (hshare : ∀ level ∈ levels, 0 ≤ level.closePct) :
    triggeredPct levels + level.closePct ≤ (levels.map TPLevel.closePct).sum := by
  have hle : ∀ rest : List TPLevel, (∀ level ∈ rest, 0 ≤ level.closePct) →
      triggeredPct rest ≤ (rest.map TPLevel.closePct).sum := by
    intro rest hrest
    induction rest with
    | nil => exact le_refl _
    | cons first rest ih =>
        have hfirst := hrest first List.mem_cons_self
        have := ih fun level hlevel => hrest level (List.mem_cons_of_mem _ hlevel)
        rw [triggeredPct_cons, List.map_cons, List.sum_cons]
        split <;> linarith
  induction levels with
  | nil => cases hmem
  | cons first rest ih =>
      have hfirst := hshare first List.mem_cons_self
      have hrest : ∀ level ∈ rest, 0 ≤ level.closePct := fun level hlevel =>
        hshare level (List.mem_cons_of_mem _ hlevel)
      rw [triggeredPct_cons, List.map_cons, List.sum_cons]
      rcases List.mem_cons.mp hmem with rfl | hmem
      · have := hle rest hrest
        rw [if_neg hwaiting]
        linarith
      · have := ih hmem hrest
        split <;> linarith

/-! ## What calls leave behind -/

/-- The last declared level is among the calls. -/
def LastCalled (start : PositionContext) (called : List ℕ) : Prop :=
  ∃ i ∈ called, i + 1 = start.tpLevels.length

instance (start : PositionContext) (called : List ℕ) : Decidable (LastCalled start called) := by
  unfold LastCalled
  infer_instance

/-- `1` for a level that was called, `0` for any other index. -/
def calledOnce (start : PositionContext) (called : List ℕ) (i : ℕ) : ℕ :=
  if i ∈ called ∧ i < start.tpLevels.length then 1 else 0

/-- What the calls of the levels `called` leave of a fresh ladder. -/
structure Climb (start : PositionContext) (called : List ℕ) (r : LadderRun) : Prop where
  original : r.position.originalQuantity = start.originalQuantity
  levels : r.position.tpLevels = levelsAfter false called start.tpLevels
  dispatched : ∀ i, i ∈ r.position.dispatchedSlLevels ↔
    i ∈ called ∧ i < start.tpLevels.length
  history : ∃ added, r.position.tpHistory = start.tpHistory ++ added ∧
    ∀ i, added.countP (fun entry => entry.tpLevel = i) = calledOnce start called i
  shifts : ∀ i, r.shifts.countP (fun shift => shift.1 = i) ≤ calledOnce start called i
  quantity : r.position.currentQuantity =
    if LastCalled start called then 0
    else max (start.originalQuantity * (1 - triggeredPct r.position.tpLevels / 100)) 0
  state : r.position.state = if r.position.currentQuantity = 0 then .closed else .open
  machine : r.position.stateMachine.state = r.position.state

section Climb

variable {start : PositionContext} {called called' : List ℕ} {r : LadderRun} {c : TpCall}

theorem Climb.length (h : Climb start called r) :
    r.position.tpLevels.length = start.tpLevels.length := by
  rw [h.levels, length_levelsAfter]

theorem Climb.nonneg (h : Climb start called r) : 0 ≤ r.position.currentQuantity := by
  rw [h.quantity]
  split
  · exact le_refl 0
  · exact le_max_right _ 0

theorem lastCalled_congr (h : ∀ i < start.tpLevels.length, i ∈ called ↔ i ∈ called') :
    LastCalled start called ↔ LastCalled start called' := by
  constructor
  · rintro ⟨i, hi, hlast⟩
    exact ⟨i, (h i (by omega)).mp hi, hlast⟩
  · rintro ⟨i, hi, hlast⟩
    exact ⟨i, (h i (by omega)).mpr hi, hlast⟩

theorem Climb.congr (h : Climb start called r)
    (hsame : ∀ i < start.tpLevels.length, i ∈ called ↔ i ∈ called') :
    Climb start called' r := by
  have hcalled : ∀ i, (i ∈ called ∧ i < start.tpLevels.length) ↔
      (i ∈ called' ∧ i < start.tpLevels.length) := fun i =>
    and_congr_left fun hi => hsame i hi
  have honce : calledOnce start called = calledOnce start called' := by
    funext i
    unfold calledOnce
    simp only [hcalled i]
  refine ⟨h.original, ?_, fun i => (h.dispatched i).trans (hcalled i), ?_, ?_, ?_, h.state,
    h.machine⟩
  · rw [h.levels, levelsAfter_congr false hsame]
  · rw [← honce]
    exact h.history
  · rw [← honce]
    exact h.shifts
  · rw [h.quantity]
    simp only [lastCalled_congr hsame]

theorem climb_nil (hfresh : FreshLadder start) : Climb start [] { position := start } := by
  have hlevels : start.tpLevels = levelsAfter false [] start.tpLevels := by
    refine List.ext_getElem? fun i => ?_
    rw [levelsAfter_getElem?]
    simp
  have hnone : triggeredPct start.tpLevels = 0 := by
    unfold triggeredPct
    rw [List.filter_eq_nil_iff.mpr]
    · rfl
    · intro level hlevel htriggered
      have hwaiting := hfresh.waiting level hlevel
      simp only [isRemaining, of_decide_eq_true htriggered] at hwaiting
      exact absurd hwaiting (by decide)
  refine ⟨rfl, hlevels, ?_, ⟨[], by simp, ?_⟩, ?_, ?_, ?_, ?_⟩
  · intro i
    simp [hfresh.undispatched]
  · intro i
    simp [calledOnce]
  · intro i
    simp [calledOnce]
  · have hlast : ¬LastCalled start [] := by simp [LastCalled]
    rw [if_neg hlast, hnone, hfresh.whole]
    simp [hfresh.positive.le]
  · rw [hfresh.whole, if_neg hfresh.positive.ne']
    exact hfresh.state
  · exact hfresh.machine.trans hfresh.state.symm

/-! ## One call -/

theorem call_of_done (h : ∀ level, r.position.tpLevels[c.level]? = some level →
    alreadyTriggered r.position c.level level = true) : r.call c = r := by
  unfold LadderRun.call
  rw [handleTpTriggered_of_done h]
  simp

theorem Climb.call_of_mem (h : Climb start called r) (hmem : c.level ∈ called) : r.call c = r := by
  refine call_of_done fun level hlevel => ?_
  have hlt := (List.getElem?_eq_some_iff.mp hlevel).1
  rw [h.length] at hlt
  rw [alreadyTriggered, Bool.or_eq_true]
  exact .inr (decide_eq_true ((h.dispatched c.level).mpr ⟨hmem, hlt⟩))

theorem Climb.call_of_le (h : Climb start called r) (hle : start.tpLevels.length ≤ c.level) :
    r.call c = r := by
  refine call_of_done fun level hlevel => ?_
  have hlt := (List.getElem?_eq_some_iff.mp hlevel).1
  rw [h.length] at hlt
  omega

theorem Climb.waiting (h : Climb start called r) (hfresh : FreshLadder start) {i : ℕ}
    (hlt : i < start.tpLevels.length) (hnew : i ∉ called) :
    ∃ level, r.position.tpLevels[i]? = some level ∧ isRemaining level = true ∧
      0 < level.closePct ∧ alreadyTriggered r.position i level = false := by
  have hfound := levelsAfter_getElem? false called start.tpLevels i
  have hmem := List.getElem_mem hlt
  rw [← h.levels, List.getElem?_eq_getElem hlt] at hfound
  have hwaiting := hfresh.waiting _ hmem
  refine ⟨_, hfound, ?_, ?_, ?_⟩
  · simpa [hnew] using hwaiting
  · show 0 < start.tpLevels[i].closePct
    exact hfresh.share _ hmem
  · have hopen : start.tpLevels[i].status ≠ .triggered := by
      intro htriggered
      rw [isRemaining, htriggered] at hwaiting
      exact absurd hwaiting (by decide)
    have hundispatched : i ∉ r.position.dispatchedSlLevels := fun hin =>
      hnew ((h.dispatched i).mp hin).1
    simp [alreadyTriggered, hnew, hopen, hundispatched]

theorem not_triggered_of_isRemaining {level : TPLevel} (h : isRemaining level = true) :
    level.status ≠ .triggered := by
  intro htriggered
  rw [isRemaining, htriggered] at h
  exact absurd h (by decide)

theorem Climb.quantity_bookFill (h : Climb start called r) (hfresh : FreshLadder start) {i : ℕ}
    {level : TPLevel} (hlevel : r.position.tpLevels[i]? = some level)
    (hwaiting : isRemaining level = true) (hshare : 0 < level.closePct) :
    (bookFill r.position i level).currentQuantity =
      if LastCalled start (called ++ [i]) then 0
      else
        max (start.originalQuantity *
          (1 - triggeredPct (bookFill r.position i level).tpLevels / 100)) 0 := by
  have hbooked : (bookFill r.position i level).currentQuantity =
      max (r.position.currentQuantity - if i + 1 = start.tpLevels.length then
        r.position.currentQuantity else start.originalQuantity * (level.closePct / 100)) 0 := by
    simp [bookFill, h.length, levelQuantity, h.original]
  have hshut : 0 ≤ start.originalQuantity * (level.closePct / 100) := by
    have := hfresh.positive
    positivity
  rw [hbooked]
  by_cases hlast : i + 1 = start.tpLevels.length
  · rw [if_pos hlast, if_pos ⟨i, by simp, hlast⟩, sub_self, max_self]
  · rw [if_neg hlast]
    have hsame : LastCalled start (called ++ [i]) ↔ LastCalled start called := by
      constructor
      · rintro ⟨j, hj, hj'⟩
        rcases List.mem_append.mp hj with hj | hj
        · exact ⟨j, hj, hj'⟩
        · rw [List.mem_singleton] at hj
          exact absurd (hj ▸ hj') hlast
      · rintro ⟨j, hj, hj'⟩
        exact ⟨j, List.mem_append_left _ hj, hj'⟩
    have hpct : triggeredPct (bookFill r.position i level).tpLevels =
        triggeredPct r.position.tpLevels + level.closePct :=
      triggeredPct_modify hlevel (not_triggered_of_isRemaining hwaiting)
    simp only [hsame]
    by_cases hcalled : LastCalled start called
    · rw [if_pos hcalled, h.quantity, if_pos hcalled]
      exact max_eq_right (by linarith)
    · -- cutting off twice is cutting off once
      rw [if_neg hcalled, h.quantity, if_neg hcalled, hpct]
      have hsplit : start.originalQuantity *
          (1 - (triggeredPct r.position.tpLevels + level.closePct) / 100) =
          start.originalQuantity * (1 - triggeredPct r.position.tpLevels / 100) -
            start.originalQuantity * (level.closePct / 100) := by ring
      rw [hsplit]
      rcases le_total (start.originalQuantity * (1 - triggeredPct r.position.tpLevels / 100)) 0
        with hneg | hpos
      · rw [max_eq_right hneg, max_eq_right (by linarith), max_eq_right (by linarith)]
      · rw [max_eq_left hpos]

theorem Climb.remaining_bookFill (h : Climb start called r) (hfresh : FreshLadder start) {i : ℕ}
    {level : TPLevel} (hlt : i < start.tpLevels.length)
    (hlast : ¬LastCalled start (called ++ [i])) :
    (bookFill r.position i level).tpLevels.any isRemaining = true := by
  have hbooked : (bookFill r.position i level).tpLevels =
      levelsAfter false (called ++ [i]) start.tpLevels := by
    rw [← levelsAfter_modify, ← h.levels]
    rfl
  obtain ⟨n, hn⟩ : ∃ n, n + 1 = start.tpLevels.length :=
    ⟨start.tpLevels.length - 1, by omega⟩
  have hget := levelsAfter_getElem? false (called ++ [i]) start.tpLevels n
  have hmem : n ∉ called ++ [i] := fun hmem => hlast ⟨n, hmem, hn⟩
  rw [List.getElem?_eq_getElem (by omega : n < start.tpLevels.length)] at hget
  rw [hbooked]
  refine List.any_eq_true.mpr ⟨_, List.mem_of_getElem? hget, ?_⟩
  have hwaiting := hfresh.waiting _ (List.getElem_mem (by omega : n < start.tpLevels.length))
  simp only [hmem, Bool.false_eq_true]
  exact hwaiting

theorem Climb.closeOrContinue_bookFill (h : Climb start called r) (hfresh : FreshLadder start)
    {i : ℕ} {level : TPLevel} (hlevel : r.position.tpLevels[i]? = some level)
    (hwaiting : isRemaining level = true) (hshare : 0 < level.closePct) :
    ∃ machine : PositionStateMachine,
      machine.state = (if (bookFill r.position i level).currentQuantity = 0 then
        PositionState.closed else .open) ∧
      closeOrContinue (bookFill r.position i level) =
        { bookFill r.position i level with stateMachine := machine, state := machine.state } := by
  have hlt := (List.getElem?_eq_some_iff.mp hlevel).1
  rw [h.length] at hlt
  have hquantity := h.quantity_bookFill hfresh hlevel hwaiting hshare
  have hstate : (bookFill r.position i level).stateMachine.state =
      if r.position.currentQuantity = 0 then .closed else .open := h.machine.trans h.state
  by_cases hzero : (bookFill r.position i level).currentQuantity = 0
  · have hlive : (bookFill r.position i level).stateMachine.state = .open ∨
        (bookFill r.position i level).stateMachine.state = .adjusting ∨
        (bookFill r.position i level).stateMachine.state = .closed := by
      rw [hstate]
      split
      · exact .inr (.inr rfl)
      · exact .inl rfl
    obtain ⟨machine, hclosed, hmove⟩ := transitionAllClosed_spec hlive
    refine ⟨machine, by rw [if_pos hzero, hclosed], ?_⟩
    rw [closeOrContinue, hmove]
    simp only [hzero, le_refl, decide_true, Bool.or_true]
    rfl
  · have hlast : ¬LastCalled start (called ++ [i]) := fun hlast =>
      hzero (by rw [hquantity, if_pos hlast])
    have hpos : 0 < (bookFill r.position i level).currentQuantity := by
      refine lt_of_le_of_ne ?_ (Ne.symm hzero)
      exact le_max_right _ _
    -- nothing was left already before a call that leaves nothing
    have hbefore : r.position.currentQuantity ≠ 0 := by
      intro hnone
      have hle : (bookFill r.position i level).currentQuantity ≤ 0 := by
        have hshut : 0 ≤ r.position.originalQuantity * (level.closePct / 100) := by
          rw [h.original]
          have := hfresh.positive
          positivity
        simp only [bookFill, levelQuantity]
        split
        · simp
        · exact max_le (by linarith) (le_refl 0)
      exact absurd hle (not_le.mpr hpos)
    have hopen : (bookFill r.position i level).stateMachine.state = .open := by
      rw [hstate, if_neg hbefore]
    obtain ⟨machine, hcontinues, hmove⟩ := transitionPartialClose_spec (.inl hopen)
    refine ⟨machine, by rw [if_neg hzero, hcontinues], ?_⟩
    rw [closeOrContinue, h.remaining_bookFill hfresh hlt hlast, hmove]
    simp only [Bool.not_true, Bool.false_or, decide_eq_true_eq]
    rw [if_neg (not_le.mpr hpos)]
    rfl

theorem Climb.call_of_new (h : Climb start called r) (hfresh : FreshLadder start)
    (hlt : c.level < start.tpLevels.length) (hnew : c.level ∉ called) :
    Climb start (called ++ [c.level]) (r.call c) := by
  obtain ⟨level, hlevel, hwaiting, hshare, hundone⟩ := h.waiting hfresh hlt hnew
  obtain ⟨machine, hmachine, hmove⟩ :=
    h.closeOrContinue_bookFill hfresh hlevel hwaiting hshare
  have hposition : (r.call c).position =
      { bookFill r.position c.level level with
        stateMachine := machine, state := machine.state } := by
    change (handleTpTriggered r.position c.level c.triggerSource c.live c.now c.nowMs).1 = _
    rw [handleTpTriggered_fst, fillPosition_of_new hlevel hundone, hmove]
  have honce : ∀ i, calledOnce start (called ++ [c.level]) i =
      calledOnce start called i + if c.level = i then 1 else 0 := by
    intro i
    unfold calledOnce
    by_cases hi : c.level = i
    · subst hi
      simp [hnew, hlt]
    · simp [hi, Ne.symm hi]
  refine ⟨?_, ?_, ?_, ?_, ?_, ?_, ?_, ?_⟩
  · rw [hposition]
    exact h.original
  · rw [hposition, ← levelsAfter_modify, ← h.levels]
    rfl
  · intro i
    rw [hposition]
    change i ∈ insert c.level r.position.dispatchedSlLevels ↔ _
    rw [Finset.mem_insert, h.dispatched, List.mem_append, List.mem_singleton]
    constructor
    · rintro (rfl | ⟨hi, hi'⟩)
      · exact ⟨.inr rfl, hlt⟩
      · exact ⟨.inl hi, hi'⟩
    · rintro ⟨hi | rfl, hi'⟩
      · exact .inr ⟨hi, hi'⟩
      · exact .inl rfl
  · obtain ⟨added, hhistory, hcount⟩ := h.history
    refine ⟨added ++ [fillEntry c.level level], ?_, fun i => ?_⟩
    · rw [hposition]
      change r.position.tpHistory ++ [fillEntry c.level level] = _
      rw [hhistory, List.append_assoc]
    · rw [List.countP_append, hcount, honce]
      simp [fillEntry]
  · intro i
    rw [honce]
    change (r.shifts ++ _).countP _ ≤ _
    rw [List.countP_append]
    refine Nat.add_le_add (h.shifts i) ?_
    cases (handleTpTriggered r.position c.level c.triggerSource c.live c.now c.nowMs).2 with
    | none => simp
    | some task => simp [List.countP_cons]
  · rw [hposition]
    exact h.quantity_bookFill hfresh hlevel hwaiting hshare
  · rw [hposition]
    exact hmachine
  · rw [hposition]

/-- **One call** takes the description of a list to that of the list with the call appended. -/
theorem climb_call (hfresh : FreshLadder start) (h : Climb start called r) (c : TpCall) :
    Climb start (called ++ [c.level]) (r.call c) := by
  by_cases hmem : c.level ∈ called
  · rw [h.call_of_mem hmem]
    refine h.congr fun i _ => ?_
    simp only [List.mem_append, List.mem_singleton]
    exact ⟨.inl, fun hi => hi.elim id fun hi => hi ▸ hmem⟩
  · by_cases hlt : c.level < start.tpLevels.length
    · exact h.call_of_new hfresh hlt hmem
    · rw [h.call_of_le (not_lt.mp hlt)]
      refine h.congr fun i hi => ?_
      simp only [List.mem_append, List.mem_singleton]
      exact ⟨.inl, fun hmem => hmem.elim id fun hi' => absurd (hi' ▸ hi) hlt⟩

/-- **Every run** is described by the levels of its calls. -/
theorem climb_run (hfresh : FreshLadder start) (calls : List TpCall) :
    Climb start (calls.map TpCall.level) (ladderRun start calls) := by
  induction calls using List.reverseRecOn with
  | nil => exact climb_nil hfresh
  | append_singleton calls c ih =>
      rw [ladderRun_append, List.map_append]
      exact climb_call hfresh ih c

end Climb

/-! ## What a ladder promises -/

def SumsToWhole (start : PositionContext) : Prop :=
  (start.tpLevels.map TPLevel.closePct).sum = 100

instance (start : PositionContext) : Decidable (SumsToWhole start) :=
  inferInstanceAs (Decidable (_ = _))

/-- What holds behind the calls of a list. -/
structure Accounts (start : PositionContext) (calls : List TpCall) : Prop where
  /-- one history entry for each level that was called -/
  history : ∃ added,
    (ladderRun start calls).position.tpHistory = start.tpHistory ++ added ∧
      ∀ i, added.countP (fun entry => entry.tpLevel = i) =
        calledOnce start (calls.map TpCall.level) i
  /-- at most one `replace_sl` for each level -/
  shifts : ∀ i, (ladderRun start calls).shifts.countP (fun shift => shift.1 = i) ≤ 1
  /-- a level that was called is not processed again -/
  repeated : ∀ c : TpCall, c.level ∈ calls.map TpCall.level →
    ladderRun start (calls ++ [c]) = ladderRun start calls
  /-- while a level waits, the quantity is what the triggered ones leave -/
  quantity : SumsToWhole start →
    (∃ level ∈ (ladderRun start calls).position.tpLevels, level.status ≠ .triggered) →
    (ladderRun start calls).position.currentQuantity =
      (ladderRun start calls).position.originalQuantity *
        (1 - triggeredPct (ladderRun start calls).position.tpLevels / 100)
  nonneg : 0 ≤ (ladderRun start calls).position.currentQuantity
  /-- the position is closed exactly when nothing is left, and open otherwise -/
  state : (ladderRun start calls).position.state =
    if (ladderRun start calls).position.currentQuantity = 0 then .closed else .open

/-- What a ladder promises along a run: the accounts are right behind every call. -/
def Lawful (start : PositionContext) (calls : List TpCall) : Prop :=
  ∀ made, made <+: calls → Accounts start made

/-- The last declared level is called only after all the others. -/
def LastComesLast (start : PositionContext) (calls : List TpCall) : Prop :=
  ∀ made, made <+: calls → LastCalled start (made.map TpCall.level) →
    ∀ i < start.tpLevels.length, i ∈ made.map TpCall.level

instance (start : PositionContext) (calls : List TpCall) :
    Decidable (LastComesLast start calls) :=
  decidable_of_iff
    (∀ made ∈ calls.inits, LastCalled start (made.map TpCall.level) →
      ∀ i < start.tpLevels.length, i ∈ made.map TpCall.level)
    (by simp only [LastComesLast, List.mem_inits])

section Lawful

variable {start : PositionContext} {calls : List TpCall}

theorem exists_untriggered_iff (hfresh : FreshLadder start) (calls : List TpCall) :
    (∃ level ∈ (ladderRun start calls).position.tpLevels, level.status ≠ .triggered) ↔
      ∃ i < start.tpLevels.length, i ∉ calls.map TpCall.level := by
  have h := climb_run hfresh calls
  constructor
  · rintro ⟨level, hmem, hwaiting⟩
    obtain ⟨i, hi⟩ := List.mem_iff_getElem?.mp hmem
    have hlt := (List.getElem?_eq_some_iff.mp hi).1
    refine ⟨i, h.length ▸ hlt, fun hcalled => hwaiting ?_⟩
    rw [h.levels, levelsAfter_getElem?] at hi
    obtain ⟨found, -, rfl⟩ := Option.map_eq_some_iff.mp hi
    exact if_pos hcalled
  · rintro ⟨i, hlt, hnew⟩
    obtain ⟨level, hlevel, hwaiting, -⟩ := h.waiting hfresh hlt hnew
    exact ⟨level, List.mem_of_getElem? hlevel, not_triggered_of_isRemaining hwaiting⟩

theorem triggeredPct_lt (hfresh : FreshLadder start) (hwhole : SumsToWhole start)
    {i : ℕ} (hlt : i < start.tpLevels.length) (hnew : i ∉ calls.map TpCall.level) :
    triggeredPct (ladderRun start calls).position.tpLevels < 100 := by
  have h := climb_run hfresh calls
  obtain ⟨level, hlevel, hwaiting, hshare, -⟩ := h.waiting hfresh hlt hnew
  have hshares : ∀ level ∈ (ladderRun start calls).position.tpLevels, 0 ≤ level.closePct := by
    intro level hmem
    have hpct : level.closePct ∈ start.tpLevels.map TPLevel.closePct := by
      rw [← map_closePct_levelsAfter false (calls.map TpCall.level), ← h.levels]
      exact List.mem_map_of_mem hmem
    obtain ⟨original, horiginal, hsame⟩ := List.mem_map.mp hpct
    exact hsame ▸ (hfresh.share original horiginal).le
  have hle := triggeredPct_add_le (List.mem_of_getElem? hlevel)
    (not_triggered_of_isRemaining hwaiting) hshares
  rw [h.levels, map_closePct_levelsAfter, ← h.levels, hwhole] at hle
  linarith

theorem accounts_of_not_lastCalled (hfresh : FreshLadder start) (calls : List TpCall)
    (hquantity : SumsToWhole start → LastCalled start (calls.map TpCall.level) →
      ∀ i < start.tpLevels.length, i ∈ calls.map TpCall.level) :
    Accounts start calls := by
  have h := climb_run hfresh calls
  refine ⟨h.history, fun i => ?_, fun c hmem => ?_, fun hwhole huntriggered => ?_, h.nonneg,
    h.state⟩
  · refine (h.shifts i).trans ?_
    unfold calledOnce
    split <;> simp
  · rw [ladderRun_append]
    exact h.call_of_mem hmem
  · obtain ⟨i, hlt, hnew⟩ := (exists_untriggered_iff hfresh calls).mp huntriggered
    have hlast : ¬LastCalled start (calls.map TpCall.level) := fun hlast =>
      hnew (hquantity hwhole hlast i hlt)
    have hpct := triggeredPct_lt hfresh hwhole hlt hnew
    rw [h.quantity, if_neg hlast, h.original]
    refine max_eq_left (mul_nonneg hfresh.positive.le ?_)
    linarith

/-- **A ladder keeps its promises exactly when the last declared level comes last.**  Called
early it closes the whole position, whatever the levels that still wait were to close.  A ladder
whose percentages do not add up promises nothing about the quantity. -/
theorem lawful_iff (start : PositionContext) (hfresh : FreshLadder start)
    (calls : List TpCall) :
    Lawful start calls ↔ (SumsToWhole start → LastComesLast start calls) := by
  constructor
  · intro hlawful hwhole made hmade hlast i hlt
    by_contra hnew
    have h := climb_run hfresh made
    have hlaw := (hlawful made hmade).quantity hwhole
      ((exists_untriggered_iff hfresh made).mpr ⟨i, hlt, hnew⟩)
    have hpct := triggeredPct_lt hfresh hwhole hlt hnew
    rw [h.quantity, if_pos hlast, h.original] at hlaw
    have hleft : 0 < start.originalQuantity *
        (1 - triggeredPct (ladderRun start made).position.tpLevels / 100) :=
      mul_pos hfresh.positive (by linarith)
    exact absurd hlaw.symm hleft.ne'
  · intro hcondition made hmade
    refine accounts_of_not_lastCalled hfresh made fun hwhole hlast => ?_
    exact hcondition hwhole made hmade hlast

theorem freshLadder_twoTargets : FreshLadder twoTargets where
  machine := rfl
  state := rfl
  whole := rfl
  positive := by decide +kernel
  waiting := by decide
  share := by decide +kernel
  undispatched := rfl

/-- The two targets in order, the first one reported twice. -/
theorem lawful_inOrder : Lawful twoTargets [{ level := 0 }, { level := 0 }, { level := 1 }] :=
  (lawful_iff twoTargets freshLadder_twoTargets _).mpr fun _ => by decide

/-- The second of two targets is reported before the first. -/
theorem skippedTarget_closesAll : ¬Lawful twoTargets [{ level := 1 }] := by
  intro hlawful
  have hlaw := (hlawful _ (List.prefix_refl _)).quantity (by decide +kernel)
    ⟨firstTarget, by decide +kernel, by decide⟩
  revert hlaw
  decide +kernel

end Lawful

end MultiTp
end AdviserConstructor
