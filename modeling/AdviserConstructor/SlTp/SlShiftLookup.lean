import AdviserConstructor.SlTp.TpFills

/-!
# The stop shift and the lookup before it

`_dispatch_sl_shift` of `app/services/sl_tp/multi_tp.py`, with everything that its `raw_live`
can hold: the replies of the signature of `get_position`, the `None` that stands in for an
exception, and an object of some other type, which the guard takes for "unknown".

A shift that is due moves the stop behind a take-profit that has been taken.  Only a position
that the exchange reports as flat makes it pointless.

* `dispatchSlShift_eq_shiftTask`: the shift of the engine is this one, at the replies of the
  signature.
* `shiftTask_target`: the task is a `replace_sl` of the position with the resolved target.
* `movesStop_iff`: a due shift is enqueued unless the exchange reports a flat position, provided
  that the lookup does not raise.  The log line of a lookup that raises says that the move
  proceeds, but the `None` behind it reads as a flat position.
-/

namespace AdviserConstructor
namespace MultiTp

/-! ## The shift -/

/-- The size up to which the pre-flight check takes a position for flat. -/
def preFlightDust : ℚ := 1 / 1000000000

/-- `live_mark`. -/
def liveMark : RawLive → Option ℚ
  | .reply (.snapshot live) => if 0 < live.markPrice then some live.markPrice else none
  | _ => none

/-- `_dispatch_sl_shift`: the `replace_sl` task, if the stop moves. -/
def shiftTask (position : PositionContext) (level : TPLevel) (triggeredLevel : ℕ)
    (triggerSource : String) (raw : RawLive) (now : ℚ) (nowMs : ℕ) : Option OrderTask :=
  if triggeredLevel + 1 = position.tpLevels.length then none
  else if position.currentQuantity ≤ 0 then none
  else
    match resolveSlShiftTarget position level with
    | none => none
    | some newSlPrice =>
        if slPricesEqual newSlPrice position.currentSlPrice then none
        else if wouldTriggerImmediately position.side newSlPrice level.triggerPrice then none
        else if raw.isNone then none
        else if raw.liveSize.any (· ≤ preFlightDust) then none
        else
          some (enqueueSlReplace position newSlPrice triggeredLevel (liveMark raw)
            (some (.slAdjustment (slAdjustmentReason position triggeredLevel) triggerSource))
            now nowMs)

/-- **The shift of the engine is this one**, at the replies that the signature allows. -/
theorem dispatchSlShift_eq_shiftTask (position : PositionContext) (level : TPLevel)
    (triggeredLevel : ℕ) (triggerSource : String) (live : PositionReply) (now : ℚ)
    (nowMs : ℕ) :
    dispatchSlShift position level triggeredLevel triggerSource live now nowMs =
      shiftTask position level triggeredLevel triggerSource (.reply live) now nowMs := by
  unfold dispatchSlShift shiftTask
  cases live with
  | raised => rfl
  | noPosition => rfl
  | snapshot live =>
      simp only [RawLive.isNone, RawLive.liveSize, Option.any_some, decide_eq_true_eq,
        Bool.false_eq_true, liveMark]
      rfl

/-! ## When a shift is due -/

/-- The fill of the level asks for the stop to go to `target`: the level is not the last one,
something is left open, and the target is resolved, new and on the allowed side. -/
structure ShiftDue (position : PositionContext) (level : TPLevel) (triggeredLevel : ℕ)
    (target : ℚ) : Prop where
  notLast : triggeredLevel + 1 ≠ position.tpLevels.length
  «open» : 0 < position.currentQuantity
  resolved : resolveSlShiftTarget position level = some target
  differs : slPricesEqual target position.currentSlPrice = false
  allowed : wouldTriggerImmediately position.side target level.triggerPrice = false

section Shift

variable {position : PositionContext} {level : TPLevel} {triggeredLevel : ℕ} {target : ℚ}

theorem ShiftDue.shiftTask_eq (h : ShiftDue position level triggeredLevel target)
    (triggerSource : String) (raw : RawLive) (now : ℚ) (nowMs : ℕ) :
    shiftTask position level triggeredLevel triggerSource raw now nowMs =
      if raw.isNone then none
      else if raw.liveSize.any (· ≤ preFlightDust) then none
      else
        some (enqueueSlReplace position target triggeredLevel (liveMark raw)
          (some (.slAdjustment (slAdjustmentReason position triggeredLevel) triggerSource))
          now nowMs) := by
  unfold shiftTask
  rw [if_neg h.notLast, if_neg (not_le.mpr h.open), h.resolved]
  simp only [h.differs, h.allowed, Bool.false_eq_true, if_false]

theorem passes_iff {raw : RawLive} :
    (raw.isNone = false ∧ raw.liveSize.any (· ≤ preFlightDust) = false) ↔
      raw ≠ .reply .raised ∧ ¬raw.ReportsFlat preFlightDust := by
  rcases raw with (live | - | -) | -
  · simp [RawLive.isNone, RawLive.liveSize, RawLive.ReportsFlat]
  · simp [RawLive.isNone, RawLive.ReportsFlat]
  · simp [RawLive.isNone]
  · simp [RawLive.isNone, RawLive.liveSize, RawLive.ReportsFlat]

theorem ShiftDue.enqueued (h : ShiftDue position level triggeredLevel target)
    (triggerSource : String) {raw : RawLive} (now : ℚ) (nowMs : ℕ)
    (hraised : raw ≠ .reply .raised) (hflat : ¬raw.ReportsFlat preFlightDust) :
    shiftTask position level triggeredLevel triggerSource raw now nowMs =
      some (enqueueSlReplace position target triggeredLevel (liveMark raw)
        (some (.slAdjustment (slAdjustmentReason position triggeredLevel) triggerSource))
        now nowMs) := by
  obtain ⟨hnone, hdust⟩ := passes_iff.mpr ⟨hraised, hflat⟩
  rw [h.shiftTask_eq, hnone, hdust]
  rfl

theorem ShiftDue.suppressed (h : ShiftDue position level triggeredLevel target)
    (triggerSource : String) (now : ℚ) (nowMs : ℕ) :
    shiftTask position level triggeredLevel triggerSource (.reply .raised) now nowMs = none := by
  rw [h.shiftTask_eq]
  rfl

/-- The task of a shift replaces the stop of its position, at the target. -/
structure MovesTo (position : PositionContext) (target : ℚ) (task : OrderTask) : Prop where
  position : task.positionId = position.positionId
  action : task.action = .replaceSl
  target : task.params.slTarget = .float target
  closePosition : TaskParams.requireBool task.params "close_position" true = true

/-- **What is enqueued is a `replace_sl` of the position at the resolved target.** -/
theorem enqueueSlReplace_movesTo (position : PositionContext) (target : ℚ) (triggeredLevel : ℕ)
    (mark : Option ℚ) (onSuccess : Option SuccessCallback) (now : ℚ) (nowMs : ℕ) :
    MovesTo position target
      (enqueueSlReplace position target triggeredLevel mark onSuccess now nowMs) := by
  refine ⟨rfl, rfl, ?_, ?_⟩
  · cases mark <;>
      simp [enqueueSlReplace, InsertionDict.ofList, TaskParams.slTarget, TaskParams.getD_assign]
  · cases mark <;>
      simp [enqueueSlReplace, InsertionDict.ofList, TaskParams.requireBool,
        TaskParams.getD_assign]

/-! ## A lookup that fails -/

/-- A due shift moves the stop to its target, unless the exchange reports the position as
flat. -/
def MovesStop (position : PositionContext) (level : TPLevel) (triggeredLevel : ℕ)
    (triggerSource : String) (raw : RawLive) (now : ℚ) (nowMs : ℕ) : Prop :=
  ∀ target, ShiftDue position level triggeredLevel target → ¬raw.ReportsFlat preFlightDust →
    ∃ task, shiftTask position level triggeredLevel triggerSource raw now nowMs = some task ∧
      MovesTo position target task

/-- **A due shift moves the stop exactly when the lookup does not raise.**  For a level whose
fill asks for no shift there is nothing to move. -/
theorem movesStop_iff (position : PositionContext) (level : TPLevel) (triggeredLevel : ℕ)
    (triggerSource : String) (raw : RawLive) (now : ℚ) (nowMs : ℕ) :
    MovesStop position level triggeredLevel triggerSource raw now nowMs ↔
      ¬(raw = .reply .raised ∧ ∃ target, ShiftDue position level triggeredLevel target) := by
  constructor
  · rintro hmoves ⟨rfl, target, hdue⟩
    obtain ⟨task, htask, -⟩ := hmoves target hdue fun hflat => hflat
    rw [hdue.suppressed] at htask
    cases htask
  · intro hnot target hdue hflat
    have hraised : raw ≠ .reply .raised := fun hraised => hnot ⟨hraised, target, hdue⟩
    exact ⟨_, hdue.enqueued triggerSource now nowMs hraised hflat,
      enqueueSlReplace_movesTo position target triggeredLevel _ _ now nowMs⟩

/-- The first target fills while `get_position` raises: the stop stays where it was. -/
theorem shift_suppressed_onOutage :
    ¬MovesStop (bookFill twoTargets 0 firstTarget) firstTarget 0 "order_trade_update"
      (.reply .raised) 0 0 := by
  intro hmoves
  have hdue : ShiftDue (bookFill twoTargets 0 firstTarget) firstTarget 0 100 :=
    ⟨by decide, by decide +kernel, by decide +kernel, by decide +kernel, by decide +kernel⟩
  obtain ⟨task, htask, -⟩ := hmoves 100 hdue fun hflat => hflat
  rw [hdue.suppressed] at htask
  cases htask

end Shift

end MultiTp
end AdviserConstructor
