import AdviserConstructor.Position.SlIntents

/-!
# Parameters and callbacks

A task of `app/services/position/order_queue.py` carries the callback that runs when it has been
executed.  Coalescing gives a task the parameters of the later enqueue call and leaves it the
callback of the earlier one, so that a callback may report an order that another call has asked
for, and an order may be placed that no callback reports.

* `step_records`: what a step writes into the task objects is what an enqueue call writes.
* `callbackMatches_of_run`: the callback that runs behind an execution is that of the enqueue call
  whose parameters were executed, if every call that was folded into the task before carries the
  callback of the task.
* `callback_ofEarlierLevel`: two levels of a multi-TP ladder in one window.
-/

namespace AdviserConstructor
namespace QueueState

/-! ## What a step records -/

/-- The task that a step enqueues: that of the caller, or the emergency task of an escalation. -/
def enqueuedBy (s : QueueState) : QueueStep → Option OrderTask
  | .enqueue task => some task
  | .escalate now =>
      match s.phase with
      | .escalating id _ error => escalationOf (s.store id) error now
      | _ => none
  | _ => none

variable {s t : QueueState}

/-- A step records nothing, or what an enqueue call records. -/
theorem step_records {a : QueueStep} (h : step s a = some t) :
    (t.fresh = s.fresh ∧ t.history.accepted = s.history.accepted ∧
      t.history.intent = s.history.intent ∧
      ∀ id, (t.store id).params = (s.store id).params ∧
        (t.store id).onSuccess = (s.store id).onSuccess) ∨
    ∃ task ∈ s.enqueuedBy a, t.fresh = (s.enqueue task).fresh ∧
      t.store = (s.enqueue task).store ∧ t.history = (s.enqueue task).history := by
  cases effect_of_step h with
  | enqueue task => exact .inr ⟨task, rfl, rfl, rfl, rfl⟩
  | purge positionId actions => exact .inl ⟨rfl, rfl, rfl, fun _ => ⟨rfl, rfl⟩⟩
  | move same held _ _ _ _ =>
      refine .inl ⟨same.fresh, by rw [same.history], by rw [same.history], fun id => ?_⟩
      obtain ⟨n, hn⟩ := same.store id
      rw [hn]
      exact ⟨rfl, rfl⟩
  | take phase popped => exact .inl ⟨rfl, rfl, rfl, fun _ => ⟨rfl, rfl⟩⟩
  | drop phase hit => exact .inl ⟨rfl, rfl, rfl, fun _ => ⟨rfl, rfl⟩⟩
  | pass phase miss => exact .inl ⟨rfl, rfl, rfl, fun _ => ⟨rfl, rfl⟩⟩
  | @execute id key phase live defaultId =>
      obtain ⟨-, hfresh, hstore, -, -, -, -, haccepted, hintent⟩ :=
        beginExecution_spec s id key live defaultId
      refine .inl ⟨hfresh, haccepted, hintent, fun other => ?_⟩
      rw [hstore]
      exact ⟨rfl, rfl⟩
  | putBack phase => exact .inl ⟨rfl, rfl, rfl, fun _ => ⟨rfl, rfl⟩⟩
  | @escalate id key error emergency now phase escalated =>
      refine .inr ⟨emergency, ?_, rfl, rfl, rfl⟩
      rw [enqueuedBy, phase]
      exact escalated
  | finish phase => exact .inl ⟨rfl, rfl, rfl, fun _ => ⟨rfl, rfl⟩⟩

/-! ## The callback of a task -/

theorem onSuccess_enqueue (hs : WellFormed s) (task : OrderTask) {id : TaskId} (hid : id < s.fresh)
    :
    id < (s.enqueue task).fresh ∧
      ((s.enqueue task).store id).onSuccess = (s.store id).onSuccess := by
  rcases enqueue_cases hs.keys_current task with ⟨k, target, -, h⟩ | ⟨-, h⟩
  · refine ⟨by rw [h.fresh]; exact hid, ?_⟩
    by_cases htarget : id = target
    · rw [htarget]
      exact h.callback
    · obtain ⟨new, hstore, -⟩ := h.store
      rw [hstore, Function.update_of_ne htarget]
  · refine ⟨by rw [h.fresh]; exact Nat.lt_succ_of_lt hid, ?_⟩
    rw [h.store, Function.update_of_ne hid.ne]

theorem onSuccess_of_run {as : List QueueStep} (hs : WellFormed s) {id : TaskId}
    (hid : id < s.fresh) (hrun : run s as = some t) :
    (t.store id).onSuccess = (s.store id).onSuccess := by
  refine (StepSystem.run_invariant step
    (I := fun u => WellFormed u ∧ id < u.fresh ∧
      (u.store id).onSuccess = (s.store id).onSuccess) ?_ ⟨hs, hid, rfl⟩ hrun).2.2
  rintro u a v ⟨hwell, hfresh, hsame⟩ hstep
  refine ⟨(effect_of_step hstep).wellFormed hwell, ?_⟩
  rcases step_records hstep with ⟨hfresh', -, -, hstore⟩ | ⟨task, -, hfresh', hstore, -⟩
  · rw [hfresh', (hstore id).2]
    exact ⟨hfresh, hsame⟩
  · obtain ⟨hlt, hkept⟩ := onSuccess_enqueue hwell task hfresh
    rw [hfresh', hstore, hkept]
    exact ⟨hlt, hsame⟩

/-! ## The callback of the parameters -/

/-- The enqueue call whose parameters a task carries has supplied its callback as well. -/
def CarriesCallback (s : QueueState) (id : TaskId) : Prop :=
  ∃ supplied, s.history.accepted[s.history.intent id]? = some supplied ∧
    supplied.params = (s.store id).params ∧ supplied.onSuccess = (s.store id).onSuccess

/-- The condition on a step: a call that is folded into the task carries its callback. -/
def SameCallback (id : TaskId) (s : QueueState) (a : QueueStep) : Prop :=
  ∀ task ∈ s.enqueuedBy a, s.coalesceTarget task = some id →
    task.onSuccess = (s.store id).onSuccess

instance (id : TaskId) (s : QueueState) (a : QueueStep) : Decidable (SameCallback id s a) := by
  unfold SameCallback
  infer_instance

theorem CarriesCallback.enqueue (hs : WellFormed s) {task : OrderTask} {id : TaskId}
    (hid : id < (s.enqueue task).fresh) (h : id < s.fresh → s.CarriesCallback id)
    (hsame : s.coalesceTarget task = some id → task.onSuccess = (s.store id).onSuccess) :
    (s.enqueue task).CarriesCallback id := by
  unfold CarriesCallback
  rcases enqueue_cases hs.keys_current task with ⟨k, target, htarget, hc⟩ | ⟨-, hq⟩
  · obtain ⟨new, hstore, hparams, -⟩ := hc.store
    rw [hc.history]
    by_cases hit : id = target
    · subst hit
      refine ⟨task, ?_, ?_, ?_⟩
      · simp
      · rw [hstore, Function.update_self, hparams]
      · rw [hc.callback]
        exact hsame htarget
    · obtain ⟨supplied, haccepted, hparams', hcallback⟩ := h (by rw [← hc.fresh]; exact hid)
      refine ⟨supplied, ?_, ?_, ?_⟩
      · simp only [Function.update_of_ne hit]
        exact getElem?_concat_of_eq_some haccepted
      · rw [hstore, Function.update_of_ne hit]
        exact hparams'
      · rw [hstore, Function.update_of_ne hit]
        exact hcallback
  · rw [hq.history, hq.store]
    by_cases hnew : id = s.fresh
    · subst hnew
      refine ⟨task, ?_, ?_, ?_⟩
      · simp
      · rw [Function.update_self]
      · rw [Function.update_self]
    · have hold : id < s.fresh := by
        rw [hq.fresh] at hid
        exact lt_of_le_of_ne (Nat.lt_succ_iff.mp hid) hnew
      obtain ⟨supplied, haccepted, hparams, hcallback⟩ := h hold
      refine ⟨supplied, ?_, ?_, ?_⟩
      · simp only [Function.update_of_ne hnew]
        exact getElem?_concat_of_eq_some haccepted
      · rw [Function.update_of_ne hnew]
        exact hparams
      · rw [Function.update_of_ne hnew]
        exact hcallback

theorem carriesCallback_of_run {as : List QueueStep} {id : TaskId} (hrun : run initial as = some s)
    (hsame : StepSystem.AlongRun step (SameCallback id) initial as) (hid : id < s.fresh) :
    s.CarriesCallback id := by
  refine (StepSystem.invariant_of_alongRun step
    (I := fun u => WellFormed u ∧ (id < u.fresh → u.CarriesCallback id)) ?_
    ⟨wellFormed_initial, fun h => absurd h (Nat.not_lt_zero _)⟩ hsame hrun).2 hid
  rintro u a v ⟨hwell, hcarries⟩ hsame hstep
  refine ⟨(effect_of_step hstep).wellFormed hwell, fun hv => ?_⟩
  rcases step_records hstep with ⟨hfresh, haccepted, hintent, hstore⟩ |
    ⟨task, htask, hfresh, hstore, hhistory⟩
  · obtain ⟨supplied, hmem, hparams, hcallback⟩ := hcarries (by rw [← hfresh]; exact hv)
    refine ⟨supplied, ?_, ?_, ?_⟩
    · rw [haccepted, hintent]
      exact hmem
    · rw [(hstore id).1]
      exact hparams
    · rw [(hstore id).2]
      exact hcallback
  · have henqueued : (u.enqueue task).CarriesCallback id :=
      CarriesCallback.enqueue hwell (by rw [← hfresh]; exact hv) hcarries (hsame task htask)
    unfold CarriesCallback at henqueued ⊢
    rw [hhistory, hstore]
    exact henqueued

/-! ## Executions -/

/-- The execution whose adapter call is in progress or has succeeded, with the callback that runs
behind it. -/
def callbackDue (t : QueueState) : Option (TaskId × ℕ × Option SuccessCallback) :=
  match t.phase with
  | .executing id _ event | .callback id _ event => some (id, event, (t.store id).onSuccess)
  | _ => none

/-- The callback that runs behind the execution of the task that begins in `s`, if it is still
that one in `t`, was supplied with the enqueue call whose parameters are executed. -/
def CallbackMatches (s t : QueueState) (id : TaskId) : Prop :=
  ∀ callback, t.callbackDue = some (id, s.nextEvent, callback) →
    ∃ supplied, s.history.accepted[s.history.intent id]? = some supplied ∧
      supplied.params = (s.store id).params ∧ callback = supplied.onSuccess

theorem callback_of_callbackDue {id : TaskId} {event : ℕ} {callback : Option SuccessCallback}
    (h : t.callbackDue = some (id, event, callback)) : callback = (t.store id).onSuccess := by
  unfold callbackDue at h
  cases hphase : t.phase with
  | executing other key event' =>
      simp only [hphase, Option.some.injEq] at h
      obtain ⟨rfl, -, rfl⟩ := h
      rfl
  | callback other key event' =>
      simp only [hphase, Option.some.injEq] at h
      obtain ⟨rfl, -, rfl⟩ := h
      rfl
  | _ => simp [hphase] at h

/-- **Parameters and callback travel together** in every run in which the calls that are folded
into the executed task before its execution carry its callback. -/
theorem callbackMatches_of_run {s s' t : QueueState} {before after : List QueueStep}
    {live : PositionReply} {defaultId : String} {id : TaskId} {key : TaskKey}
    (hbefore : run initial before = some s)
    (hsame : StepSystem.AlongRun step (SameCallback id) initial before)
    (hphase : s.phase = .admitted id key)
    (hexecute : step s (.execute live defaultId) = some s') (hafter : run s' after = some t) :
    CallbackMatches s t id := by
  have hwell := wellFormed_of_run hbefore
  have hid : id < s.fresh := hwell.held_fresh id key (by rw [hphase]; rfl)
  obtain ⟨supplied, haccepted, hparams, hcallback⟩ := carriesCallback_of_run hbefore hsame hid
  intro callback hdue
  refine ⟨supplied, haccepted, hparams, ?_⟩
  have hrun : run s (.execute live defaultId :: after) = some t :=
    (StepSystem.run_cons_eq_some step).mpr ⟨s', hexecute, hafter⟩
  rw [callback_of_callbackDue hdue, onSuccess_of_run hwell hid hrun]
  exact hcallback.symm

/-! ### Two levels in one window -/

/-- A move of the stop by a level of the ladder, with the callback of the level. -/
def levelMove (level : String) (createdAt price : ℚ) : OrderTask :=
  { multiTpMove createdAt price with
    onSuccess := some (.slAdjustment level "multi_tp") }

/-- Two moves in one window, up to the execution of the task that holds both. -/
def twoMoves (level level' : String) : List QueueStep :=
  [.startProcessing, .enqueue (levelMove level 0 100), .enqueue (levelMove level' (1 / 5) 105),
   .dequeue, .checkTombstone, .headroom]

/-- Two moves of one level: the callback is that of the second. -/
theorem callbackMatches_sameLevel :
    ∃ s t, run initial (twoMoves "tp1" "tp1") = some s ∧
      step s (.execute .raised "") = some t ∧
      t.callbackDue = some (0, 0, some (.slAdjustment "tp1" "multi_tp")) ∧
      CallbackMatches s t 0 := by
  have hrun : ((run initial (twoMoves "tp1" "tp1")).bind fun s =>
      (step s (.execute .raised "")).map fun t =>
        decide (s.phase = .admitted 0 (levelMove "tp1" (1 / 5) 105).key ∧
          t.callbackDue = some (0, 0, some (.slAdjustment "tp1" "multi_tp")))) = some true := by
    decide +kernel
  obtain ⟨s, hs, hmap⟩ := Option.bind_eq_some_iff.mp hrun
  obtain ⟨t, hstep, hstate⟩ := Option.map_eq_some_iff.mp hmap
  obtain ⟨hphase, hdue⟩ := of_decide_eq_true hstate
  exact ⟨s, t, hs, hstep, hdue,
    callbackMatches_of_run hs (by decide +kernel) hphase hstep (StepSystem.run_nil step t)⟩

/-- The second of two levels is executed with the callback of the first. -/
theorem callback_ofEarlierLevel :
    ∃ s t, run initial (twoMoves "tp1" "tp2") = some s ∧
      step s (.execute .raised "") = some t ∧ ¬CallbackMatches s t 0 := by
  have hrun : ((run initial (twoMoves "tp1" "tp2")).bind fun s =>
      (step s (.execute .raised "")).map fun t =>
        decide (s.nextEvent = 0 ∧
          s.history.accepted[s.history.intent 0]? = some (levelMove "tp2" (1 / 5) 105) ∧
          t.callbackDue = some (0, 0, some (.slAdjustment "tp1" "multi_tp")))) = some true := by
    decide +kernel
  obtain ⟨s, hs, hmap⟩ := Option.bind_eq_some_iff.mp hrun
  obtain ⟨t, hstep, hstate⟩ := Option.map_eq_some_iff.mp hmap
  obtain ⟨hevent, haccepted, hdue⟩ := of_decide_eq_true hstate
  refine ⟨s, t, hs, hstep, fun matched => ?_⟩
  obtain ⟨supplied, hsupplied, -, hcallback⟩ := matched _ (by rw [hdue, hevent])
  obtain rfl := Option.some.inj (haccepted.symm.trans hsupplied)
  exact absurd hcallback (by decide)

end QueueState
end AdviserConstructor
