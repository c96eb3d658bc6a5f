import AdviserConstructor.Exchange.ReplaceCourse
import AdviserConstructor.Position.EmergencyEscalation

/-!
# Moving a closePosition stop through the queue

A `replace_sl` task with `close_position=True` goes through the loop of the queue and the Binance
adapter.  The adapter cancels the old stop first, and the queue drops the task when the new one
would trigger immediately; nobody puts a stop back.

* `closePosition_move_protects_iff`: the position is left without a stop and without an
  emergency close exactly if `StripsProtection` holds of the exchange's answers.
* `immediate_trigger_strips_protection`: the old stop is cancelled, the new one is rejected with
  -2021, and that is the end of it.
-/

namespace AdviserConstructor

open BinanceAdapter

/-- The answers to a closePosition move that leave the position bare.  No stop with the closing
side survives the cancels, none landed by the way, and the attempts end

* in a placement on the wrong side, because `get_position` failed for a short position;
* in the recovery of an order that is not on the book;
* in an immediate-trigger rejection, which the queue drops; or
* in a failure whose task names no positive quantity, so that there is nothing to escalate. -/
def StripsProtection (r : Replies) (req : ReplaceSl) (x : Exchange) (hasQuantity : Bool) : Prop :=
  ¬Survives x req.existingOrderId (oldStopCancelled r req) (closingSide x) ∧
    ((moveCourse r req).landed = true → WrongSide r x) ∧
    match (moveCourse r req).ending with
    | .placed => WrongSide r x
    | .recovered | .skipped => True
    | .failed => hasQuantity = false

namespace QueueState

/-- What the loop does with the outcome of the adapter call of `task`. -/
def settle (task : OrderTask) (outcome : Except TaskError ConditionalOrderResult) (now : ℚ) :
    List QueueStep :=
  match outcome with
  | .ok _ =>
      if task.onSuccess.isSome then [.adapterReturns, .callbackReturns, .release]
      else [.adapterReturns, .release]
  | .error error =>
      if Escalates task error then [.adapterRaises error, .release, .escalate now]
      else [.adapterRaises error, .release]

/-- Between `s` and `t` an emergency close of the position was enqueued. -/
def EmergencyEnqueued (s t : QueueState) (positionId : String) : Prop :=
  ∃ emergency, t.history.accepted = s.history.accepted ++ [emergency] ∧
    emergency.action = .emergencyMarketClose ∧ emergency.positionId = positionId

theorem not_emergencyEnqueued {s t : QueueState} {positionId : String}
    (h : t.history.accepted = s.history.accepted) : ¬EmergencyEnqueued s t positionId := by
  rintro ⟨emergency, haccepted, -⟩
  rw [h] at haccepted
  exact absurd haccepted (by simp)

theorem accepted_enqueue {s : QueueState} (hk : s.KeysCurrent) (task : OrderTask) :
    (s.enqueue task).history.accepted = s.history.accepted ++ [task] := by
  rcases enqueue_cases hk task with ⟨k, id, -, h⟩ | ⟨-, h⟩
  · rw [h.history]
  · rw [h.history]

section Settle

variable {s : QueueState} {id : TaskId} {key : TaskKey} {live : PositionReply}
  {defaultId : String} {call : AdapterCall}

theorem beginExecution_of_call (hcall : executeTask (s.store id).action (s.store id).params live
      defaultId = .ok (some call)) :
    (s.beginExecution id key live defaultId).phase = .executing id key s.nextEvent ∧
      (s.beginExecution id key live defaultId).store = s.store ∧
      (s.beginExecution id key live defaultId).history.accepted = s.history.accepted := by
  simp [beginExecution, hcall]

theorem run_execute (hphase : s.phase = .admitted id key) (as : List QueueStep) :
    run s (.execute live defaultId :: as) = run (s.beginExecution id key live defaultId) as := by
  simp [StepSystem.run, step, hphase]

theorem settle_ok (hphase : s.phase = .admitted id key)
    (hcall : executeTask (s.store id).action (s.store id).params live defaultId = .ok (some call))
    (order : ConditionalOrderResult) (now : ℚ) :
    ∃ t, run s (.execute live defaultId :: settle (s.store id) (.ok order) now) = some t ∧
      t.history.accepted = s.history.accepted := by
  obtain ⟨hphase', hstore, haccepted⟩ := @beginExecution_of_call s id key live defaultId call hcall
  rw [run_execute hphase, ← haccepted]
  cases hcallback : (s.store id).onSuccess.isSome <;>
    simp [settle, StepSystem.run, step, hphase', hstore, hcallback, routeOutcome, unmark]

theorem settle_wouldImmediatelyTrigger (hphase : s.phase = .admitted id key)
    (hcall : executeTask (s.store id).action (s.store id).params live defaultId = .ok (some call))
    (code : Option ℤ) (now : ℚ) :
    ∃ t, run s (.execute live defaultId ::
        settle (s.store id) (.error (.wouldImmediatelyTrigger code)) now) = some t ∧
      t.history.accepted = s.history.accepted := by
  obtain ⟨hphase', hstore, haccepted⟩ := @beginExecution_of_call s id key live defaultId call hcall
  rw [run_execute hphase, ← haccepted]
  simp [settle, Escalates, StepSystem.run, step, hphase', routeOutcome, unmark]

theorem settle_other (hs : WellFormed s) (hphase : s.phase = .admitted id key)
    (hcall : executeTask (s.store id).action (s.store id).params live defaultId = .ok (some call))
    (hsl : (s.store id).action.isSl = true) (message : String) (now : ℚ) :
    ∃ t, run s (.execute live defaultId :: settle (s.store id) (.error (.other message)) now) =
        some t ∧
      (EmergencyEnqueued s t (s.store id).positionId ↔
        (s.store id).params.hasPositiveEmergencyQuantity = true) := by
  obtain ⟨hphase', hstore, haccepted⟩ := @beginExecution_of_call s id key live defaultId call hcall
  have hwf : WellFormed (s.beginExecution id key live defaultId) :=
    (Effect.execute hphase live defaultId).wellFormed hs
  have hsettle : settle (s.store id) (.error (.other message)) now =
      [.adapterRaises (.other message), .release, .escalate now] := by
    simp [settle, Escalates]
  rw [run_execute hphase, hsettle]
  generalize s.beginExecution id key live defaultId = u at hphase' hstore haccepted hwf
  have hkeys : KeysCurrent
      { u.unmark key s.nextEvent with phase := .escalating id key (.other message) } :=
    hwf.keys_current
  by_cases hquantity : (s.store id).params.hasPositiveEmergencyQuantity = true
  · obtain ⟨emergency, reason, hescalation, hposition, haction, -⟩ :=
      escalationOf_eq (.other message) now hsl hquantity
    refine ⟨{ QueueState.enqueue
        { u.unmark key s.nextEvent with phase := .escalating id key (.other message) }
        emergency with phase := .cleanup id key }, ?_, ?_⟩
    · simp [StepSystem.run, step, hphase', hstore, routeOutcome, unmark, hescalation]
    · refine iff_of_true ⟨emergency, ?_, haction, hposition⟩ hquantity
      exact (accepted_enqueue hkeys emergency).trans
        (congrArg (fun accepted => accepted ++ [emergency]) haccepted)
  · have hescalation : escalationOf (s.store id) (.other message) now = none := by
      simp [escalationOf, handleFatalError, escalation, hquantity]
    refine ⟨{ u.unmark key s.nextEvent with phase := .cleanup id key }, ?_, ?_⟩
    · simp [StepSystem.run, step, hphase', hstore, routeOutcome, unmark, hescalation]
    · exact iff_of_false (not_emergencyEnqueued haccepted) hquantity

/-- **A closePosition move protects the position** exactly if the exchange's answers do not strip
it: afterwards a stop with the closing side is on the book, or an emergency close was enqueued.

`s` is any reachable state in which the loop is about to execute the task, `x` the book with the
open position, and `r` the answers to the requests that the adapter makes. -/
theorem closePosition_move_protects_iff {as : List QueueStep} (hrun : run initial as = some s)
    (hphase : s.phase = .admitted id key) (hreplace : (s.store id).action = .replaceSl)
    {req : ReplaceSl} (hclose : req.closePosition = true)
    (hcall : executeTask (s.store id).action (s.store id).params live defaultId =
      .ok (some (.cancelAndReplaceSl req.symbol req.existingOrderId req.newTriggerPrice
        req.newQuantity req.clientOrderId req.closePosition)))
    {r : Replies} {x : Exchange} (honest : Honest r req x) (now : ℚ) :
    ∃ t, run s (.execute live defaultId ::
        settle (s.store id) (cancelAndReplaceSl r x req).1 now) = some t ∧
      (Guarded (cancelAndReplaceSl r x req).2 (closingSide x) ∨
          EmergencyEnqueued s t (s.store id).positionId ↔
        ¬StripsProtection r req x (s.store id).params.hasPositiveEmergencyQuantity) := by
  obtain ⟨hreports, hguarded⟩ := cancelAndReplaceSl_course hclose honest (closingSide x)
  rw [resolveStopLossSide_eq_iff honest.side] at hguarded
  have hsl : (s.store id).action.isSl = true := by
    rw [hreplace]
    rfl
  -- guarded by the old stop, or by a new one that lies on the right side
  have hstripped : (Survives x req.existingOrderId (oldStopCancelled r req) (closingSide x) ∨
        (moveCourse r req).landed = true ∧ ¬WrongSide r x) ↔
      ¬(¬Survives x req.existingOrderId (oldStopCancelled r req) (closingSide x) ∧
        ((moveCourse r req).landed = true → WrongSide r x)) := by
    rw [or_iff_not_imp_left, not_and, Classical.not_imp]
  unfold StripsProtection
  cases hending : (moveCourse r req).ending with
  | placed =>
    rw [hending] at hreports hguarded
    obtain ⟨order, horder⟩ := hreports
    rw [horder]
    obtain ⟨t, ht, haccepted⟩ := settle_ok hphase hcall order now
    refine ⟨t, ht, ?_⟩
    rw [hguarded, or_iff_left (not_emergencyEnqueued haccepted)]
    simp only [or_true, true_and]
    rw [and_iff_right_of_imp fun hwrong _ => hwrong, or_iff_not_imp_left, not_and]
  | recovered =>
    rw [hending] at hreports hguarded
    obtain ⟨order, horder⟩ := hreports
    rw [horder]
    obtain ⟨t, ht, haccepted⟩ := settle_ok hphase hcall order now
    refine ⟨t, ht, ?_⟩
    rw [hguarded, or_iff_left (not_emergencyEnqueued haccepted)]
    simp only [reduceCtorEq, or_false, and_true]
    exact hstripped
  | skipped =>
    rw [hending] at hreports hguarded
    obtain ⟨code, hcode⟩ := hreports
    rw [hcode]
    obtain ⟨t, ht, haccepted⟩ := settle_wouldImmediatelyTrigger hphase hcall code now
    refine ⟨t, ht, ?_⟩
    rw [hguarded, or_iff_left (not_emergencyEnqueued haccepted)]
    simp only [reduceCtorEq, or_false, and_true]
    exact hstripped
  | failed =>
    rw [hending] at hreports hguarded
    obtain ⟨message, hmessage⟩ := hreports
    rw [hmessage]
    obtain ⟨t, ht, henqueued⟩ :=
      settle_other (wellFormed_of_run hrun) hphase hcall hsl message now
    refine ⟨t, ht, ?_⟩
    rw [hguarded, henqueued]
    simp only [reduceCtorEq]
    cases (s.store id).params.hasPositiveEmergencyQuantity with
    | false =>
      simp only [Bool.false_eq_true, or_false, and_true]
      exact hstripped
    | true => simp

end Settle

/-! ## A rejected move -/

/-- The multi-TP engine moves the stop of a long position, and the loop is about to execute it. -/
def admittedMove : List QueueStep :=
  [.startProcessing, .enqueue (enqueueSlReplace longPosition 105 0 none none 0 0), .dequeue,
   .checkTombstone, .headroom]

/-- The call that the task turns into. -/
def moveTo105 : ReplaceSl where
  symbol := "BTCUSDT"
  existingOrderId := "sl-1"
  newTriggerPrice := 105
  newQuantity := 1
  clientOrderId := "7-sl-0"

/-- A long position behind one closePosition stop. -/
def bookWithStop : Exchange where
  positionSide := .long
  orders := [⟨"sl-1", "7-sl", .sell, 90, 1, true⟩]

/-- The exchange confirms the cancel of the old stop and gives every attempt the same answer. -/
def answering (reply : PlaceReply) : Replies where
  side := .snapshot ⟨.long, 1, 106⟩
  cancel := .accepted
  cancelConflict := .accepted
  place _ := reply
  lookup _ := .notFound
  classify _ := .snapshot ⟨.long, 1, 106⟩
  exhausted := .snapshot ⟨.long, 1, 106⟩

/-- `Order would immediately trigger.` -/
def immediateTrigger : PlaceReply :=
  .rejected ⟨400, some (-2021), "Order would immediately trigger."⟩ none

theorem honest_answering {reply : PlaceReply} (h : reply.placedId ≠ some "sl-1") :
    Honest (answering reply) moveTo105 bookWithStop := by
  have hopen : ReportsOpen bookWithStop (.snapshot ⟨.long, 1, 106⟩) :=
    Or.inr ⟨_, rfl, rfl, by norm_num [flatEpsilon]⟩
  refine ⟨hopen, fun _ => hopen, hopen, fun _ orderId horder hsame => h ?_⟩
  rw [← show orderId = "sl-1" from hsame]
  exact horder

theorem admittedMove_admits :
    ∃ s key, run initial admittedMove = some s ∧ s.phase = .admitted 0 key ∧
      s.store 0 = enqueueSlReplace longPosition 105 0 none none 0 0 := by
  have hend : (run initial admittedMove).map (fun s =>
      decide (s.phase = .admitted 0 (s.store 0).key ∧
        s.store 0 = enqueueSlReplace longPosition 105 0 none none 0 0)) = some true := by
    decide +kernel
  obtain ⟨s, hs, hstate⟩ := Option.map_eq_some_iff.mp hend
  obtain ⟨hphase, hstore⟩ := of_decide_eq_true hstate
  exact ⟨s, _, hs, hphase, hstore⟩

/-- The move is accepted: the position ends up behind its new stop. -/
theorem acceptedMove_protects :
    ∃ s t, run initial admittedMove = some s ∧
      run s (.execute .raised "" :: settle (s.store 0)
        (cancelAndReplaceSl (answering (.accepted "sl-2")) bookWithStop moveTo105).1 0) =
          some t ∧
      (Guarded (cancelAndReplaceSl (answering (.accepted "sl-2")) bookWithStop moveTo105).2 .sell ∨
        EmergencyEnqueued s t (s.store 0).positionId) := by
  obtain ⟨s, key, hs, hphase, hstore⟩ := admittedMove_admits
  have hcall : executeTask (s.store 0).action (s.store 0).params .raised "" =
      .ok (some (.cancelAndReplaceSl moveTo105.symbol moveTo105.existingOrderId
        moveTo105.newTriggerPrice moveTo105.newQuantity moveTo105.clientOrderId
        moveTo105.closePosition)) := by
    rw [hstore]
    decide +kernel
  have haccept : Honest (answering (.accepted "sl-2")) moveTo105 bookWithStop :=
    honest_answering (by decide)
  obtain ⟨t, ht, hiff⟩ := closePosition_move_protects_iff hs hphase (by rw [hstore]; rfl) rfl
    hcall haccept 0
  refine ⟨s, t, hs, ht, hiff.mpr ?_⟩
  rintro ⟨-, -, hending⟩
  exact absurd hending.1 (by decide)

/-- **The stop is gone**: it is cancelled up front, the new one would trigger immediately, the
task is dropped and the queue has come to rest. -/
theorem immediate_trigger_strips_protection :
    ∃ s t, run initial admittedMove = some s ∧
      Honest (answering immediateTrigger) moveTo105 bookWithStop ∧
      run s (.execute .raised "" :: settle (s.store 0)
        (cancelAndReplaceSl (answering immediateTrigger) bookWithStop moveTo105).1 0) = some t ∧
      (cancelAndReplaceSl (answering immediateTrigger) bookWithStop moveTo105).2.orders = [] ∧
      ¬EmergencyEnqueued s t (s.store 0).positionId ∧ t.heap = [] := by
  obtain ⟨s, key, hs, hphase, hstore⟩ := admittedMove_admits
  have hhonest : Honest (answering immediateTrigger) moveTo105 bookWithStop :=
    honest_answering (by decide)
  have hend : ((run initial admittedMove).bind fun s =>
      (run s (.execute .raised "" :: settle (s.store 0)
        (cancelAndReplaceSl (answering immediateTrigger) bookWithStop moveTo105).1 0)).map
          fun t => decide (t.history.accepted = s.history.accepted ∧ t.heap = [])) =
            some true := by
    decide +kernel
  rw [hs] at hend
  obtain ⟨t, ht, hstate⟩ := Option.map_eq_some_iff.mp hend
  obtain ⟨haccepted, hheap⟩ := of_decide_eq_true hstate
  exact ⟨s, t, hs, hhonest, ht, by decide +kernel, not_emergencyEnqueued haccepted, hheap⟩

end QueueState

end AdviserConstructor
