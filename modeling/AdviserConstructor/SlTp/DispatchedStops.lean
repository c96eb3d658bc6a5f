import AdviserConstructor.Exchange.BinanceSl
import AdviserConstructor.Position.QueueInvariants
import AdviserConstructor.SlTp.StopMonotone
import AdviserConstructor.Ws.Callbacks

/-!
# The stops behind the realtime adjustments

A realtime adjustment passes through four hands: the adjuster moves the stop price of the
position and builds a `replace_sl` task, the queue takes the task in, the loop calls the adapter,
and the adapter places the new order and cancels the id it was given.  `StopRuntime` is the four
of them together, and a run is any interleaving of ticks, of the queue's loop and of the adapter's
answers, on an exchange that does what it is asked to (`Obeys`).

The id that a task cancels is the one the position carries.  The multi-TP engine gives its tasks
a success callback that writes the id of the new order back; the realtime adjuster gives none.

* `consistent_iff`: a position has exactly one stop on the exchange, and carries its id, exactly
  as long as none of its adjustments has been executed.
* `second_adjustment_leaves_two_stops`: the second adjustment cancels the id of an order that is
  long gone, and two stops stay.

An order id is given out once, so a cancel reaches the stops of one position only, and the book
of every position is kept on its own.
-/

namespace AdviserConstructor

open StepSystem BinanceAdapter

/-! ## The system -/

/-- The adjuster with its positions, the queue, and the exchange. -/
structure StopRuntime where
  adjuster : Adjuster
  positions : List PositionContext
  /-- the tasks that the adjuster has built and the queue has not been given yet -/
  outbox : List OrderTask
  queue : QueueState
  /-- the call that the adapter is carrying out, with the id of the position -/
  inFlight : Option (String × ReplaceSl)
  book : String → Exchange
  /-- the order ids that the exchange has given out -/
  used : List String

/-- What happens next. -/
inductive StopEvent where
  | tick (tick : Adjuster.Tick)
  /-- the next task of the outbox is enqueued -/
  | dispatch
  /-- a step of the loop that neither calls the adapter nor fails -/
  | loop (a : QueueStep)
  | call
  /-- the adapter carries out an adjustment of the position and returns -/
  | answer (positionId : String) (r : Replies)

/-- The exchange accepts the placement under an id that it has not given out, and cancels the
existing order if it is live. -/
def Obeys (used : List String) (r : Replies) (x : Exchange) (req : ReplaceSl) : Prop :=
  (match r.place 0 with
    | .accepted orderId => orderId ∉ used
    | _ => False) ∧
  match r.cancel with
  | .accepted => True
  | .rejected _ => ∀ o ∈ x.orders, o.orderId ≠ req.existingOrderId
  | .raised _ _ => False

instance (used : List String) (r : Replies) (x : Exchange) (req : ReplaceSl) :
    Decidable (Obeys used r x req) := by
  unfold Obeys
  refine @instDecidableAnd _ _ ?_ ?_
  · split <;> infer_instance
  · split <;> infer_instance

/-- The steps of the loop on the way from one successful call to the next. -/
def QueueStep.isQuiet : QueueStep → Bool
  | .startProcessing | .stop | .leave | .dequeue | .checkTombstone | .headroom | .headroomLost
  | .callbackReturns | .release | .cleanup => true
  | _ => false

namespace StopRuntime

/-- The call that the held task turns into. -/
def heldCall (s : StopRuntime) : Option (String × ReplaceSl) :=
  match s.queue.phase with
  | .admitted id _ =>
      let task := s.queue.store id
      match executeTask task.action task.params .raised "" with
      | .ok (some (.cancelAndReplaceSl symbol existingOrderId newTriggerPrice newQuantity
          clientOrderId closePosition)) =>
          some (task.positionId,
            ⟨symbol, existingOrderId, newTriggerPrice, newQuantity, clientOrderId, closePosition⟩)
      | _ => none
  | _ => none

/-- The success callback of the held task, applied to the position it closes over. -/
def runCallback (s : StopRuntime) (positionId : String) (result : ConditionalOrderResult) :
    List PositionContext :=
  match s.queue.phase.held with
  | some (id, _) =>
      match (s.queue.store id).onSuccess with
      | some callback =>
          s.positions.map fun position =>
            if position.positionId = positionId then
              PositionContext.applyCallback result position callback
            else position
      | none => s.positions
  | none => s.positions

def step (env : TrackerEnv) (s : StopRuntime) : StopEvent → Option StopRuntime
  | .tick tick =>
      let (adjuster, visited) := s.adjuster.onTick env tick s.positions
      some
        { s with
          adjuster := adjuster
          positions := visited.map Prod.fst
          outbox := s.outbox ++ visited.filterMap Prod.snd }
  | .dispatch =>
      match s.outbox with
      | [] => none
      | task :: rest => some { s with outbox := rest, queue := s.queue.enqueue task }
  | .loop a =>
      if a.isQuiet then (s.queue.step a).map fun queue => { s with queue := queue } else none
  | .call =>
      match s.heldCall with
      | none => none
      | some call =>
          (s.queue.step (.execute .raised "")).map fun queue =>
            { s with queue := queue, inFlight := some call }
  | .answer positionId r =>
      match s.inFlight with
      | none => none
      | some (id, req) =>
          if id = positionId ∧ Obeys s.used r (s.book positionId) req then
            match cancelAndReplaceSl r (s.book positionId) req with
            | (.error _, _) => none
            | (.ok result, x) =>
                (s.queue.step .adapterReturns).map fun queue =>
                  { s with
                    positions := s.runCallback positionId result
                    queue := queue
                    inFlight := none
                    book := Function.update s.book positionId x
                    used := result.exchangeOrderId :: s.used }
          else none

/-- Exactly one stop of the position is live, and the position carries its id. -/
def Consistent (s : StopRuntime) (position : PositionContext) : Prop :=
  ∃ o, (s.book position.positionId).orders = [o] ∧ position.slExchangeOrderId = some o.orderId

/-- Where a run starts: positions that each sit behind one stop whose id they carry, and an idle
queue. -/
structure Start (s : StopRuntime) : Prop where
  queue : s.queue = .initial
  outbox : s.outbox = []
  inFlight : s.inFlight = none
  consistent : ∀ position ∈ s.positions, s.Consistent position
  used : ∀ positionId, ∀ o ∈ (s.book positionId).orders, o.orderId ∈ s.used

/-! ## What a tick dispatches -/

/-- The position id and the stop's order id. -/
def stopIds (position : PositionContext) : String × Option String :=
  (position.positionId, position.slExchangeOrderId)

/-- A `replace_sl` task of the realtime adjuster for one of the positions: it names the order id
that the position carries, keeps the reduce-only form, and has no success callback. -/
structure Dispatched (ids : List (String × Option String)) (task : OrderTask) : Prop where
  action : task.action = .replaceSl
  callback : task.onSuccess = none
  existing : ∃ orderId, (task.positionId, some orderId) ∈ ids ∧
    task.params.lookup "existing_order_id" = .str orderId
  reduceOnly : TaskParams.requireBool task.params "close_position" true = false

theorem dispatchReplaceSl_dispatched {accountId : String} {position : PositionContext}
    {newSlPrice : ℚ} {reason : String} {now : ℚ} {nowMs : ℕ} {task : OrderTask}
    (h : dispatchReplaceSl accountId position newSlPrice reason now nowMs = some task) :
    Dispatched [stopIds position] task := by
  unfold dispatchReplaceSl at h
  cases hid : position.slExchangeOrderId with
  | none =>
    simp only [hid] at h
    cases h
  | some existing =>
    simp only [hid] at h
    split at h
    · cases h
    · obtain rfl := Option.some.inj h
      refine ⟨rfl, rfl, ⟨existing, ?_, ?_⟩, ?_⟩
      · rw [List.mem_singleton, stopIds, hid]
      · simp [InsertionDict.ofList, TaskParams.lookup_assign]
      · simp [TaskParams.requireBool, InsertionDict.ofList, TaskParams.getD_assign]

variable {ids : List (String × Option String)}

theorem Dispatched.mono {ids' : List (String × Option String)} {task : OrderTask}
    (h : Dispatched ids task) (hsub : ∀ e ∈ ids, e ∈ ids') : Dispatched ids' task := by
  obtain ⟨orderId, hmem, hlookup⟩ := h.existing
  exact ⟨h.action, h.callback, ⟨orderId, hsub _ hmem, hlookup⟩, h.reduceOnly⟩

theorem stopIds_applyStateChanges (position : PositionContext) (result : SLAdjustmentResult) :
    stopIds (Adjuster.applyStateChanges position result) = stopIds position := by
  have hfold : ∀ (updates : List TrackingUpdate) (p : PositionContext),
      stopIds (updates.foldl Adjuster.applyTracking p) = stopIds p := by
    intro updates
    induction updates with
    | nil => exact fun p => rfl
    | cons update updates ih =>
      intro p
      rw [List.foldl_cons, ih]
      cases update <;> rfl
  exact hfold result.updateTracking position

theorem visitPosition_spec (env : TrackerEnv) (killed : List String) (currentPrice now : ℚ)
    (nowMs : ℕ) (adj : Adjuster) (position : PositionContext) :
    stopIds (adj.visitPosition env killed currentPrice now nowMs position).1 = stopIds position ∧
      ∀ task ∈ (adj.visitPosition env killed currentPrice now nowMs position).2,
        Dispatched [stopIds position] task := by
  unfold Adjuster.visitPosition
  cases adj.visitResult env killed currentPrice now position with
  | none => exact ⟨rfl, fun task htask => absurd htask (by simp)⟩
  | some result =>
    have hids := stopIds_applyStateChanges position result
    exact ⟨hids, fun task htask => hids ▸ dispatchReplaceSl_dispatched htask⟩

theorem visitAll_spec (env : TrackerEnv) (killed : List String) (currentPrice now : ℚ) (nowMs : ℕ)
    (adj : Adjuster) (positions : List PositionContext) :
    ((Adjuster.visitAll env killed currentPrice now nowMs adj positions).2.map Prod.fst).map
        stopIds = positions.map stopIds ∧
      ∀ task ∈ (Adjuster.visitAll env killed currentPrice now nowMs adj positions).2.filterMap
          Prod.snd, Dispatched (positions.map stopIds) task := by
  induction positions generalizing adj with
  | nil => exact ⟨rfl, fun task htask => absurd htask (by simp [Adjuster.visitAll])⟩
  | cons position rest ih =>
    obtain ⟨hids, htasks⟩ := visitPosition_spec env killed currentPrice now nowMs adj position
    obtain ⟨hrest, htasks'⟩ := ih (adj.afterVisit env killed currentPrice now position)
    constructor
    · simp only [Adjuster.visitAll, List.map_cons, hids, List.cons.injEq, true_and]
      exact hrest
    · intro task htask
      simp only [Adjuster.visitAll, List.filterMap_cons] at htask
      cases hsent : (adj.visitPosition env killed currentPrice now nowMs position).2 with
      | none =>
        rw [hsent] at htask
        exact (htasks' task htask).mono fun e he => List.mem_cons_of_mem _ he
      | some sent =>
        rw [hsent] at htask
        rcases List.mem_cons.mp htask with rfl | htask
        · exact (htasks task hsent).mono fun e he =>
            List.mem_singleton.mp he ▸ List.mem_cons_self ..
        · exact (htasks' task htask).mono fun e he => List.mem_cons_of_mem _ he

/-- **A tick** leaves all ids alone, and what it dispatches names them. -/
theorem onTick_spec (env : TrackerEnv) (adj : Adjuster) (tick : Adjuster.Tick)
    (positions : List PositionContext) :
    ((adj.onTick env tick positions).2.map Prod.fst).map stopIds = positions.map stopIds ∧
      ∀ task ∈ (adj.onTick env tick positions).2.filterMap Prod.snd,
        Dispatched (positions.map stopIds) task := by
  have hidle : ((positions.map fun position => (position, (none : Option OrderTask))).map
        Prod.fst).map stopIds = positions.map stopIds ∧
      ∀ task ∈ (positions.map fun position => (position, (none : Option OrderTask))).filterMap
        Prod.snd, Dispatched (positions.map stopIds) task := by
    constructor
    · rw [List.map_map, List.map_map]
      rfl
    · intro task htask
      exact absurd htask (by simp)
  unfold Adjuster.onTick
  cases adj.updateBuffer tick.event with
  | none => exact hidle
  | some updated =>
    dsimp only
    split
    · exact hidle
    · exact visitAll_spec env _ _ _ _ _ positions

/-! ## What the queue makes of it -/

/-- The queue holds dispatched tasks only. -/
structure Fed (ids : List (String × Option String)) (q : QueueState) : Prop where
  wf : q.WellFormed
  accepted : ∀ task ∈ q.history.accepted, Dispatched ids task
  callback : ∀ id < q.fresh, (q.store id).onSuccess = none

theorem Fed.enqueue {q : QueueState} {task : OrderTask} (hq : Fed ids q)
    (htask : Dispatched ids task) : Fed ids (q.enqueue task) := by
  have haccepted : ∀ t ∈ q.history.accepted ++ [task], Dispatched ids t := by
    intro t ht
    rcases List.mem_append.mp ht with ht | ht
    · exact hq.accepted t ht
    · exact List.mem_singleton.mp ht ▸ htask
  rcases QueueState.enqueue_cases hq.wf.keys_current task with ⟨k, i, -, h⟩ | ⟨-, h⟩
  · refine ⟨hq.wf.enqueue task, ?_, fun id hid => ?_⟩
    · rw [h.history]
      exact haccepted
    · rw [h.fresh] at hid
      by_cases hi : id = i
      · rw [hi, h.callback]
        exact hq.callback i (hi ▸ hid)
      · obtain ⟨new, hstore, -⟩ := h.store
        rw [hstore, Function.update_of_ne hi]
        exact hq.callback id hid
  · refine ⟨hq.wf.enqueue task, ?_, fun id hid => ?_⟩
    · rw [h.history]
      exact haccepted
    · rw [h.store]
      by_cases hi : id = q.fresh
      · rw [hi, Function.update_self]
        exact htask.callback
      · rw [Function.update_of_ne hi]
        rw [h.fresh] at hid
        exact hq.callback id (lt_of_le_of_ne (Nat.lt_succ_iff.mp hid) hi)

theorem Fed.step {q q' : QueueState} {a : QueueStep} (hq : Fed ids q)
    (henqueue : ∀ task, a ≠ .enqueue task) (hescalate : ∀ now, a ≠ .escalate now)
    (hstep : q.step a = some q') : Fed ids q' := by
  have heffect := QueueState.effect_of_step hstep
  have hwf := heffect.wellFormed hq.wf
  have hkeep : q'.history.accepted = q.history.accepted ∧ q'.fresh = q.fresh ∧
      ∀ id, (q'.store id).onSuccess = (q.store id).onSuccess := by
    cases heffect with
    | enqueue task => exact absurd rfl (henqueue task)
    | purge => exact ⟨rfl, rfl, fun _ => rfl⟩
    | move same =>
      refine ⟨congrArg _ same.history, same.fresh, fun id => ?_⟩
      obtain ⟨n, hn⟩ := same.store id
      rw [hn]
    | take => exact ⟨rfl, rfl, fun _ => rfl⟩
    | drop => exact ⟨rfl, rfl, fun _ => rfl⟩
    | pass => exact ⟨rfl, rfl, fun _ => rfl⟩
    | execute =>
      obtain ⟨-, hfresh, hstore, -, -, -, -, haccepted, -⟩ :=
        QueueState.beginExecution_spec q _ _ _ _
      exact ⟨haccepted, hfresh, fun id => by rw [hstore]⟩
    | putBack => exact ⟨rfl, rfl, fun _ => rfl⟩
    | escalate => exact absurd rfl (hescalate _)
    | finish => exact ⟨rfl, rfl, fun _ => rfl⟩
  obtain ⟨haccepted, hfresh, hcallback⟩ := hkeep
  refine ⟨hwf, haccepted ▸ hq.accepted, fun id hid => ?_⟩
  rw [hcallback]
  exact hq.callback id (hfresh ▸ hid)

theorem executeTask_replaceSl {params : TaskParams} {live : PositionReply} {defaultId : String}
    {symbol existingOrderId clientOrderId : String} {newTriggerPrice newQuantity : ℚ}
    {closePosition : Bool}
    (h : executeTask .replaceSl params live defaultId =
      .ok (some (.cancelAndReplaceSl symbol existingOrderId newTriggerPrice newQuantity
        clientOrderId closePosition))) :
    TaskParams.requireStr params "existing_order_id" = .ok existingOrderId ∧
      closePosition = TaskParams.requireBool params "close_position" true := by
  simp only [executeTask, bind, Except.bind, pure] at h
  -- one reader after the other succeeds
  repeat' split at h
  all_goals cases h
  exact ⟨by assumption, rfl⟩

theorem executeTask_dispatched {task : OrderTask} (htask : Dispatched ids task)
    {symbol existingOrderId clientOrderId : String} {newTriggerPrice newQuantity : ℚ}
    {closePosition : Bool} (h : executeTask task.action task.params .raised "" =
      .ok (some (.cancelAndReplaceSl symbol existingOrderId newTriggerPrice newQuantity
        clientOrderId closePosition))) :
    closePosition = false ∧ (task.positionId, some existingOrderId) ∈ ids := by
  obtain ⟨orderId, hmem, hlookup⟩ := htask.existing
  rw [htask.action] at h
  obtain ⟨hexisting, hclose⟩ := executeTask_replaceSl h
  have hget : task.params.getD "existing_order_id" .none = .str orderId := hlookup
  unfold TaskParams.requireStr at hexisting
  simp only [hget] at hexisting
  split at hexisting
  · cases hexisting
    exact ⟨hclose.trans htask.reduceOnly, hmem⟩
  · cases hexisting

/-! ## What the exchange makes of it -/

/-- The book after an obeyed adjustment. -/
def replacedBook (x : Exchange) (req : ReplaceSl) (sent : StopOrder) : Exchange :=
  { x with
    orders := (x.orders ++ [sent]).filter fun o =>
      !hasRealExisting req.existingOrderId || o.orderId ≠ req.existingOrderId }

theorem concludeReplace_obeyed {used : List String} {r : Replies} {x : Exchange}
    {req : ReplaceSl} (hobeys : Obeys used r x req) (hreduce : req.closePosition = false)
    {sent : StopOrder} (hnew : sent.orderId ≠ req.existingOrderId) :
    concludeReplace r req (.placed (stopLossResult sent), { x with orders := x.orders ++ [sent] }) =
      (.ok (stopLossResult sent), replacedBook x req sent) := by
  obtain ⟨-, hcancel⟩ := hobeys
  by_cases hreal : hasRealExisting req.existingOrderId = true
  · cases hc : r.cancel with
    | accepted =>
      simp [concludeReplace, replacedBook, hreduce, hreal, hc, cancelExistingSl,
        CancelReply.effective]
    | raised message effective =>
      rw [hc] at hcancel
      exact hcancel.elim
    | rejected effective =>
      rw [hc] at hcancel
      -- nothing on the book has the id, so it does not matter what the cancel did
      have hkeep : (x.orders ++ [sent]).filter
          (fun o => decide (o.orderId ≠ req.existingOrderId)) = x.orders ++ [sent] := by
        refine List.filter_eq_self.mpr fun o ho => decide_eq_true ?_
        rcases List.mem_append.mp ho with ho | ho
        · exact hcancel o ho
        · exact List.mem_singleton.mp ho ▸ hnew
      cases effective with
      | true =>
        simp [concludeReplace, replacedBook, hreduce, hreal, hc, cancelExistingSl,
          CancelReply.effective]
      | false =>
        simp only [concludeReplace, replacedBook, hreal, hc, cancelExistingSl,
          CancelReply.effective, Bool.not_true, Bool.false_or, hkeep]
        simp
  · simp [concludeReplace, replacedBook, hreal]

theorem cancelAndReplaceSl_obeyed {used : List String} {r : Replies} {x : Exchange}
    {req : ReplaceSl} (hobeys : Obeys used r x req) (hreduce : req.closePosition = false)
    (hused : req.existingOrderId ∈ used) :
    ∃ sent, sent.orderId ∉ used ∧
      cancelAndReplaceSl r x req = (.ok (stopLossResult sent), replacedBook x req sent) := by
  obtain ⟨orderId, hreply, hfresh⟩ : ∃ orderId, r.place 0 = .accepted orderId ∧ orderId ∉ used := by
    have hplace := hobeys.1
    cases hreply : r.place 0 with
    | accepted orderId =>
      rw [hreply] at hplace
      exact ⟨orderId, rfl, hplace⟩
    | rejected error landed =>
      rw [hreply] at hplace
      exact hplace.elim
    | raised message landed =>
      rw [hreply] at hplace
      exact hplace.elim
  let sent := stopOrder r (resolveStopLossSide r.side) req.newQuantity req.newTriggerPrice
    (attemptClientId req.clientOrderId 0) false orderId
  have hnew : sent.orderId ≠ req.existingOrderId := by
    intro hsame
    rw [← hsame] at hused
    exact hfresh hused
  have hfirst : attemptLoop r req (resolveStopLossSide r.side) [0, 1, 2, 3] none false x =
      (.placed (stopLossResult sent), { x with orders := x.orders ++ [sent] }) := by
    simp [attemptLoop, placeStopLoss, hreply, PlaceReply.placedId, hreduce, sent]
  refine ⟨sent, hfresh, ?_⟩
  rw [← concludeReplace_obeyed hobeys hreduce hnew, ← hfirst]
  simp [cancelAndReplaceSl, hreduce]

/-! ## The link between the four -/

/-- What holds in every state of a run whose positions carry the ids `ids`. -/
structure Linked (ids : List (String × Option String)) (s : StopRuntime) : Prop where
  positions : s.positions.map stopIds = ids
  outbox : ∀ task ∈ s.outbox, Dispatched ids task
  queue : Fed ids s.queue
  inFlight : ∀ positionId req, s.inFlight = some (positionId, req) →
    req.closePosition = false ∧ (positionId, some req.existingOrderId) ∈ ids
  used : ∀ positionId orderId, (positionId, some orderId) ∈ ids → orderId ∈ s.used

variable {positionId : String} {s t : StopRuntime}

theorem heldCall_spec (hs : Fed ids s.queue) {req : ReplaceSl}
    (h : s.heldCall = some (positionId, req)) :
    req.closePosition = false ∧ (positionId, some req.existingOrderId) ∈ ids := by
  unfold heldCall at h
  split at h
  · next id key hphase =>
    have hid : id < s.queue.fresh := hs.wf.held_fresh id key (by rw [hphase]; rfl)
    obtain ⟨task, haccepted, hposition, haction, hparams⟩ := hs.wf.carries id hid
    have htask := hs.accepted task (List.mem_of_getElem? haccepted)
    dsimp only at h
    rw [← hposition, ← haction, ← hparams] at h
    split at h
    · next hcall =>
      cases h
      exact executeTask_dispatched htask hcall
    · cases h
  · cases h

theorem runCallback_eq (hs : Fed ids s.queue) (positionId : String)
    (result : ConditionalOrderResult) : s.runCallback positionId result = s.positions := by
  unfold runCallback
  cases hheld : s.queue.phase.held with
  | none => rfl
  | some held =>
    obtain ⟨id, key⟩ := held
    simp only [hs.callback id (hs.wf.held_fresh id key hheld)]

variable {env : TrackerEnv}

/-- What an answer does: a new stop is on the book of the position, the stop whose id the position
carries is not, and the position is left alone. -/
theorem answer_spec (hs : Linked ids s) {r : Replies}
    (h : step env s (.answer positionId r) = some t) :
    ∃ req sent, (positionId, some req.existingOrderId) ∈ ids ∧ sent.orderId ∉ s.used ∧
      t.book = Function.update s.book positionId (replacedBook (s.book positionId) req sent) ∧
      t.positions = s.positions ∧ t.used = sent.orderId :: s.used ∧ t.outbox = s.outbox ∧
      t.inFlight = none ∧ s.queue.step .adapterReturns = some t.queue := by
  simp only [step] at h
  split at h
  · cases h
  · next id req hflight =>
    split at h
    · next hobeys =>
      obtain ⟨rfl, hobeys⟩ := hobeys
      obtain ⟨hreduce, hmem⟩ := hs.inFlight id req hflight
      obtain ⟨sent, hfresh, hresult⟩ :=
        cancelAndReplaceSl_obeyed hobeys hreduce (hs.used id _ hmem)
      simp only [hresult] at h
      obtain ⟨queue, hqueue, rfl⟩ := Option.map_eq_some_iff.mp h
      exact ⟨req, sent, hmem, hfresh, rfl, runCallback_eq hs.queue id _, rfl, rfl, rfl, hqueue⟩
    · cases h

theorem step_frame {e : StopEvent} (he : ∀ positionId r, e ≠ .answer positionId r)
    (h : step env s e = some t) : t.book = s.book ∧ t.used = s.used := by
  cases e with
  | tick tick =>
    cases h
    exact ⟨rfl, rfl⟩
  | dispatch =>
    simp only [step] at h
    split at h
    · cases h
    · cases h
      exact ⟨rfl, rfl⟩
  | loop a =>
    simp only [step] at h
    split at h
    · obtain ⟨queue, -, rfl⟩ := Option.map_eq_some_iff.mp h
      exact ⟨rfl, rfl⟩
    · cases h
  | call =>
    simp only [step] at h
    split at h
    · cases h
    · obtain ⟨queue, -, rfl⟩ := Option.map_eq_some_iff.mp h
      exact ⟨rfl, rfl⟩
  | answer positionId r => exact absurd rfl (he positionId r)

/-- **The link holds along every run.** -/
theorem Linked.step {e : StopEvent} (hs : Linked ids s) (h : StopRuntime.step env s e = some t) :
    Linked ids t := by
  cases e with
  | tick tick =>
    cases h
    obtain ⟨hids, htasks⟩ := onTick_spec env s.adjuster tick s.positions
    rw [hs.positions] at hids htasks
    refine ⟨hids, fun task htask => ?_, hs.queue, hs.inFlight, hs.used⟩
    rcases List.mem_append.mp htask with htask | htask
    · exact hs.outbox task htask
    · exact htasks task htask
  | dispatch =>
    simp only [StopRuntime.step] at h
    split at h
    · cases h
    · next task rest houtbox =>
      cases h
      have hall : ∀ other ∈ task :: rest, Dispatched ids other := houtbox ▸ hs.outbox
      exact ⟨hs.positions, fun other hother => hall other (List.mem_cons_of_mem _ hother),
        hs.queue.enqueue (hall task (List.mem_cons_self ..)), hs.inFlight, hs.used⟩
  | loop a =>
    simp only [StopRuntime.step] at h
    split at h
    · next hquiet =>
      obtain ⟨queue, hqueue, rfl⟩ := Option.map_eq_some_iff.mp h
      refine ⟨hs.positions, hs.outbox, hs.queue.step ?_ ?_ hqueue, hs.inFlight, hs.used⟩
      · rintro task rfl
        exact absurd hquiet (by simp [QueueStep.isQuiet])
      · rintro now rfl
        exact absurd hquiet (by simp [QueueStep.isQuiet])
    · cases h
  | call =>
    simp only [StopRuntime.step] at h
    split at h
    · cases h
    · next call hcall =>
      obtain ⟨queue, hqueue, rfl⟩ := Option.map_eq_some_iff.mp h
      refine ⟨hs.positions, hs.outbox, hs.queue.step (by simp) (by simp) hqueue, ?_, hs.used⟩
      intro positionId req hflight
      cases hflight
      exact heldCall_spec hs.queue hcall
  | answer positionId r =>
    obtain ⟨req, sent, -, -, -, hpositions, hused, houtbox, hflight, hqueue⟩ := answer_spec hs h
    refine ⟨hpositions ▸ hs.positions, houtbox ▸ hs.outbox,
      hs.queue.step (by simp) (by simp) hqueue, ?_, ?_⟩
    · intro positionId req h
      exact absurd (hflight ▸ h) (by simp)
    · intro positionId orderId hmem
      rw [hused]
      exact List.mem_cons_of_mem _ (hs.used positionId orderId hmem)

/-! ## One stop, or the wrong one -/

/-- A stop of the position is on the book whose id the position does not carry. -/
def Strayed (ids : List (String × Option String)) (positionId : String) (s : StopRuntime) : Prop :=
  ∃ o ∈ (s.book positionId).orders, (positionId, some o.orderId) ∉ ids

theorem strayed_answer (hs : Linked ids s) {r : Replies}
    (h : StopRuntime.step env s (.answer positionId r) = some t) : Strayed ids positionId t := by
  obtain ⟨req, sent, hmem, hfresh, hbook, -⟩ := answer_spec hs h
  refine ⟨sent, ?_, fun hsent => hfresh (hs.used positionId _ hsent)⟩
  rw [hbook, Function.update_self, replacedBook, List.mem_filter]
  refine ⟨List.mem_append_right _ (List.mem_singleton_self sent), ?_⟩
  have hnew : sent.orderId ≠ req.existingOrderId := by
    intro hsame
    exact hfresh (hsame ▸ hs.used positionId _ hmem)
  simp [hnew]

theorem Strayed.step {e : StopEvent} (hs : Linked ids s) (hstray : Strayed ids positionId s)
    (h : StopRuntime.step env s e = some t) : Strayed ids positionId t := by
  by_cases he : ∃ id r, e = .answer id r
  · obtain ⟨id, r, rfl⟩ := he
    by_cases hid : id = positionId
    · subst hid
      exact strayed_answer hs h
    · obtain ⟨o, ho, hstray⟩ := hstray
      obtain ⟨req, sent, -, -, hbook, -⟩ := answer_spec hs h
      refine ⟨o, ?_, hstray⟩
      rw [hbook, Function.update_of_ne (Ne.symm hid)]
      exact ho
  · have hbook := (step_frame (fun id r hr => he ⟨id, r, hr⟩) h).1
    unfold Strayed
    rw [hbook]
    exact hstray

theorem Start.linked (hs : Start s) : Linked (s.positions.map stopIds) s where
  positions := rfl
  outbox task htask := absurd (hs.outbox ▸ htask) List.not_mem_nil
  queue := by
    rw [hs.queue]
    exact ⟨QueueState.wellFormed_initial, fun task htask => absurd htask List.not_mem_nil,
      fun id hid => absurd hid (Nat.not_lt_zero id)⟩
  inFlight positionId req h := absurd (hs.inFlight ▸ h) (by simp)
  used positionId orderId hmem := by
    obtain ⟨position, hposition, hids⟩ := List.mem_map.mp hmem
    obtain ⟨o, hbook, hid⟩ := hs.consistent position hposition
    have hoid : position.slExchangeOrderId = some orderId := congrArg Prod.snd hids
    have ho : o.orderId = orderId := Option.some.inj (hid.symm.trans hoid)
    rw [← ho]
    exact hs.used position.positionId o (hbook ▸ List.mem_singleton_self o)

theorem Strayed.not_consistent (hs : Linked ids s) {position : PositionContext}
    (hposition : position ∈ s.positions) (hstray : Strayed ids position.positionId s) :
    ¬s.Consistent position := by
  rintro ⟨o, hbook, hid⟩
  obtain ⟨other, hother, hstray⟩ := hstray
  rw [hbook, List.mem_singleton] at hother
  subst hother
  refine hstray ?_
  rw [← hs.positions, ← hid]
  exact List.mem_map_of_mem hposition

theorem book_eq_of_run {as : List StopEvent} (hlinked : Linked (s.positions.map stopIds) s)
    (hrun : run (StopRuntime.step env) s as = some t) (hnone : ∀ r, .answer positionId r ∉ as) :
    t.book positionId = s.book positionId := by
  have hkeep : Linked (s.positions.map stopIds) t ∧ t.book positionId = s.book positionId := by
    refine invariant_of_alongRun (StopRuntime.step env)
      (P := fun _ e => ∀ r, e ≠ .answer positionId r)
      (I := fun u => Linked (s.positions.map stopIds) u ∧ u.book positionId = s.book positionId)
      ?_ ⟨hlinked, rfl⟩ (alongRun_of_forall _ fun e he r hr => hnone r (hr ▸ he)) hrun
    rintro u e u' ⟨hu, hbook⟩ he hstep
    refine ⟨hu.step hstep, ?_⟩
    by_cases hanswer : ∃ id r, e = .answer id r
    · obtain ⟨id, r, rfl⟩ := hanswer
      obtain ⟨req, sent, -, -, hbook', -⟩ := answer_spec hu hstep
      have hid : positionId ≠ id := fun hsame => he r (hsame ▸ rfl)
      rw [hbook', Function.update_of_ne hid, hbook]
    · rw [(step_frame (fun id r hr => hanswer ⟨id, r, hr⟩) hstep).1, hbook]
  exact hkeep.2

theorem strayed_of_run {as : List StopEvent} {r : Replies}
    (hlinked : Linked (s.positions.map stopIds) s) (hrun : run (StopRuntime.step env) s as = some t)
    (hanswer : .answer positionId r ∈ as) : Strayed (s.positions.map stopIds) positionId t := by
  obtain ⟨before, after, rfl⟩ := List.append_of_mem hanswer
  rw [run_append] at hrun
  obtain ⟨u, hu, hrest⟩ := Option.bind_eq_some_iff.mp hrun
  obtain ⟨u', hstep, hafter⟩ := (run_cons_eq_some (StopRuntime.step env)).mp hrest
  have hlinked' : Linked (s.positions.map stopIds) u :=
    run_invariant (StopRuntime.step env) (fun _ _ _ hI h => hI.step h) hlinked hu
  have hend : Linked (s.positions.map stopIds) t ∧
      Strayed (s.positions.map stopIds) positionId t :=
    run_invariant (StopRuntime.step env)
      (I := fun v => Linked (s.positions.map stopIds) v ∧
        Strayed (s.positions.map stopIds) positionId v)
      (fun _ _ _ hI h => ⟨hI.1.step h, hI.2.step hI.1 h⟩)
      ⟨hlinked'.step hstep, strayed_answer hlinked' hstep⟩ hafter
  exact hend.2

/-- **A position has exactly one stop, and carries its id**, if and only if none of its
adjustments has been executed. -/
theorem consistent_iff {env : TrackerEnv} {s t : StopRuntime} {as : List StopEvent}
    (hstart : Start s) (hrun : run (StopRuntime.step env) s as = some t)
    {position : PositionContext} (hposition : position ∈ t.positions) :
    t.Consistent position ↔ ∀ r, .answer position.positionId r ∉ as := by
  have hlinked : Linked (s.positions.map stopIds) t :=
    run_invariant (StopRuntime.step env) (fun _ _ _ hI h => hI.step h) hstart.linked hrun
  constructor
  · intro hconsistent r hanswer
    exact (strayed_of_run hstart.linked hrun hanswer).not_consistent hlinked hposition hconsistent
  · intro hnone
    have hids : stopIds position ∈ s.positions.map stopIds :=
      hlinked.positions ▸ List.mem_map_of_mem hposition
    obtain ⟨before, hbefore, hsame⟩ := List.mem_map.mp hids
    obtain ⟨o, hbook, hid⟩ := hstart.consistent before hbefore
    have hpid : before.positionId = position.positionId := congrArg Prod.fst hsame
    have hoid : before.slExchangeOrderId = position.slExchangeOrderId := congrArg Prod.snd hsame
    refine ⟨o, ?_, hoid ▸ hid⟩
    rw [book_eq_of_run hstart.linked hrun hnone, ← hpid, hbook]

/-! ## Two adjustments -/

/-- The trailed position behind its stop `sl-1`. -/
def trailedStart : StopRuntime where
  adjuster := { symbol := "BTCUSDT" }
  positions := [Adjuster.trailedPosition]
  outbox := []
  queue := .initial
  inFlight := none
  book _ := { positionSide := .long, orders := [⟨"sl-1", "7-sl", .sell, 90, 1, true⟩] }
  used := ["sl-1"]

/-- The exchange accepts the placement, and gives the cancel the answer `cancel`. -/
def obeying (orderId : String) (cancel : CancelReply) : Replies where
  side := .snapshot ⟨.long, 1, 105⟩
  cancel := cancel
  cancelConflict := .accepted
  place _ := .accepted orderId
  lookup _ := .notFound
  classify _ := .snapshot ⟨.long, 1, 105⟩
  exhausted := .snapshot ⟨.long, 1, 105⟩

/-- A bar that moves the trailing stop, up to the adapter call. -/
def adjustmentAt (openTime : ℤ) (price now : ℚ) : List StopEvent :=
  [.tick (Adjuster.flatBar openTime price now), .dispatch, .loop .dequeue, .loop .checkTombstone,
    .loop .headroom, .call]

theorem start_trailedStart : Start trailedStart where
  queue := rfl
  outbox := rfl
  inFlight := rfl
  consistent position h := by
    rw [trailedStart, List.mem_singleton] at h
    exact ⟨_, rfl, by rw [h]; rfl⟩
  used positionId o ho := by
    rw [trailedStart, List.mem_singleton] at ho
    rw [ho]
    exact List.mem_singleton_self "sl-1"

/-- While the first adjustment is under way the position still is behind its stop. -/
theorem consistent_underWay :
    ∃ t, run (StopRuntime.step Adjuster.plainTracker) trailedStart
        (.loop .startProcessing :: adjustmentAt 0 105 10) = some t ∧
      ∀ position ∈ t.positions, t.Consistent position := by
  have hend : (run (StopRuntime.step Adjuster.plainTracker) trailedStart
      (.loop .startProcessing :: adjustmentAt 0 105 10)).isSome = true := by
    decide +kernel
  obtain ⟨t, ht⟩ := Option.isSome_iff_exists.mp hend
  refine ⟨t, ht, fun position hposition => (consistent_iff start_trailedStart ht hposition).mpr ?_⟩
  intro r hr
  simp [adjustmentAt] at hr

/-- **Two stops stay.**  The second adjustment cancels `sl-1` again, which is gone since the
first; its own stop and that of the first are both live. -/
theorem second_adjustment_leaves_two_stops :
    Start trailedStart ∧
      ∃ t, run (StopRuntime.step Adjuster.plainTracker) trailedStart
          (.loop .startProcessing :: adjustmentAt 0 105 10 ++
            [.answer "7" (obeying "sl-2" .accepted), .loop .release, .loop .cleanup] ++
            adjustmentAt 60 110 70 ++ [.answer "7" (obeying "sl-3" (.rejected false))]) = some t ∧
        (t.book "7").orders.map StopOrder.orderId = ["sl-2", "sl-3"] ∧
        ¬∀ position ∈ t.positions, t.Consistent position := by
  have hend : (run (StopRuntime.step Adjuster.plainTracker) trailedStart
      (.loop .startProcessing :: adjustmentAt 0 105 10 ++
        [.answer "7" (obeying "sl-2" .accepted), .loop .release, .loop .cleanup] ++
        adjustmentAt 60 110 70 ++ [.answer "7" (obeying "sl-3" (.rejected false))])).map
          (fun t => decide ((t.book "7").orders.map StopOrder.orderId = ["sl-2", "sl-3"] ∧
            t.positions.map PositionContext.positionId = ["7"])) = some true := by
    decide +kernel
  obtain ⟨t, ht, hstate⟩ := Option.map_eq_some_iff.mp hend
  obtain ⟨hbook, hpositions⟩ := of_decide_eq_true hstate
  refine ⟨start_trailedStart, t, ht, hbook, fun hall => ?_⟩
  have hmem : "7" ∈ t.positions.map PositionContext.positionId :=
    hpositions ▸ List.mem_singleton_self "7"
  obtain ⟨position, hposition, hid⟩ := List.mem_map.mp hmem
  obtain ⟨o, horders, -⟩ := hall position hposition
  rw [hid] at horders
  rw [horders] at hbook
  exact absurd hbook (by simp)

end StopRuntime
end AdviserConstructor
