import AdviserConstructor.Position.PlacementPurge
import AdviserConstructor.Position.Producers
import AdviserConstructor.Ws.Lifecycle

/-!
# What a closed position leaves on the exchange

A handler takes a position to `CLOSED` and goes on to `_cancel_remaining_orders`, or does not.
The cleanup purges the placements of the position from the order queue, waits until no stop is
being placed, collects the ids that the position carries and those that the exchange reports,
and cancels them.  The queue's loop and the exchange go on meanwhile, so a run of `CloseRun`
interleaves the phases of the cleanup with them; the queue may be any that callers and loop can
reach.

A cancel takes its order off the book, which is what "the cancels succeed" means; the ids are fixed
before the first one, so they are one step.  Nobody else enqueues for a position that is being
closed, and the queue's own methods do not raise.

`LeavesNothing` is what a closed position should leave: no conditional order on the book, and no
stop order id.  `Covered` is the condition on a step.

* `leavesNothing_of_run`: a run whose steps are all covered leaves nothing, in every state
  reached, also when the loop runs on behind the cleanup.
* `resync_leaves_orders`: the state sync behind a reconnect closes a position and cleans nothing
  up; and a take-profit placement that is in progress during a cleanup lands behind it.
-/

namespace AdviserConstructor

open StepSystem

namespace PositionContext

/-! ## The end of the cleanup -/

/-- What `_cancel_remaining_orders` writes behind its cancels. -/
def cancelOrders (orderIds : List String) (position : PositionContext) : PositionContext :=
  { position with
    slExchangeOrderId := position.slExchangeOrderId.filter (· ∉ orderIds)
    tpLevels := position.tpLevels.map (cancelLevel orderIds) }

/-- The position carries no stop order id. -/
def NoStop (position : PositionContext) : Prop :=
  ∀ id ∈ position.slExchangeOrderId, id = ""

instance (position : PositionContext) : Decidable position.NoStop := by
  unfold NoStop
  infer_instance

/-- The stop order id of the position is among the ids. -/
def StopKnown (position : PositionContext) (orderIds : List String) : Prop :=
  ∀ id ∈ position.slExchangeOrderId, id ≠ "" → id ∈ orderIds

theorem stopKnown_knownConditionalOrderIds (position : PositionContext) :
    position.StopKnown position.knownConditionalOrderIds := by
  intro id hid hne
  exact List.mem_filter.mpr ⟨List.mem_append_left _ (Option.mem_toList.mpr hid), by simp [hne]⟩

theorem StopKnown.noStop_cancelOrders {position : PositionContext} {orderIds : List String}
    (h : position.StopKnown orderIds) : (position.cancelOrders orderIds).NoStop := by
  intro id hid
  obtain ⟨hid, hnot⟩ := Option.filter_eq_some_iff.mp hid
  by_contra hne
  exact absurd (h id hid hne) (by simpa using hnot)

end PositionContext

open PositionContext

/-! ## The system -/

/-- The handlers that can take a position to `CLOSED`. -/
inductive ClosingPath where
  /-- an order event: a take-profit or a stop-loss fill -/
  | orderEvent (event : OrderEvent)
  | positionUpdate (size : ℚ)
  | resync
  /-- the partial-close reconciler infers a fill -/
  | reconcile (deltaQty : ℚ)

def ClosingPath.handle (answers : Answers) (position : PositionContext) : ClosingPath → Handled
  | .orderEvent event => position.routeLifecycleEvent answers event none
  | .positionUpdate size => position.handlePositionUpdate answers size none
  | .resync =>
      let synced := position.syncPosition answers true
      { position := synced.1, reconciler := none, tasks := synced.2 }
  | .reconcile deltaQty => position.reconcilePartialClose answers deltaQty

/-- The handler takes the position to `CLOSED`, and there is no cleanup. -/
def ClosingPath.closesUncleaned (answers : Answers) (position : PositionContext)
    (path : ClosingPath) : Bool :=
  !(path.handle answers position).cleanup && position.state ≠ .closed &&
    (path.handle answers position).position.state = .closed

/-- Where `_cancel_remaining_orders` stands. -/
inductive CleanupPhase where
  | idle
  | closing
  | purged
  /-- in `await_quiescent`, which waits for some events -/
  | quiescing (events : List ℕ)
  | quiesced
  | fetching (known : List String)
  | cancelling (orderIds : List String)
  | done
  deriving DecidableEq

/-- The placements of the position have been purged, or there were none. -/
def CleanupPhase.isPurged : CleanupPhase → Bool
  | .idle | .closing => false
  | _ => true

/-- The ids to cancel are being collected, or have been. -/
def CleanupPhase.isCollecting : CleanupPhase → Bool
  | .fetching _ | .cancelling _ | .done => true
  | _ => false

/-- The event of the execution in progress. -/
def LoopPhase.running : LoopPhase → Option ℕ
  | .executing _ _ event | .callback _ _ event => some event
  | _ => none

/-- A step of the loop that is no answer of the adapter. -/
def QueueStep.isInternal : QueueStep → Bool
  | .adapterReturns | .adapterRaises _ => false
  | a => a.isLoop

theorem QueueStep.isLoop_of_isInternal {a : QueueStep} (h : a.isInternal = true) :
    a.isLoop = true := by
  cases a <;> first | rfl | exact h

/-- A position with its cleanup, the order queue, and the conditional orders on the exchange. -/
structure CloseRun where
  positionId : String
  position : PositionContext
  phase : CleanupPhase := .idle
  queue : QueueState
  book : List String

/-- What happens next. -/
inductive CloseEvent where
  | handle (path : ClosingPath) (answers : Answers)
  | purge
  | awaitQuiescent
  | quiesced
  | quiesceTimeout
  /-- the ids that the position carries are collected -/
  | collect
  /-- `get_open_conditional_orders` answers or raises -/
  | fetch (answered : Bool)
  | cancelAll
  | loop (a : QueueStep)
  /-- the adapter returns; meanwhile orders have landed on the book and left it -/
  | answer (result : ConditionalOrderResult) (landed removed : List String)
  /-- the adapter raises; orders may have landed all the same -/
  | fail (error : TaskError) (landed removed : List String)
  | vanish (orderId : String)

namespace CloseRun

/-- The events that `await_quiescent` waits for: a stop of the position is being placed. -/
def placingStop (s : CloseRun) : List ℕ :=
  (s.queue.executingKeys.entries.filter fun entry =>
    entry.1.positionId = s.positionId && entry.1.action ∈ [.replaceSl, .placeSl]).map Prod.snd

def Over (s : CloseRun) (events : List ℕ) : Prop := ∀ event ∈ events, event ∉ s.queue.phase.running

instance (s : CloseRun) (events : List ℕ) : Decidable (s.Over events) := by
  unfold Over
  infer_instance

/-- The book behind an adapter call of the task `id`; only a placement puts orders on it. -/
def bookBehind (s : CloseRun) (id : TaskId) (landed removed : List String) : List String :=
  (s.book.filter (· ∉ removed)) ++
    if isPlacement s.positionId (s.queue.store id) then landed else []

/-- The position behind the success callback of the task `id`, if it is one of the position's
placements and carries one. -/
def positionBehind (s : CloseRun) (id : TaskId) (result : ConditionalOrderResult) :
    PositionContext :=
  if isPlacement s.positionId (s.queue.store id) then
    match (s.queue.store id).onSuccess with
    | some callback => applyCallback result s.position callback
    | none => s.position
  else s.position

def step (s : CloseRun) : CloseEvent → Option CloseRun
  | .handle path answers =>
      match s.phase with
      | .idle =>
          let handled := path.handle answers s.position
          some
            { s with
              position := handled.position
              queue := handled.tasks.foldl QueueState.enqueue s.queue
              phase :=
                if handled.cleanup then .closing
                else if path.closesUncleaned answers s.position then .done
                else .idle }
      | _ => none
  | .purge =>
      match s.phase with
      | .closing =>
          some
            { s with
              queue := s.queue.purgePending s.positionId placementActions
              phase := .purged }
      | _ => none
  | .awaitQuiescent =>
      match s.phase with
      | .purged => some { s with phase := .quiescing s.placingStop }
      | _ => none
  | .quiesced =>
      match s.phase with
      | .quiescing events => if s.Over events then some { s with phase := .quiesced } else none
      | _ => none
  | .quiesceTimeout =>
      match s.phase with
      | .quiescing events => if s.Over events then none else some { s with phase := .quiesced }
      | _ => none
  | .collect =>
      match s.phase with
      | .quiesced => some { s with phase := .fetching s.position.knownConditionalOrderIds }
      | _ => none
  | .fetch answered =>
      match s.phase with
      | .fetching known =>
          some { s with phase := .cancelling (known ++ if answered then s.book else []) }
      | _ => none
  | .cancelAll =>
      match s.phase with
      | .cancelling orderIds =>
          some
            { s with
              position := s.position.cancelOrders orderIds
              book := s.book.filter (· ∉ orderIds)
              phase := .done }
      | _ => none
  | .loop a =>
      if a.isInternal then (s.queue.step a).map fun queue => { s with queue := queue } else none
  | .answer result landed removed =>
      match s.queue.phase with
      | .executing id _ _ =>
          (s.queue.step .adapterReturns).map fun queue =>
            { s with
              position := s.positionBehind id result
              queue := queue
              book := s.bookBehind id landed removed }
      | _ => none
  | .fail error landed removed =>
      match s.queue.phase with
      | .executing id _ _ =>
          (s.queue.step (.adapterRaises error)).map fun queue =>
            { s with queue := queue, book := s.bookBehind id landed removed }
      | _ => none
  | .vanish orderId => some { s with book := s.book.filter (· ≠ orderId) }

/-- A run starts before the position is closed, with any queue that can be reached. -/
structure Start (s : CloseRun) : Prop where
  idle : s.phase = .idle
  reachable : ∃ as, QueueState.run .initial as = some s.queue

/-- A position that has been closed leaves nothing: no conditional order is on the book, and it
carries no stop order id. -/
def LeavesNothing (s : CloseRun) : Prop :=
  s.phase = .done → s.position.state = .closed → s.book = [] ∧ s.position.NoStop

instance (s : CloseRun) : Decidable s.LeavesNothing := by
  unfold LeavesNothing
  infer_instance

/-- The condition on a step.

* A handler that closes the position without a cleanup finds nothing on the book, and leaves no
  stop order id and no placement of the position in the queue.
* The purge finds every placement of the position pending under its key.
* When the ids are collected, no placement of the position is past the tombstone check with its
  adapter call still to come or in progress.
* The exchange answers what is open, or the position carries the id of every open order. -/
def Covered (s : CloseRun) : CloseEvent → Prop
  | .handle path answers =>
      let handled := path.handle answers s.position
      path.closesUncleaned answers s.position = true →
        s.book = [] ∧ handled.position.NoStop ∧
          (handled.tasks.foldl QueueState.enqueue s.queue).placements s.positionId = []
  | .purge => s.queue.Purgeable s.positionId
  | .collect => s.queue.Calm s.positionId
  | .fetch answered =>
      match s.phase with
      | .fetching known => answered = true ∨ ∀ id ∈ s.book, id ∈ known
      | _ => True
  | _ => True

instance (s : CloseRun) (e : CloseEvent) : Decidable (s.Covered e) := by
  cases e with
  | fetch answered =>
    unfold Covered
    dsimp only
    split <;> infer_instance
  | _ => unfold Covered; infer_instance

/-! ## What the cleanup has reached -/

/-- What holds along a covered run. -/
structure Reached (s : CloseRun) : Prop where
  wf : s.queue.WellFormed
  heldKey : s.queue.HeldKey
  buried : s.phase.isPurged = true → s.queue.Buried s.positionId
  calm : s.phase.isCollecting = true → s.queue.Calm s.positionId
  fetching : ∀ known, s.phase = .fetching known → s.position.StopKnown known
  cancelling : ∀ orderIds, s.phase = .cancelling orderIds →
    (∀ id ∈ s.book, id ∈ orderIds) ∧ s.position.StopKnown orderIds
  done : s.phase = .done → s.book = [] ∧ s.position.NoStop

section Reached

variable {s t : CloseRun}

theorem Start.reached (h : Start s) : Reached s where
  wf := by
    obtain ⟨as, has⟩ := h.reachable
    exact QueueState.wellFormed_of_run has
  heldKey := by
    obtain ⟨as, has⟩ := h.reachable
    exact QueueState.heldKey_of_run has
  buried hp := absurd hp (by simp [h.idle, CleanupPhase.isPurged])
  calm hp := absurd hp (by simp [h.idle, CleanupPhase.isCollecting])
  fetching known hp := absurd hp (by simp [h.idle])
  cancelling orderIds hp := absurd hp (by simp [h.idle])
  done hp := absurd hp (by simp [h.idle])

theorem CleanupPhase.isPurged_of_isCollecting {p : CleanupPhase} (h : p.isCollecting = true) :
    p.isPurged = true := by
  cases p <;> first | rfl | exact absurd h (by simp [CleanupPhase.isCollecting])

theorem reached_of_phase {position : PositionContext} {queue : QueueState} {p : CleanupPhase}
    (hwf : queue.WellFormed) (hkey : queue.HeldKey) (hcollecting : p.isCollecting = false)
    (hburied : p.isPurged = true → queue.Buried s.positionId) :
    Reached { s with position := position, queue := queue, phase := p } where
  wf := hwf
  heldKey := hkey
  buried := hburied
  calm hp := absurd (hcollecting.symm.trans hp) (by simp)
  fetching known hp := by
    obtain rfl : p = .fetching known := hp
    exact absurd hcollecting (by simp [CleanupPhase.isCollecting])
  cancelling orderIds hp := by
    obtain rfl : p = .cancelling orderIds := hp
    exact absurd hcollecting (by simp [CleanupPhase.isCollecting])
  done hp := by
    obtain rfl : p = .done := hp
    exact absurd hcollecting (by simp [CleanupPhase.isCollecting])

theorem Reached.of_waiting (h : Reached s) {p : CleanupPhase} (hpurged : s.phase.isPurged = true)
    (hcollecting : p.isCollecting = false) : Reached { s with phase := p } :=
  reached_of_phase h.wf h.heldKey hcollecting fun _ => h.buried hpurged

theorem Reached.of_loop (h : Reached s) {a : QueueStep} {queue : QueueState}
    {position : PositionContext} {book : List String} (hloop : a.isLoop = true)
    (hstep : s.queue.step a = some queue)
    (hcalm : s.queue.Calm s.positionId → position = s.position ∧ ∀ id ∈ book, id ∈ s.book) :
    Reached { s with position := position, queue := queue, book := book } where
  wf := (QueueState.effect_of_step hstep).wellFormed h.wf
  heldKey := h.heldKey.step h.wf hstep
  buried hp := (h.buried hp).step h.wf h.heldKey hloop hstep
  calm hp :=
    (h.calm hp).step h.wf (h.buried (CleanupPhase.isPurged_of_isCollecting hp)) hloop hstep
  fetching known hp := by
    have hphase : s.phase = .fetching known := hp
    obtain ⟨rfl, -⟩ := hcalm (h.calm (by rw [hphase]; rfl))
    exact h.fetching known hp
  cancelling orderIds hp := by
    have hphase : s.phase = .cancelling orderIds := hp
    obtain ⟨rfl, hbook⟩ := hcalm (h.calm (by rw [hphase]; rfl))
    obtain ⟨hids, hstop⟩ := h.cancelling orderIds hp
    exact ⟨fun id hid => hids id (hbook id hid), hstop⟩
  done hp := by
    have hphase : s.phase = .done := hp
    obtain ⟨rfl, hbook⟩ := hcalm (h.calm (by rw [hphase]; rfl))
    obtain ⟨hempty, hstop⟩ := h.done hp
    refine ⟨List.eq_nil_iff_forall_not_mem.mpr fun id hid => ?_, hstop⟩
    exact absurd (hempty ▸ hbook id hid) List.not_mem_nil

/-- **While the loop is calm nothing lands**, and the position is left alone. -/
theorem behind_of_calm {id : TaskId} {key : TaskKey} {event : ℕ}
    (hcalm : s.queue.Calm s.positionId) (hphase : s.queue.phase = .executing id key event)
    (result : ConditionalOrderResult) (landed removed : List String) :
    s.positionBehind id result = s.position ∧
      ∀ orderId ∈ s.bookBehind id landed removed, orderId ∈ s.book := by
  have hnot : isPlacement s.positionId (s.queue.store id) = false :=
    hcalm id (by rw [hphase]; rfl)
  simp only [positionBehind, bookBehind, hnot, Bool.false_eq_true, if_false, List.append_nil,
    true_and]
  exact fun orderId hid => (List.mem_filter.mp hid).1

theorem wellFormed_foldl_enqueue {queue : QueueState} (h : queue.WellFormed ∧ queue.HeldKey)
    (tasks : List OrderTask) :
    (tasks.foldl QueueState.enqueue queue).WellFormed ∧
      (tasks.foldl QueueState.enqueue queue).HeldKey := by
  refine List.foldlRecOn (motive := fun q : QueueState => q.WellFormed ∧ q.HeldKey) tasks _ h
    fun q hq task _ => ?_
  exact ⟨hq.1.enqueue task, hq.2.step (a := .enqueue task) hq.1 rfl⟩

theorem Reached.handle (h : Reached s) {path : ClosingPath} {answers : Answers}
    (hcovered : s.Covered (.handle path answers))
    (hstep : CloseRun.step s (.handle path answers) = some t) : Reached t := by
  simp only [CloseRun.step] at hstep
  split at hstep
  · cases hstep
    obtain ⟨hwf, hkey⟩ := wellFormed_foldl_enqueue ⟨h.wf, h.heldKey⟩
      (path.handle answers s.position).tasks
    by_cases hcleanup : (path.handle answers s.position).cleanup = true
    · rw [if_pos hcleanup]
      exact reached_of_phase hwf hkey rfl fun hp => absurd hp (by simp [CleanupPhase.isPurged])
    rw [if_neg hcleanup]
    by_cases hcloses : path.closesUncleaned answers s.position = true
    · -- there was nothing to clean up
      obtain ⟨hbook, hstop, hnone⟩ := hcovered hcloses
      rw [if_pos hcloses]
      exact ⟨hwf, hkey, fun _ => QueueState.buried_of_placements_eq_nil hnone,
        fun _ => QueueState.calm_of_placements_eq_nil hnone,
        fun known hp => absurd hp (by simp), fun ids hp => absurd hp (by simp),
        fun _ => ⟨hbook, hstop⟩⟩
    · rw [if_neg hcloses]
      exact reached_of_phase hwf hkey rfl fun hp => absurd hp (by simp [CleanupPhase.isPurged])
  · cases hstep

theorem Reached.fetch (h : Reached s) {answered : Bool} (hcovered : s.Covered (.fetch answered))
    (hstep : CloseRun.step s (.fetch answered) = some t) : Reached t := by
  simp only [CloseRun.step] at hstep
  split at hstep
  · next known hphase =>
    cases hstep
    simp only [Covered, hphase] at hcovered
    refine ⟨h.wf, h.heldKey, fun _ => h.buried (by rw [hphase]; rfl),
      fun _ => h.calm (by rw [hphase]; rfl), fun known' hp => absurd hp (by simp), ?_,
      fun hp => absurd hp (by simp)⟩
    intro orderIds hp
    obtain rfl : (known ++ if answered = true then s.book else []) = orderIds := by injection hp
    refine ⟨fun id hid => ?_, fun id hid hne => ?_⟩
    · rcases hcovered with hanswered | hknown
      · rw [if_pos hanswered]
        exact List.mem_append_right _ hid
      · exact List.mem_append_left _ (hknown id hid)
    · exact List.mem_append_left _ (h.fetching known hphase id hid hne)
  · cases hstep

theorem Reached.vanish (h : Reached s) (orderId : String) :
    Reached { s with book := s.book.filter (· ≠ orderId) } := by
  have hsub : ∀ id ∈ s.book.filter (· ≠ orderId), id ∈ s.book :=
    fun id hid => (List.mem_filter.mp hid).1
  refine ⟨h.wf, h.heldKey, h.buried, h.calm, h.fetching, fun orderIds hp => ?_, fun hp => ?_⟩
  · obtain ⟨hids, hstop⟩ := h.cancelling orderIds hp
    exact ⟨fun id hid => hids id (hsub id hid), hstop⟩
  · obtain ⟨hempty, hstop⟩ := h.done hp
    refine ⟨List.eq_nil_iff_forall_not_mem.mpr fun id hid => ?_, hstop⟩
    exact absurd (hempty ▸ hsub id hid) List.not_mem_nil

/-- **A covered step** keeps what the cleanup has reached. -/
theorem Reached.step (h : Reached s) {e : CloseEvent} (hcovered : s.Covered e)
    (hstep : CloseRun.step s e = some t) : Reached t := by
  cases e with
  | handle path answers => exact h.handle hcovered hstep
  | purge =>
    simp only [CloseRun.step] at hstep
    split at hstep
    · cases hstep
      have hpurge := QueueState.effect_of_step (s := s.queue)
        (a := .purgePending s.positionId placementActions) rfl
      exact reached_of_phase (hpurge.wellFormed h.wf)
        (h.heldKey.step (a := .purgePending s.positionId placementActions) h.wf rfl) rfl
        fun _ => QueueState.buried_purgePending hcovered
    · cases hstep
  | awaitQuiescent =>
    simp only [CloseRun.step] at hstep
    split at hstep
    · next hphase =>
      cases hstep
      exact h.of_waiting (by rw [hphase]; rfl) rfl
    · cases hstep
  | quiesced =>
    simp only [CloseRun.step] at hstep
    split at hstep
    · next events hphase =>
      split at hstep
      · cases hstep
        exact h.of_waiting (by rw [hphase]; rfl) rfl
      · cases hstep
    · cases hstep
  | quiesceTimeout =>
    simp only [CloseRun.step] at hstep
    split at hstep
    · next events hphase =>
      split at hstep
      · cases hstep
      · cases hstep
        exact h.of_waiting (by rw [hphase]; rfl) rfl
    · cases hstep
  | collect =>
    simp only [CloseRun.step] at hstep
    split at hstep
    · next hphase =>
      cases hstep
      refine ⟨h.wf, h.heldKey, fun _ => h.buried (by rw [hphase]; rfl), fun _ => hcovered, ?_,
        fun orderIds hp => absurd hp (by simp), fun hp => absurd hp (by simp)⟩
      intro known hp
      obtain rfl : s.position.knownConditionalOrderIds = known := by injection hp
      exact stopKnown_knownConditionalOrderIds s.position
    · cases hstep
  | fetch answered => exact h.fetch hcovered hstep
  | cancelAll =>
    simp only [CloseRun.step] at hstep
    split at hstep
    · next orderIds hphase =>
      cases hstep
      obtain ⟨hids, hstop⟩ := h.cancelling orderIds hphase
      refine ⟨h.wf, h.heldKey, fun _ => h.buried (by rw [hphase]; rfl),
        fun _ => h.calm (by rw [hphase]; rfl), fun known hp => absurd hp (by simp),
        fun ids hp => absurd hp (by simp), fun _ => ⟨?_, hstop.noStop_cancelOrders⟩⟩
      exact List.filter_eq_nil_iff.mpr fun id hid => by simpa using hids id hid
    · cases hstep
  | loop a =>
    simp only [CloseRun.step] at hstep
    split at hstep
    · next hinternal =>
      obtain ⟨queue, hqueue, rfl⟩ := Option.map_eq_some_iff.mp hstep
      exact h.of_loop (QueueStep.isLoop_of_isInternal hinternal) hqueue
        fun _ => ⟨rfl, fun id hid => hid⟩
    · cases hstep
  | answer result landed removed =>
    simp only [CloseRun.step] at hstep
    split at hstep
    · next id key event hphase =>
      obtain ⟨queue, hqueue, rfl⟩ := Option.map_eq_some_iff.mp hstep
      exact h.of_loop rfl hqueue fun hcalm => behind_of_calm hcalm hphase result landed removed
    · cases hstep
  | fail error landed removed =>
    simp only [CloseRun.step] at hstep
    split at hstep
    · next id key event hphase =>
      obtain ⟨queue, hqueue, rfl⟩ := Option.map_eq_some_iff.mp hstep
      refine h.of_loop rfl hqueue fun hcalm => ⟨rfl, ?_⟩
      exact (behind_of_calm hcalm hphase ⟨"", "", .stopLoss, 0, 0⟩ landed removed).2
    · cases hstep
  | vanish orderId =>
    cases hstep
    exact h.vanish orderId

end Reached

/-- **A covered run leaves nothing** behind a position that it closes. -/
theorem leavesNothing_of_run {s t : CloseRun} {es : List CloseEvent} (hstart : Start s)
    (hcovered : AlongRun step Covered s es) (hrun : run step s es = some t) : t.LeavesNothing := by
  have hreached : Reached t :=
    invariant_of_alongRun step (I := Reached) (fun _ _ _ hs he hstep => hs.step he hstep)
      hstart.reached hcovered hrun
  exact fun hdone _ => hreached.done hdone

/-! ## Orders that stay -/

/-- A long position whose entry has just filled, with two take-profit levels to be placed. -/
def justEntered : PositionContext where
  positionId := "7"
  symbol := "BTCUSDT"
  state := .open
  stateMachine := { state := .open }
  entryPrice := 100
  originalQuantity := 1
  currentQuantity := 1
  currentSlPrice := 90
  tpMode := .multi
  tpLevels :=
    [{ closePct := 50, triggerPrice := 110 }, { level := 1, closePct := 50, triggerPrice := 120 }]

/-- The same position with all its orders placed. -/
def protectedPosition : PositionContext :=
  { justEntered with
    slExchangeOrderId := some "sl-1"
    tpLevels :=
      [{ closePct := 50, triggerPrice := 110, status := .open, exchangeOrderId := some "tp-1" },
       { level := 1, closePct := 50, triggerPrice := 120, status := .open,
         exchangeOrderId := some "tp-2" }] }

/-- The tasks have been enqueued, and the loop is executing the first one. -/
def executingFirst (tasks : List OrderTask) : List QueueStep :=
  .startProcessing :: tasks.map .enqueue ++
    [.dequeue, .checkTombstone, .headroom, .execute .raised ""]

def queueExecuting (tasks : List OrderTask) : QueueState :=
  (QueueState.run .initial (executingFirst tasks)).getD .initial

theorem reachable_queueExecuting {tasks : List OrderTask}
    (h : (QueueState.run .initial (executingFirst tasks)).isSome = true) :
    ∃ as, QueueState.run .initial as = some (queueExecuting tasks) := by
  obtain ⟨queue, hqueue⟩ := Option.isSome_iff_exists.mp h
  exact ⟨executingFirst tasks, by rw [queueExecuting, hqueue]; rfl⟩

/-- The protection orders are being placed: the stop is in progress. -/
def placingStopRun : CloseRun where
  positionId := "7"
  position := justEntered
  queue := queueExecuting ((enqueueInitialProtectionSl "" justEntered 0 0).toList ++
    justEntered.enqueueInitialProtectionTps {})
  book := []

/-- The protection orders are being placed: a take-profit is in progress. -/
def placingTpRun : CloseRun where
  positionId := "7"
  position := { justEntered with slExchangeOrderId := some "sl-1" }
  queue := queueExecuting (justEntered.enqueueInitialProtectionTps {})
  book := ["sl-1"]

/-- All orders are placed, and the queue is empty. -/
def protectedRun : CloseRun where
  positionId := "7"
  position := protectedPosition
  queue := .initial
  book := ["sl-1", "tp-1", "tp-2"]

theorem start_placingStopRun : Start placingStopRun where
  idle := rfl
  reachable :=
    @reachable_queueExecuting ((enqueueInitialProtectionSl "" justEntered 0 0).toList ++
      justEntered.enqueueInitialProtectionTps {}) (by decide +kernel)

theorem start_placingTpRun : Start placingTpRun where
  idle := rfl
  reachable :=
    @reachable_queueExecuting (justEntered.enqueueInitialProtectionTps {}) (by decide +kernel)

theorem start_protectedRun : Start protectedRun := ⟨rfl, [], rfl⟩

/-- A conditional order as the adapter reports it. -/
def placedOrder (orderId : String) : ConditionalOrderResult := ⟨orderId, "", .stopLoss, 90, 1⟩

/-- The position is gone while its stop is being placed.  The cleanup waits for the stop and
cancels it, and the purged take-profit placements are dropped. -/
def closedWhilePlacing : List CloseEvent :=
  [.handle (.positionUpdate 0) {}, .purge, .awaitQuiescent,
    .answer (placedOrder "sl-1") ["sl-1"] [], .loop .callbackReturns, .quiesced, .collect,
    .fetch true, .loop .release, .cancelAll, .loop .cleanup, .loop .dequeue,
    .loop .checkTombstone, .loop .dequeue, .loop .checkTombstone]

theorem leavesNothing_closedWhilePlacing :
    ∃ t, run step placingStopRun closedWhilePlacing = some t ∧ t.phase = .done ∧
      t.position.state = .closed ∧ t.LeavesNothing := by
  have hcovered : AlongRun step Covered placingStopRun closedWhilePlacing := by
    decide +kernel
  have hend : (run step placingStopRun closedWhilePlacing).map
      (fun t => decide (t.phase = .done ∧ t.position.state = .closed)) = some true := by
    decide +kernel
  obtain ⟨t, ht, hstate⟩ := Option.map_eq_some_iff.mp hend
  obtain ⟨hdone, hclosed⟩ := of_decide_eq_true hstate
  exact ⟨t, ht, hdone, hclosed, leavesNothing_of_run start_placingStopRun hcovered ht⟩

/-- **Two closed positions with live orders.**  The state sync behind a reconnect finds the
position gone, closes it, and cleans nothing up: the stop and both take-profits stay, and the
position keeps the id of its stop.  In the second run a position update closes the position while
a take-profit placement is in progress; nothing waits for it, and its order lands behind the
cleanup. -/
theorem resync_leaves_orders :
    (∃ t, Start protectedRun ∧
      run step protectedRun [.handle .resync { sync := .noPosition }] = some t ∧
      t.position.state = .closed ∧ t.book = ["sl-1", "tp-1", "tp-2"] ∧
      t.position.slExchangeOrderId = some "sl-1" ∧ ¬t.LeavesNothing) ∧
    ∃ t, Start placingTpRun ∧
      run step placingTpRun
        [.handle (.positionUpdate 0) {}, .purge, .awaitQuiescent, .quiesced, .collect, .fetch true,
          .cancelAll, .answer (placedOrder "tp-1") ["tp-1"] []] = some t ∧
      t.position.state = .closed ∧ t.book = ["tp-1"] ∧ ¬t.LeavesNothing := by
  constructor
  · have hend : (run step protectedRun [.handle .resync { sync := .noPosition }]).map
        (fun t => decide (t.position.state = .closed ∧ t.book = ["sl-1", "tp-1", "tp-2"] ∧
          t.position.slExchangeOrderId = some "sl-1" ∧ ¬t.LeavesNothing)) = some true := by
      decide +kernel
    obtain ⟨t, ht, hstate⟩ := Option.map_eq_some_iff.mp hend
    exact ⟨t, start_protectedRun, ht, of_decide_eq_true hstate⟩
  · have hend : (run step placingTpRun
        [.handle (.positionUpdate 0) {}, .purge, .awaitQuiescent, .quiesced, .collect, .fetch true,
          .cancelAll, .answer (placedOrder "tp-1") ["tp-1"] []]).map
        (fun t => decide (t.position.state = .closed ∧ t.book = ["tp-1"] ∧ ¬t.LeavesNothing)) =
          some true := by
      decide +kernel
    obtain ⟨t, ht, hstate⟩ := Option.map_eq_some_iff.mp hend
    exact ⟨t, start_placingTpRun, ht, of_decide_eq_true hstate⟩

end CloseRun
end AdviserConstructor
