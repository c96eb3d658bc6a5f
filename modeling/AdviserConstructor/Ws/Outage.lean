import AdviserConstructor.Ws.BareContext
import AdviserConstructor.Ws.Reconciler

/-!
# What an outage leaves behind

`_handle_disconnect`, `_full_state_sync` and `_check_warmup` of `app/services/ws/manager.py`, judged
by what the missed events would have done.  While the stream is down nothing is delivered, and in
the warm-up behind `start` the order events are dropped, but not the position updates; the sync
asks the exchange for the size of the position and for its open orders, not for what has filled.

A run keeps two positions.  `live` is the one that the manager has; `healthy` is the one of a
manager whose stream has never dropped: every order event reaches it, and every position update is
settled, with its reconciler, before anything else happens.

* `Restores`: the condition on a step.
* `restored_of_run`: along a run whose steps all restore, the two agree whenever the sync is over
  and no fill is waiting for the reconciler.
* `missedFill_not_restored`: a take-profit order that fills while the stream is down.
-/

namespace AdviserConstructor

open PositionContext StepSystem

/-! ## The live context -/

/-- A pending move of the stop, as far as the level decides it. -/
def slMove (task : OrderTask) : Option (List PyVal) :=
  if task.action = .replaceSl then
    some (["new_trigger_price", "new_quantity", "side", "reason"].map task.params.lookup)
  else none

/-- The move that is pending behind some tasks. -/
def moveBehind (move : Option (List PyVal)) (tasks : List OrderTask) : Option (List PyVal) :=
  (tasks.filterMap slMove).getLast?.or move

/-- What an outage should not change. -/
structure LiveContext where
  statuses : List TPStatus
  dispatchedSlLevels : Finset ℕ
  currentQuantity : ℚ
  move : Option (List PyVal)
  state : PositionState
  deriving DecidableEq

def PositionContext.liveContext (move : Option (List PyVal)) (position : PositionContext) :
    LiveContext where
  statuses := position.tpLevels.map TPLevel.status
  dispatchedSlLevels := position.dispatchedSlLevels
  currentQuantity := position.currentQuantity
  move := move
  state := position.state

/-! ## Runs -/

/-- The size that `get_position` reports. -/
def PositionReply.size? : PositionReply → Option ℚ
  | .raised => none
  | .noPosition => some 0
  | .snapshot live => some |live.size|

/-- The user-data stream, for the events that it delivers. -/
inductive UserStream where
  | up
  | down
  /-- `start` has reset the warm-up: order events are dropped -/
  | warming
  deriving DecidableEq, Repr

/-- A position, with and without outages. -/
structure OutageRun where
  live : PositionContext
  reconciler : Option ℚ := none
  move : Option (List PyVal) := none
  healthy : PositionContext
  healthyMove : Option (List PyVal) := none
  /-- the size of the position on the exchange -/
  size : ℚ
  stream : UserStream := .up
  /-- `_handle_disconnect` is running, and its sync is not over -/
  syncDue : Bool := false

/-- What happens next. -/
inductive OutageEvent where
  /-- an order event, and the size of the position behind it -/
  | order (event : OrderEvent) (size : ℚ) (answers : Answers)
  /-- the size of the position changes, or is reported again -/
  | resize (size : ℚ) (answers : Answers)
  /-- the delay of the pending reconciler has passed -/
  | reconcile (answers : Answers)
  | disconnect (answers : Answers)
  /-- `start` subscribes a new stream -/
  | start
  /-- the sync, up to its end or to a request that raises -/
  | synced (answers : Answers)
  | warmedUp

/-- The states that a disconnect skips. -/
def terminalStates : List PositionState := [.closed, .cancelled, .failed]

/-- The part of `_handle_disconnect` that is about a position. -/
def PositionContext.disconnected (answers : Answers) (position : PositionContext) :
    PositionContext :=
  if position.state ∈ terminalStates then position
  else (position.applyTransition answers .wsDisconnected).2

/-- A position update whose reconciler has fired. -/
def PositionContext.settleUpdate (answers : Answers) (size : ℚ) (position : PositionContext) :
    PositionContext × List OrderTask :=
  let handled := position.handlePositionUpdate answers size none
  match handled.reconciler with
  | none => (handled.settled answers, [])
  | some deltaQty =>
      let reconciled := (handled.settled answers).reconcilePartialClose answers deltaQty
      (reconciled.settled answers, reconciled.tasks)

namespace OutageRun

/-- A position at the start of its run. -/
def initial (start : PositionContext) (size : ℚ) (stream : UserStream) : OutageRun where
  live := start
  healthy := start
  size := size
  stream := stream

/-- The run behind a handler of the live position. -/
def apply (s : OutageRun) (answers : Answers) (handled : Handled) : OutageRun :=
  { s with
    live := handled.settled answers
    reconciler := handled.reconciler
    move := moveBehind s.move handled.tasks }

/-- `get_position` in a sync reports the size that the position has, or fails. -/
def Truthful (s : OutageRun) (answers : Answers) : Prop :=
  answers.sync.size? = none ∨ answers.sync.size? = some s.size

instance (s : OutageRun) (answers : Answers) : Decidable (s.Truthful answers) :=
  inferInstanceAs (Decidable (_ ∨ _))

/-- The sync has come to its end: none of its requests has raised. -/
def syncEnds (answers : Answers) : Bool :=
  match answers.sync with
  | .raised => false
  | .noPosition => true
  | .snapshot live => live.size = 0 || answers.openOrders.isSome

def stepLive (s : OutageRun) : OutageEvent → Option OutageRun
  | .order event size answers =>
      match s.stream with
      | .up => some (s.apply answers (s.live.routeLifecycleEvent answers event s.reconciler))
      | .warming =>
          if size = s.size then some s
          else some (s.apply answers (s.live.handlePositionUpdate answers size s.reconciler))
      | .down => some s
  | .resize size answers =>
      if s.stream = .down then some s
      else some (s.apply answers (s.live.handlePositionUpdate answers size s.reconciler))
  | .reconcile answers =>
      s.reconciler.map fun deltaQty =>
        s.apply answers (s.live.reconcilePartialClose answers deltaQty)
  | .disconnect answers =>
      some
        { s with
          live := if s.syncDue then s.live else s.live.disconnected answers
          stream := .down
          syncDue := true }
  | .start => if s.syncDue then some { s with stream := .warming } else none
  | .synced answers =>
      if s.syncDue ∧ s.Truthful answers then
        let (live, tasks) := s.live.syncPosition answers true
        some
          { s with
            live := live
            move := moveBehind s.move tasks
            syncDue := !syncEnds answers }
      else none
  | .warmedUp => if s.stream = .warming then some { s with stream := .up } else none

/-- What a manager does whose stream never drops. -/
def stepHealthy (s : OutageRun) : OutageEvent → OutageRun
  | .order event size answers =>
      let handled := s.healthy.routeLifecycleEvent answers event none
      { s with
        healthy := handled.settled answers
        healthyMove := moveBehind s.healthyMove handled.tasks
        size := size }
  | .resize size answers =>
      let (healthy, tasks) := s.healthy.settleUpdate answers size
      { s with
        healthy := healthy
        healthyMove := moveBehind s.healthyMove tasks
        size := size }
  | _ => s

/-- The sizes that the exchange reports are not negative. -/
def SizeAllowed : OutageEvent → Prop
  | .order _ size _ => 0 ≤ size
  | .resize size _ => 0 ≤ size
  | _ => True

instance : DecidablePred SizeAllowed
  | .order _ size _ => inferInstanceAs (Decidable (0 ≤ size))
  | .resize size _ => inferInstanceAs (Decidable (0 ≤ size))
  | .reconcile _ | .disconnect _ | .start | .synced _ | .warmedUp => .isTrue trivial

def step (s : OutageRun) (e : OutageEvent) : Option OutageRun :=
  if SizeAllowed e then (s.stepLive e).map fun t => t.stepHealthy e else none

def Restored (s : OutageRun) : Prop :=
  s.live.liveContext s.move = s.healthy.liveContext s.healthyMove

instance (s : OutageRun) : Decidable s.Restored := inferInstanceAs (Decidable (_ = _))

/-- The level that the pending reconciler is going to advance. -/
def pendingLevel (s : OutageRun) : Option ℕ := s.reconciler.bind s.live.closestOpenTpLevelByQty

end OutageRun

/-! ## The condition -/

/-- `get_position` answers the stop shift with a live position. -/
def Answers.LiveKnown (answers : Answers) : Prop :=
  match answers.live with
  | .snapshot live => 1 / 1000000000 < |live.size|
  | .noPosition | .raised => False

instance (answers : Answers) : Decidable answers.LiveKnown := by
  unfold Answers.LiveKnown
  split <;> infer_instance

namespace PositionContext

/-- No handler takes the event, or the one that does finds nothing to do. -/
def Ignores (position : PositionContext) (event : OrderEvent) : Prop :=
  (position.state ≠ .entering ∨ event.isConditionalOrderEvent = true ∨
      event.isReduceOnlyEvent = true ∨ event.isFillEvent = false) ∧
    if position.isSlTriggerEvent event then position.state = .closed ∧ position.currentQuantity ≤ 0
    else if position.isTpTriggerEvent event then
      if position.tpMode = .multi ∧ position.tpLevels ≠ [] then
        position.eventMatchesTriggeredLevel event = true ∨ position.matchTpLevel event = none
      else position.state = .closed ∧ position.currentQuantity ≤ 0
    else True

instance (position : PositionContext) (event : OrderEvent) :
    Decidable (position.Ignores event) := by
  unfold Ignores
  infer_instance

/-- The fill of the level leaves the position open: something is left, and another level waits. -/
def StaysOpen (position : PositionContext) (i : ℕ) : Prop :=
  i + 1 ≠ position.tpLevels.length ∧ position.quantityOf i < position.currentQuantity ∧
    (position.tpLevels.zipIdx.any fun entry =>
      decide (entry.2 ≠ i) && MultiTp.isRemaining entry.1) = true

instance (position : PositionContext) (i : ℕ) : Decidable (position.StaysOpen i) :=
  inferInstanceAs (Decidable (_ ∧ _ ∧ _))

end PositionContext

namespace OutageRun

/-- The fill of a take-profit order is missed, but the position update that shows it makes the
reconciler advance the level of the order. -/
def Infers (s : OutageRun) (event : OrderEvent) (size : ℚ) (answers : Answers) : Prop :=
  0 < size ∧ s.live.schedulesReconciler size = true ∧
    s.live.stateMachine.state = s.live.state ∧ answers.LiveKnown ∧
    match s.live.closestOpenTpLevelByQty (s.live.currentQuantity - size) with
    | none => False
    | some i => describesFill s.live event i = true ∧ s.live.StaysOpen i

instance (s : OutageRun) (event : OrderEvent) (size : ℚ) (answers : Answers) :
    Decidable (s.Infers event size answers) := by
  unfold Infers
  refine @instDecidableAnd _ _ _ (@instDecidableAnd _ _ _ (@instDecidableAnd _ _ _
    (@instDecidableAnd _ _ _ ?_)))
  split <;> infer_instance

/-- The fill of a stop is missed, but the position update that shows it closes the position. -/
def Closes (s : OutageRun) (event : OrderEvent) (size : ℚ) : Prop :=
  size = 0 ∧ s.live.isSlTriggerEvent event = true ∧ s.live.isLive = true ∧
    s.live.stateMachine.state = s.live.state

instance (s : OutageRun) (event : OrderEvent) (size : ℚ) : Decidable (s.Closes event size) :=
  inferInstanceAs (Decidable (_ ∧ _ ∧ _ ∧ _))

/-- The condition on a step.

* An order event that is delivered finds no fill waiting for the reconciler.  One that is not is
  an event that changes nothing; or it comes behind the sync, finds no fill waiting, and the
  position update shows a fill that the reconciler assigns to the right level, or the end of a
  position that its stop has closed.
* Behind the sync a change of the size finds no fill waiting.  Before the sync the position neither
  ends nor shrinks by what a level closes.
* The stream ends when the position shows the size that the exchange has, no fill is waiting, and
  the position is closed or can be reconnected.
* The sync of a closed position finds nothing, and that of another one finds something.
* While a stop shift is decided, `get_position` answers with a live position. -/
def Restores (s : OutageRun) : OutageEvent → Prop
  | .order event size answers =>
      if s.stream = .up ∧ s.syncDue = false then
        s.reconciler = none ∨ (s.pendingLevel = none ∧ s.live.state ≠ .entering)
      else
        (size = s.size ∧ s.live.Ignores event ∧ s.healthy.Ignores event) ∨
          (s.stream = .warming ∧ s.syncDue = false ∧ s.pendingLevel = none ∧ size ≠ s.size ∧
            (s.Infers event size answers ∨ s.Closes event size))
  | .resize size answers =>
      if s.syncDue = false then
        s.stream ≠ .down ∧ s.pendingLevel = none ∧
          (s.live.schedulesReconciler size = true →
            s.live.closestOpenTpLevelByQty (s.live.currentQuantity - size) ≠ none →
              answers.LiveKnown)
      else if s.live.state = .closed then size = 0
      else
        size ≠ 0 ∧ (s.healthy.schedulesReconciler size = true →
          s.healthy.closestOpenTpLevelByQty (s.healthy.currentQuantity - size) = none)
  | .reconcile answers => s.pendingLevel = none ∨ answers.LiveKnown
  | .disconnect _ =>
      s.syncDue = true ∨
        (s.pendingLevel = none ∧ s.live.currentQuantity = s.size ∧
          s.live.stateMachine.state = s.live.state ∧
          (s.live.stateMachine.canTransition .wsDisconnected = true ∨
            (s.live.state = .closed ∧ s.size = 0)))
  | .synced answers => answers.sync = .raised ∨ (s.live.state = .closed ↔ s.size = 0)
  | .start | .warmedUp => True

instance (s : OutageRun) : DecidablePred s.Restores
  | .order event size answers => by
    unfold Restores
    infer_instance
  | .resize size answers => by
    unfold Restores
    infer_instance
  | .reconcile answers => inferInstanceAs (Decidable (_ ∨ _))
  | .disconnect _ => inferInstanceAs (Decidable (_ ∨ _))
  | .synced answers => by
    unfold Restores
    infer_instance
  | .start | .warmedUp => .isTrue trivial

end OutageRun

/-! ## What waits for the reconciler -/

namespace PositionContext

variable {p q : PositionContext} {answers answers' : Answers}

theorem closestLevel_map {distance : TPLevel → Option ℚ} {f : TPLevel → TPLevel}
    (hf : ∀ level, distance (f level) = distance level) (levels : List TPLevel) :
    closestLevel distance (levels.map f) = closestLevel distance levels := by
  unfold closestLevel
  rw [List.zipIdx_map, List.foldl_map]
  have hcloser : ∀ (best : Option (ℕ × ℚ)) (entry : TPLevel × ℕ),
      closer distance best (Prod.map f id entry) = closer distance best entry := by
    rintro best ⟨level, index⟩
    simp only [closer, Prod.map_apply, hf, id]
  simp only [hcloser]

theorem closestOpenTpLevelByQty_cancelRemaining (deltaQty : ℚ) :
    (p.cancelRemaining answers).closestOpenTpLevelByQty deltaQty =
      p.closestOpenTpLevelByQty deltaQty := by
  have hdistance : ∀ level, p.quantityDistance deltaQty
      (cancelLevel (p.cleanupOrderIds answers) level) = p.quantityDistance deltaQty level := by
    intro level
    have hpct : (cancelLevel (p.cleanupOrderIds answers) level).closePct = level.closePct := by
      unfold cancelLevel
      cases level.exchangeOrderId with
      | none => rfl
      | some id =>
        dsimp only
        split <;> rfl
    unfold quantityDistance
    rw [hpct]
    simp only [cancelLevel_status_iff]
  unfold closestOpenTpLevelByQty
  split
  · next hnot => exact (if_pos hnot).symm
  · next hnot => exact (closestLevel_map hdistance p.tpLevels).trans (if_neg hnot).symm

theorem KeepsLevels.closest (h : KeepsLevels p q) (deltaQty : ℚ) :
    q.closestOpenTpLevelByQty deltaQty = p.closestOpenTpLevelByQty deltaQty := by
  have hdistance : q.quantityDistance deltaQty = p.quantityDistance deltaQty := by
    unfold quantityDistance
    rw [h.original]
  unfold closestOpenTpLevelByQty
  rw [h.original, h.levels, hdistance]

/-- No fill is waiting for the reconciler. -/
def Idle (p : PositionContext) (reconciler : Option ℚ) : Prop :=
  reconciler.bind p.closestOpenTpLevelByQty = none

theorem idle_none (p : PositionContext) : p.Idle none := rfl

variable {reconciler : Option ℚ}

theorem Idle.of_closest (h : p.Idle reconciler)
    (hsame : ∀ deltaQty, q.closestOpenTpLevelByQty deltaQty = p.closestOpenTpLevelByQty deltaQty) :
    q.Idle reconciler := by
  cases reconciler with
  | none => rfl
  | some deltaQty => exact (hsame deltaQty).trans h

theorem Idle.keeps (h : p.Idle reconciler) (hkeeps : KeepsLevels p q) : q.Idle reconciler :=
  h.of_closest hkeeps.closest

theorem Idle.settled (h : p.Idle reconciler) {handled : Handled}
    (hkeeps : KeepsLevels p handled.position) : (handled.settled answers).Idle reconciler := by
  unfold Handled.settled
  split
  · exact (h.keeps hkeeps).of_closest closestOpenTpLevelByQty_cancelRemaining
  · exact h.keeps hkeeps

theorem keepsLevels_quantity (p : PositionContext) (quantity : ℚ) :
    KeepsLevels p { p with currentQuantity := quantity } := ⟨rfl, rfl, rfl, rfl, id⟩

theorem keepsLevels_handleSlTriggeredEvent {event : OrderEvent} {handled : Handled}
    (h : p.handleSlTriggeredEvent answers event reconciler = some handled) :
    handled.reconciler = reconciler ∧ KeepsLevels p handled.position := by
  have hmove : ∀ (position : PositionContext) {trigger}, trigger ≠ .syncComplete →
      KeepsLevels position (position.applyTransition answers trigger).2 :=
    fun position _ => keepsLevels_applyTransition answers position
  unfold handleSlTriggeredEvent at h
  split at h
  · cases h
  · split at h
    · cases h
      exact ⟨rfl, KeepsLevels.refl p⟩
    · dsimp only at h
      split at h
      · cases h
        exact ⟨rfl, hmove p (by simp)⟩
      · cases h
        refine ⟨rfl, KeepsLevels.trans ?_ (hmove _ (by simp))⟩
        exact (hmove p (by simp)).trans ⟨rfl, rfl, rfl, rfl, id⟩

theorem reconciler_handleTpTriggeredEvent {event : OrderEvent} {handled : Handled}
    (h : p.handleTpTriggeredEvent answers event reconciler = some handled) :
    handled.reconciler = none ∨
      (handled.reconciler = reconciler ∧ KeepsLevels p handled.position) := by
  unfold handleTpTriggeredEvent at h
  split at h
  · cases h
  · split at h
    · obtain rfl := Option.some.inj h
      unfold handleMultiTpEvent
      split
      · exact Or.inl rfl
      · cases p.matchTpLevel event with
        | none => exact Or.inr ⟨rfl, KeepsLevels.refl p⟩
        | some matched => exact Or.inl rfl
    · obtain rfl := Option.some.inj h
      refine Or.inr ?_
      unfold handleSingleTpEvent
      split
      · exact ⟨rfl, KeepsLevels.refl p⟩
      · exact ⟨rfl,
          (keepsLevels_quantity p 0).trans (keepsLevels_closePosition answers _ (by simp))⟩

theorem reconciler_routeLifecycleEvent (answers : Answers) (event : OrderEvent)
    (reconciler : Option ℚ) :
    (p.routeLifecycleEvent answers event reconciler).reconciler = none ∨
      ((p.routeLifecycleEvent answers event reconciler).reconciler = reconciler ∧
        (p.state ≠ .entering →
          KeepsLevels p (p.routeLifecycleEvent answers event reconciler).position)) := by
  unfold routeLifecycleEvent
  cases hentry : p.handleEntryFillEvent answers event reconciler with
  | some handled =>
    unfold handleEntryFillEvent at hentry
    split at hentry
    · cases hentry
    · next hnot =>
      obtain rfl := Option.some.inj hentry
      exact Or.inr ⟨rfl, fun hstate => absurd (Or.inl hstate) hnot⟩
  | none =>
    cases hsl : p.handleSlTriggeredEvent answers event reconciler with
    | some handled =>
      obtain ⟨hsame, hkeeps⟩ := keepsLevels_handleSlTriggeredEvent hsl
      exact Or.inr ⟨hsame, fun _ => hkeeps⟩
    | none =>
      cases htp : p.handleTpTriggeredEvent answers event reconciler with
      | some handled =>
        exact (reconciler_handleTpTriggeredEvent htp).imp_right fun h => ⟨h.1, fun _ => h.2⟩
      | none => exact Or.inr ⟨rfl, fun _ => KeepsLevels.refl p⟩

/-- **An order event leaves no fill waiting** that has not been. -/
theorem idle_routeLifecycleEvent {event : OrderEvent}
    (hidle : reconciler = none ∨ (p.Idle reconciler ∧ p.state ≠ .entering)) :
    ((p.routeLifecycleEvent answers event reconciler).settled answers).Idle
      (p.routeLifecycleEvent answers event reconciler).reconciler := by
  rcases reconciler_routeLifecycleEvent answers event reconciler with hnone | ⟨hsame, hkeeps⟩
  · rw [hnone]
    exact idle_none _
  · rw [hsame]
    rcases hidle with rfl | ⟨hidle, hstate⟩
    · exact idle_none _
    · exact hidle.settled (hkeeps hstate)

theorem Ignores.route {event : OrderEvent} (h : p.Ignores event) (answers : Answers)
    (reconciler : Option ℚ) :
    ∃ kept, (kept = reconciler ∨ kept = none) ∧
      p.routeLifecycleEvent answers event reconciler = { position := p, reconciler := kept } := by
  obtain ⟨hentry, hother⟩ := h
  have hentry' : p.handleEntryFillEvent answers event reconciler = none := if_pos hentry
  unfold routeLifecycleEvent
  rw [hentry']
  cases hsl : p.isSlTriggerEvent event with
  | true =>
    rw [if_pos hsl] at hother
    have hhandled : p.handleSlTriggeredEvent answers event reconciler =
        some { position := p, reconciler := reconciler } := by
      unfold handleSlTriggeredEvent
      rw [hsl, if_neg (by simp), if_pos hother]
    rw [hhandled]
    exact ⟨reconciler, Or.inl rfl, rfl⟩
  | false =>
    have hnone : p.handleSlTriggeredEvent answers event reconciler = none := by
      unfold handleSlTriggeredEvent
      rw [hsl, if_pos (by simp)]
    rw [if_neg (by rw [hsl]; simp)] at hother
    rw [hnone]
    unfold handleTpTriggeredEvent
    cases htp : p.isTpTriggerEvent event with
    | false => exact ⟨reconciler, Or.inl rfl, rfl⟩
    | true =>
      rw [if_pos htp] at hother
      by_cases hmulti : p.tpMode = .multi ∧ p.tpLevels ≠ []
      · rw [if_pos hmulti] at hother ⊢
        unfold handleMultiTpEvent
        by_cases htriggered : p.eventMatchesTriggeredLevel event = true
        · rw [if_pos htriggered]
          exact ⟨none, Or.inr rfl, rfl⟩
        · rw [if_neg htriggered, hother.resolve_left htriggered]
          exact ⟨reconciler, Or.inl rfl, rfl⟩
      · rw [if_neg hmulti] at hother ⊢
        unfold handleSingleTpEvent
        rw [if_pos hother]
        exact ⟨reconciler, Or.inl rfl, rfl⟩

/-! ## Stop shifts -/

theorem slMove_enqueueSlReplace (p : PositionContext) (newSlPrice : ℚ) (level : ℕ)
    (mark mark' : Option ℚ) (callback callback' : Option SuccessCallback) (now now' : ℚ)
    (nowMs nowMs' : ℕ) :
    slMove (enqueueSlReplace p newSlPrice level mark callback now nowMs) =
      slMove (enqueueSlReplace p newSlPrice level mark' callback' now' nowMs') := by
  cases mark <;> cases mark' <;>
    simp [slMove, enqueueSlReplace, InsertionDict.ofList, TaskParams.lookup_assign]

/-- **The move of a stop** depends on what `get_position` answers only if it knows no live
position. -/
theorem slMove_handleTpTriggered (p : PositionContext) (level : ℕ) (source source' : String)
    (h : answers.LiveKnown) (h' : answers'.LiveKnown) (now now' : ℚ) (nowMs nowMs' : ℕ) :
    (MultiTp.handleTpTriggered p level source answers.live now nowMs).2.bind slMove =
      (MultiTp.handleTpTriggered p level source' answers'.live now' nowMs').2.bind slMove := by
  have hknown : ∀ {answers : Answers}, answers.LiveKnown →
      ∃ live : PositionSnapshot, answers.live = .snapshot live ∧ ¬|live.size| ≤ 1 / 1000000000 := by
    intro answers h
    unfold Answers.LiveKnown at h
    split at h
    · next live heq => exact ⟨live, heq, not_le.mpr h⟩
    · exact h.elim
    · exact h.elim
  obtain ⟨live, hlive, hsize⟩ := hknown h
  obtain ⟨live', hlive', hsize'⟩ := hknown h'
  unfold MultiTp.handleTpTriggered
  cases p.tpLevels[level]? with
  | none => rfl
  | some found =>
    dsimp only
    split
    · rfl
    · unfold MultiTp.dispatchSlShift
      rw [hlive, hlive']
      split
      · rfl
      · split
        · rfl
        · cases MultiTp.resolveSlShiftTarget (MultiTp.bookFill p level found) found with
          | none => rfl
          | some newSlPrice =>
            dsimp only
            split
            · rfl
            · split
              · rfl
              · exact slMove_enqueueSlReplace ..

theorem StaysOpen.fillPosition {i : ℕ} (h : p.StaysOpen i) (hlive : p.isLive = true)
    (hmachine : p.stateMachine.state = p.state) (hpos : 0 < p.currentQuantity) :
    (p.fillPosition i).state ≠ .closed ∧ 0 < (p.fillPosition i).currentQuantity := by
  obtain ⟨hnotLast, hquantity, hother⟩ := h
  have hstate : p.state = .open ∨ p.state = .adjusting := by
    simpa [PositionContext.isLive] using hlive
  have hopen : p.state ≠ .closed := by
    rcases hstate with hstate | hstate <;> simp [hstate]
  unfold PositionContext.fillPosition MultiTp.handleTpTriggered
  cases hi : p.tpLevels[i]? with
  | none => exact ⟨hopen, hpos⟩
  | some level =>
    dsimp only
    split
    · exact ⟨hopen, hpos⟩
    · -- something is left, and the other level goes on waiting
      have hlevel : MultiTp.levelQuantity p level = p.quantityOf i := by
        rw [quantityOf, hi]
        rfl
      have hleft : (MultiTp.bookFill p i level).currentQuantity =
          p.currentQuantity - p.quantityOf i := by
        unfold MultiTp.bookFill
        dsimp only
        rw [if_neg hnotLast, hlevel, max_eq_left (by linarith)]
      have hremaining : (MultiTp.bookFill p i level).tpLevels.any MultiTp.isRemaining = true := by
        obtain ⟨⟨waiting, j⟩, hmem, hwaits⟩ := List.any_eq_true.mp hother
        simp only [Bool.and_eq_true, decide_eq_true_eq] at hwaits
        obtain ⟨hne, hwaits⟩ := hwaits
        refine List.any_eq_true.mpr ⟨waiting, List.mem_of_getElem? (i := j) ?_, hwaits⟩
        unfold MultiTp.bookFill
        rw [List.getElem?_modify, List.mem_zipIdx_iff_getElem?.mp hmem]
        simp [Ne.symm hne]
      have hbooked : (MultiTp.bookFill p i level).stateMachine.state = .open ∨
          (MultiTp.bookFill p i level).stateMachine.state = .adjusting := by
        change p.stateMachine.state = _ ∨ p.stateMachine.state = _
        rw [hmachine]
        exact hstate
      obtain ⟨machine, hm, hmove⟩ := transitionPartialClose_spec hbooked
      have hgoesOn : ¬((!(MultiTp.bookFill p i level).tpLevels.any MultiTp.isRemaining ||
          decide ((MultiTp.bookFill p i level).currentQuantity ≤ 0)) = true) := by
        rw [hremaining]
        simp only [Bool.not_true, Bool.false_or, decide_eq_true_eq]
        linarith
      unfold MultiTp.closeOrContinue
      rw [if_neg hgoesOn, hmove]
      refine ⟨?_, ?_⟩
      · change machine.state ≠ .closed
        simp [hm]
      · change 0 < (MultiTp.bookFill p i level).currentQuantity
        linarith

theorem moveBehind_toList (move : Option (List PyVal)) (task : Option OrderTask) :
    moveBehind move task.toList = (task.bind slMove).or move := by
  cases task with
  | none => rfl
  | some task =>
    unfold moveBehind
    cases h : slMove task <;> simp [h]

/-! ## Position updates -/

theorem handlePositionUpdate_pos {size : ℚ} (hsize : 0 < size) (reconciler : Option ℚ) :
    p.handlePositionUpdate answers size reconciler =
      { position := { p with currentQuantity := size }
        reconciler :=
          if p.schedulesReconciler size then some (p.currentQuantity - size) else reconciler } := by
  unfold handlePositionUpdate
  rw [abs_of_pos hsize]
  rw [if_neg (not_le.mpr hsize)]
  by_cases hsame : size = p.currentQuantity
  · have hnot : p.schedulesReconciler size = false := by
      simp [schedulesReconciler, hsame]
    rw [if_pos hsame, hnot, hsame]
    rfl
  · rw [if_neg hsame]

theorem handlePositionUpdate_zero (p : PositionContext) (answers : Answers)
    (reconciler : Option ℚ) :
    (p.handlePositionUpdate answers 0 reconciler).reconciler = reconciler ∧
      (p.handlePositionUpdate answers 0 reconciler).tasks = [] ∧
      KeepsLevels p (p.handlePositionUpdate answers 0 reconciler).position := by
  unfold handlePositionUpdate
  rw [abs_zero]
  rw [if_pos (le_refl 0)]
  split
  · exact ⟨rfl, rfl,
      (keepsLevels_quantity p 0).trans (keepsLevels_closePosition answers _ (by simp))⟩
  · exact ⟨rfl, rfl, KeepsLevels.refl p⟩

theorem handlePositionUpdate_rested (hclosed : p.state = .closed) (hempty : p.currentQuantity = 0)
    (reconciler : Option ℚ) :
    p.handlePositionUpdate answers 0 reconciler = { position := p, reconciler := reconciler } := by
  unfold handlePositionUpdate
  rw [abs_zero]
  rw [if_pos (le_refl 0), if_neg]
  rintro (hopen | hpos)
  · exact hopen hclosed
  · exact absurd hpos (by rw [hempty]; exact lt_irrefl 0)

theorem Idle.reconcile {deltaQty : ℚ} (h : p.Idle (some deltaQty)) :
    p.reconcilePartialClose answers deltaQty = { position := p, reconciler := none } := by
  have hnone : p.closestOpenTpLevelByQty deltaQty = none := h
  unfold reconcilePartialClose
  rw [hnone]
  split <;> rfl

theorem reconcilePartialClose_level (answers : Answers) {deltaQty : ℚ} {i : ℕ}
    (hlive : p.isLive = true)
    (hlevel : p.closestOpenTpLevelByQty deltaQty = some i) :
    p.reconcilePartialClose answers deltaQty =
      { position := fillPosition { p with currentQuantity := p.currentQuantity + deltaQty } i
        reconciler := none
        tasks :=
          (MultiTp.handleTpTriggered
            { p with currentQuantity := p.currentQuantity + deltaQty } i
            "position_update_inferred" answers.live answers.now answers.nowMs).2.toList } := by
  have hfst := handleTpTriggered_fst
    { p with currentQuantity := p.currentQuantity + deltaQty } i "position_update_inferred"
    answers.live answers.now answers.nowMs
  unfold reconcilePartialClose
  rw [hlive, hlevel, if_neg (by simp)]
  dsimp only
  rw [hfst]

theorem schedulesReconciler_iff {size : ℚ} :
    p.schedulesReconciler size = true ↔
      size < p.currentQuantity ∧ p.tpMode = .multi ∧ p.tpLevels ≠ [] ∧ p.isLive = true := by
  simp only [schedulesReconciler, Bool.and_eq_true, decide_eq_true_eq, and_assoc]

theorem restored_quantity (p : PositionContext) (size : ℚ) :
    ({ p with currentQuantity := size + (p.currentQuantity - size) } : PositionContext) = p := by
  rw [add_sub_cancel]

end PositionContext

/-! ## Where the two positions are -/

namespace OutageRun

/-- Nothing is missing. -/
structure Same (s : OutageRun) : Prop where
  synced : s.syncDue = false
  bare : s.live.bare = s.healthy.bare
  move : s.move = s.healthyMove
  idle : s.live.Idle s.reconciler

/-- A fill is waiting for the reconciler, which is going to advance its level. -/
structure Owed (s : OutageRun) (deltaQty : ℚ) (i : ℕ) : Prop where
  synced : s.syncDue = false
  pending : s.reconciler = some deltaQty
  live : s.live.isLive = true
  level : s.live.closestOpenTpLevelByQty deltaQty = some i
  bare : s.healthy.bare =
    (fillPosition { s.live with currentQuantity := s.live.currentQuantity + deltaQty } i).bare
  move : ∃ (source : String) (answers : Answers), answers.LiveKnown ∧
    s.healthyMove = moveBehind s.move
      (MultiTp.handleTpTriggered
        { s.live with currentQuantity := s.live.currentQuantity + deltaQty } i source answers.live
        answers.now answers.nowMs).2.toList

/-- The sync is to come, and nothing is missing but the size. -/
structure Away (s : OutageRun) : Prop where
  due : s.syncDue = true
  bare : s.live.bare =
    { s.healthy.bare with
      currentQuantity := s.live.currentQuantity
      state := .reconnecting
      stateMachine := { state := .reconnecting } }
  before : s.live.stateMachine.preReconnectState = some s.healthy.state
  machine : s.healthy.stateMachine.state = s.healthy.state
  size : s.healthy.currentQuantity = s.size
  move : s.move = s.healthyMove
  idle : s.live.Idle s.reconciler

/-- The sync is to come, and the position is closed. -/
structure Resting (s : OutageRun) : Prop where
  due : s.syncDue = true
  bare : s.live.bare = s.healthy.bare
  closed : s.live.state = .closed
  machine : s.live.stateMachine.state = .closed
  empty : s.live.currentQuantity = 0
  size : s.size = 0
  move : s.move = s.healthyMove
  idle : s.live.Idle s.reconciler

/-- What holds along a run whose steps restore. -/
def Accounted (s : OutageRun) : Prop :=
  s.Same ∨ (∃ deltaQty i, s.Owed deltaQty i) ∨ s.Away ∨ s.Resting

section Steps

variable {s t : OutageRun} {answers : Answers} {event : OrderEvent} {size : ℚ}

theorem step_eq_some {e : OutageEvent} (h : step s e = some t) :
    SizeAllowed e ∧ ∃ u, s.stepLive e = some u ∧ u.stepHealthy e = t := by
  unfold step at h
  split at h
  · next hallowed => exact ⟨hallowed, Option.map_eq_some_iff.mp h⟩
  · cases h

/-- What a sync leaves. -/
def synced (s : OutageRun) (answers : Answers) : OutageRun :=
  { s with
    live := (s.live.syncPosition answers true).1
    move := moveBehind s.move (s.live.syncPosition answers true).2
    syncDue := !syncEnds answers }

theorem step_synced (h : step s (.synced answers) = some t) :
    s.Truthful answers ∧ t = s.synced answers := by
  obtain ⟨-, u, hu, rfl⟩ := step_eq_some h
  unfold stepLive at hu
  obtain ⟨hguard, hu⟩ := Option.ite_none_right_eq_some.mp hu
  exact ⟨hguard.2, (Option.some.inj hu).symm⟩

/-! ## Order events -/

theorem step_ignored (hlive : s.live.Ignores event) (hhealthy : s.healthy.Ignores event)
    (hstep : step s (.order event s.size answers) = some t) :
    ∃ kept, (kept = s.reconciler ∨ (s.stream = .up ∧ kept = none)) ∧
      t = { s with reconciler := kept } := by
  obtain ⟨-, u, hu, rfl⟩ := step_eq_some hstep
  have hhealthy' : ∀ u : OutageRun, u.healthy = s.healthy → u.healthyMove = s.healthyMove →
      u.size = s.size → u.stepHealthy (.order event s.size answers) = u := by
    intro u hposition hmove hsize
    obtain ⟨kept, -, hroute⟩ := hhealthy.route answers none
    unfold stepHealthy
    dsimp only
    rw [hposition, hroute, ← hposition, ← hsize]
    rfl
  unfold stepLive at hu
  dsimp only at hu
  split at hu
  · next hup =>
    obtain ⟨kept, hkept, hroute⟩ := hlive.route answers s.reconciler
    obtain rfl := Option.some.inj hu
    refine ⟨kept, hkept.imp_right fun hnone => ⟨hup, hnone⟩, ?_⟩
    rw [hroute, hhealthy' (s.apply answers { position := s.live, reconciler := kept }) rfl rfl rfl]
    rfl
  · rw [if_pos rfl] at hu
    obtain rfl := Option.some.inj hu
    rw [hhealthy' _ rfl rfl rfl]
    exact ⟨s.reconciler, Or.inl rfl, rfl⟩
  · obtain rfl := Option.some.inj hu
    rw [hhealthy' _ rfl rfl rfl]
    exact ⟨s.reconciler, Or.inl rfl, rfl⟩

/-- **A delivered order event** does to the two positions the same. -/
theorem Same.delivered (h : s.Same) (hup : s.stream = .up)
    (hidle : s.reconciler = none ∨ (s.pendingLevel = none ∧ s.live.state ≠ .entering))
    (hstep : step s (.order event size answers) = some t) : t.Same := by
  obtain ⟨-, u, hu, rfl⟩ := step_eq_some hstep
  unfold stepLive at hu
  rw [hup] at hu
  obtain rfl := Option.some.inj hu
  have hsame := routeLifecycleEvent_congr answers h.bare event s.reconciler none
  have htasks := tasks_congr hsame
  refine ⟨h.synced, settled_congr answers hsame, ?_, idle_routeLifecycleEvent hidle⟩
  change moveBehind s.move _ = moveBehind s.healthyMove
    (s.healthy.routeLifecycleEvent answers event none).tasks
  rw [htasks, h.move]

theorem Same.owed (h : s.Same) {i : ℕ}
    (hschedules : s.live.schedulesReconciler size = true)
    (hlevel : s.live.closestOpenTpLevelByQty (s.live.currentQuantity - size) = some i)
    (hsynced : t.syncDue = s.syncDue)
    (hlive : t.live = { s.live with currentQuantity := size })
    (hreconciler : t.reconciler = some (s.live.currentQuantity - size))
    (hbare : t.healthy.bare = (s.live.fillPosition i).bare)
    (hmove : ∃ (source : String) (answers : Answers), answers.LiveKnown ∧
      t.healthyMove = moveBehind t.move
        (MultiTp.handleTpTriggered s.live i source answers.live answers.now
          answers.nowMs).2.toList) :
    t.Owed (s.live.currentQuantity - size) i := by
  have hrestored : ({ t.live with
      currentQuantity := t.live.currentQuantity + (s.live.currentQuantity - size) } :
        PositionContext) = s.live := by
    rw [hlive]
    exact restored_quantity s.live size
  refine ⟨hsynced.trans h.synced, hreconciler, ?_, ?_, ?_, ?_⟩
  · rw [hlive]
    exact (schedulesReconciler_iff.mp hschedules).2.2.2
  · rw [hlive]
    exact hlevel
  · rw [hrestored]
    exact hbare
  · rw [hrestored]
    exact hmove

theorem handleTpTriggered_congr {p q : PositionContext} (h : p.bare = q.bare) (level : ℕ)
    (source : String) (live : PositionReply) (now : ℚ) (nowMs : ℕ) :
    (MultiTp.handleTpTriggered p level source live now nowMs).2 =
      (MultiTp.handleTpTriggered q level source live now nowMs).2 := by
  rw [← (bare_handleTpTriggered p level source live now nowMs).2,
    ← (bare_handleTpTriggered q level source live now nowMs).2, h]

/-- **A missed take-profit fill** whose position update is behind the sync. -/
theorem Same.infers (h : s.Same) (hwarming : s.stream = .warming) (hsize : size ≠ s.size)
    (hinfers : s.Infers event size answers)
    (hstep : step s (.order event size answers) = some t) : ∃ deltaQty i, t.Owed deltaQty i := by
  obtain ⟨hpos, hschedules, hmachine, hknown, hlevel⟩ := hinfers
  cases hclosest : s.live.closestOpenTpLevelByQty (s.live.currentQuantity - size) with
  | none =>
    rw [hclosest] at hlevel
    exact hlevel.elim
  | some i =>
    rw [hclosest] at hlevel
    obtain ⟨hevent, hstays⟩ := hlevel
    obtain ⟨-, u, hu, rfl⟩ := step_eq_some hstep
    obtain ⟨level, hi, hopen, -⟩ := closestOpenTpLevelByQty_spec hclosest
    obtain ⟨hless, hmulti, -, hisLive⟩ := schedulesReconciler_iff.mp hschedules
    -- what the healthy position makes of the event is what the live one would make of it
    have hentering : s.live.state ≠ .entering := by
      intro hentering
      simp [PositionContext.isLive, hentering] at hisLive
    have hroute := route_of_first answers none hentering hmulti hevent hi hopen
    have hgoesOn := hstays.fillPosition hisLive hmachine (hpos.trans hless)
    have hcongr := routeLifecycleEvent_congr answers h.bare event none none
    have hsettled : ((s.healthy.routeLifecycleEvent answers event none).settled answers).bare =
        (s.live.fillPosition i).bare := by
      rw [← settled_congr answers hcongr, hroute, Handled.settled, if_neg]
      simp only [Bool.or_eq_true, decide_eq_true_eq, not_or, not_le]
      exact hgoesOn
    have htasks : (s.healthy.routeLifecycleEvent answers event none).tasks =
        (MultiTp.handleTpTriggered s.live i "multi_tp" answers.live answers.now
          answers.nowMs).2.toList := by
      rw [← tasks_congr hcongr, hroute]
    unfold stepLive at hu
    rw [hwarming] at hu
    dsimp only at hu
    rw [if_neg hsize, handlePositionUpdate_pos hpos, if_pos hschedules] at hu
    obtain rfl := Option.some.inj hu
    refine ⟨_, i, h.owed hschedules hclosest rfl rfl rfl hsettled
      ⟨"multi_tp", answers, hknown, ?_⟩⟩
    change moveBehind s.healthyMove (s.healthy.routeLifecycleEvent answers event none).tasks =
      moveBehind s.move _
    rw [htasks, h.move]

theorem closed_alike (answers : Answers) {p : PositionContext} (hlive : p.isLive = true)
    (hmachine : p.stateMachine.state = p.state) (hevent : p.isSlTriggerEvent event = true)
    (reconciler : Option ℚ) :
    ((p.routeLifecycleEvent answers event reconciler).settled answers).bare =
        ((p.handlePositionUpdate answers 0 reconciler).settled answers).bare ∧
      (p.routeLifecycleEvent answers event reconciler).tasks = [] := by
  have hstate : p.state = .open ∨ p.state = .adjusting := by
    simpa [PositionContext.isLive] using hlive
  have hnotClosed : p.state ≠ .closed := by
    rcases hstate with hstate | hstate <;> simp [hstate]
  have hentry : p.handleEntryFillEvent answers event reconciler = none := by
    refine if_pos (Or.inl ?_)
    rcases hstate with hstate | hstate <;> simp [hstate]
  -- the stop closes it through CLOSING
  have hsl : validTransitions p.stateMachine.state .slTriggered = some .closing := by
    rw [hmachine]
    rcases hstate with hstate | hstate <;> rw [hstate] <;> rfl
  obtain ⟨m, hm, hfirst⟩ := applyTransition_of_valid answers (by simp) hsl
  obtain ⟨m', hm', hsecond⟩ := @applyTransition_of_valid
    (appendSlTriggerHistory event (conditionalReason "Stop loss triggered" event)
      { p with stateMachine := m, state := .closing, currentQuantity := 0 })
    .allClosed .closed answers (by simp) (by
      change validTransitions m.state .allClosed = some .closed
      rw [hm]
      rfl)
  have hroute : p.routeLifecycleEvent answers event reconciler =
      { position :=
          { appendSlTriggerHistory event (conditionalReason "Stop loss triggered" event)
              { p with stateMachine := m, state := .closing, currentQuantity := 0 } with
            stateMachine := m', state := .closed }
        reconciler := reconciler
        cleanup := true } := by
    unfold routeLifecycleEvent handleSlTriggeredEvent
    rw [hentry, hevent, if_neg (by simp), if_neg (fun h => hnotClosed h.1), hfirst]
    dsimp only
    rw [hsecond]
    rfl
  -- the position update closes it through MANUAL_CLOSE
  have hlive' : ({ p with currentQuantity := 0 } : PositionContext).stateMachine.state = .open ∨
      ({ p with currentQuantity := 0 } : PositionContext).stateMachine.state = .adjusting := by
    rw [hmachine]
    exact hstate
  obtain ⟨n, hn, hclose⟩ := closePosition_of_live answers hlive'
  have hupdate : p.handlePositionUpdate answers 0 reconciler =
      { position := { p with currentQuantity := 0, stateMachine := n, state := .closed }
        reconciler := reconciler
        cleanup := true } := by
    unfold handlePositionUpdate
    rw [abs_zero]
    rw [if_pos (le_refl 0), if_pos (Or.inl hnotClosed), hclose]
  rw [hroute, hupdate]
  refine ⟨?_, rfl⟩
  unfold Handled.settled
  rw [if_pos rfl, if_pos rfl, bare_cancelRemaining, bare_cancelRemaining]
  refine congrArg (cancelRemaining answers) ?_
  unfold PositionContext.bare appendSlTriggerHistory
  simp only [hm', hn]

/-- **A missed stop** whose position update is behind the sync. -/
theorem Same.closes (h : s.Same) (hwarming : s.stream = .warming) (hsize : size ≠ s.size)
    (hcloses : s.Closes event size)
    (hstep : step s (.order event size answers) = some t) : t.Same := by
  obtain ⟨rfl, hevent, hlive, hmachine⟩ := hcloses
  obtain ⟨-, u, hu, rfl⟩ := step_eq_some hstep
  obtain ⟨hbare, htasks⟩ := closed_alike answers hlive hmachine hevent s.reconciler
  obtain ⟨hreconciler, hnoTasks, hkeeps⟩ :=
    handlePositionUpdate_zero s.live answers s.reconciler
  have hcongr := routeLifecycleEvent_congr answers h.bare event s.reconciler none
  unfold stepLive at hu
  rw [hwarming] at hu
  dsimp only at hu
  rw [if_neg hsize] at hu
  obtain rfl := Option.some.inj hu
  refine ⟨h.synced, ?_, ?_, ?_⟩
  · change ((s.live.handlePositionUpdate answers 0 s.reconciler).settled answers).bare =
      ((s.healthy.routeLifecycleEvent answers event none).settled answers).bare
    rw [← hbare]
    exact settled_congr answers hcongr
  · change moveBehind s.move (s.live.handlePositionUpdate answers 0 s.reconciler).tasks =
      moveBehind s.healthyMove (s.healthy.routeLifecycleEvent answers event none).tasks
    rw [hnoTasks, ← tasks_congr hcongr, htasks, h.move]
  · change ((s.live.handlePositionUpdate answers 0 s.reconciler).settled answers).Idle
      (s.live.handlePositionUpdate answers 0 s.reconciler).reconciler
    rw [hreconciler]
    exact h.idle.settled hkeeps

/-! ## Sizes -/

theorem settleUpdate_zero (p : PositionContext) (answers : Answers) :
    p.settleUpdate answers 0 = ((p.handlePositionUpdate answers 0 none).settled answers, []) := by
  unfold settleUpdate
  dsimp only
  rw [(handlePositionUpdate_zero p answers none).1]

theorem settleUpdate_idle {p : PositionContext} (hsize : 0 < size)
    (hidle : p.schedulesReconciler size = true →
      p.closestOpenTpLevelByQty (p.currentQuantity - size) = none) :
    p.settleUpdate answers size = ({ p with currentQuantity := size }, []) := by
  unfold settleUpdate
  rw [handlePositionUpdate_pos hsize]
  by_cases hschedules : p.schedulesReconciler size = true
  · have hnone : ({ p with currentQuantity := size } : PositionContext).Idle
        (some (p.currentQuantity - size)) :=
      ((keepsLevels_quantity p size).closest _).trans (hidle hschedules)
    rw [if_pos hschedules]
    change (let reconciled := ({ p with currentQuantity := size } :
        PositionContext).reconcilePartialClose answers (p.currentQuantity - size)
      (reconciled.settled answers, reconciled.tasks)) = _
    rw [hnone.reconcile]
    rfl
  · rw [if_neg hschedules]
    rfl

theorem settleUpdate_level {p : PositionContext} {i : ℕ} (hsize : 0 < size)
    (hschedules : p.schedulesReconciler size = true)
    (hlevel : p.closestOpenTpLevelByQty (p.currentQuantity - size) = some i) :
    p.settleUpdate answers size =
      (p.fillPosition i,
        (MultiTp.handleTpTriggered p i "position_update_inferred" answers.live answers.now
          answers.nowMs).2.toList) := by
  have hlive : ({ p with currentQuantity := size } : PositionContext).isLive = true :=
    (schedulesReconciler_iff.mp hschedules).2.2.2
  have hlevel' : ({ p with currentQuantity := size } : PositionContext).closestOpenTpLevelByQty
      (p.currentQuantity - size) = some i := by
    rw [(keepsLevels_quantity p size).closest, hlevel]
  have hreconcile := reconcilePartialClose_level answers hlive hlevel'
  dsimp only at hreconcile
  rw [restored_quantity] at hreconcile
  unfold settleUpdate
  rw [handlePositionUpdate_pos hsize, if_pos hschedules]
  change (let reconciled := ({ p with currentQuantity := size } :
      PositionContext).reconcilePartialClose answers (p.currentQuantity - size)
    (reconciled.settled answers, reconciled.tasks)) = _
  rw [hreconcile]
  rfl

theorem stepHealthy_resize (u : OutageRun) :
    u.stepHealthy (.resize size answers) =
      { u with
        healthy := (u.healthy.settleUpdate answers size).1
        healthyMove := moveBehind u.healthyMove (u.healthy.settleUpdate answers size).2
        size := size } := rfl

/-- **A change of the size** behind the sync. -/
theorem Same.resized (h : s.Same) (hstream : s.stream ≠ .down)
    (hknown : s.live.schedulesReconciler size = true →
      s.live.closestOpenTpLevelByQty (s.live.currentQuantity - size) ≠ none → answers.LiveKnown)
    (hstep : step s (.resize size answers) = some t) :
    t.Same ∨ ∃ deltaQty i, t.Owed deltaQty i := by
  obtain ⟨hsize, u, hu, rfl⟩ := step_eq_some hstep
  unfold stepLive at hu
  dsimp only at hu
  rw [if_neg hstream] at hu
  obtain rfl := Option.some.inj hu
  have hschedules : s.live.schedulesReconciler size = s.healthy.schedulesReconciler size :=
    read_congr (fun position => position.schedulesReconciler size) (fun _ => rfl) h.bare
  have hclosest : s.live.closestOpenTpLevelByQty (s.live.currentQuantity - size) =
      s.healthy.closestOpenTpLevelByQty (s.healthy.currentQuantity - size) :=
    read_congr
      (fun position => position.closestOpenTpLevelByQty (position.currentQuantity - size))
      (fun _ => rfl) h.bare
  have hquantity : ({ s.live with currentQuantity := size } : PositionContext).bare =
      ({ s.healthy with currentQuantity := size } : PositionContext).bare :=
    read_congr (fun position : PositionContext =>
      ({ position with currentQuantity := size } : PositionContext).bare) (fun _ => rfl) h.bare
  rcases eq_or_lt_of_le (show (0 : ℚ) ≤ size from hsize) with hzero | hpos
  · subst hzero
    obtain ⟨hreconciler, hnoTasks, hkeeps⟩ := handlePositionUpdate_zero s.live answers s.reconciler
    rw [stepHealthy_resize]
    rw [settleUpdate_zero]
    refine Or.inl ⟨h.synced, ?_, ?_, ?_⟩
    · exact settled_congr answers (handlePositionUpdate_congr answers h.bare 0 s.reconciler none)
    · change moveBehind s.move (s.live.handlePositionUpdate answers 0 s.reconciler).tasks =
        s.healthyMove
      rw [hnoTasks]
      exact h.move
    · change ((s.live.handlePositionUpdate answers 0 s.reconciler).settled answers).Idle
        (s.live.handlePositionUpdate answers 0 s.reconciler).reconciler
      rw [hreconciler]
      exact h.idle.settled hkeeps
  · rw [handlePositionUpdate_pos hpos]
    change Same { s with
        live := { s.live with currentQuantity := size }
        reconciler :=
          if s.live.schedulesReconciler size then some (s.live.currentQuantity - size)
          else s.reconciler
        healthy := (s.healthy.settleUpdate answers size).1
        healthyMove := moveBehind s.healthyMove (s.healthy.settleUpdate answers size).2
        size := size } ∨ ∃ deltaQty i, Owed { s with
        live := { s.live with currentQuantity := size }
        reconciler :=
          if s.live.schedulesReconciler size then some (s.live.currentQuantity - size)
          else s.reconciler
        healthy := (s.healthy.settleUpdate answers size).1
        healthyMove := moveBehind s.healthyMove (s.healthy.settleUpdate answers size).2
        size := size } deltaQty i
    by_cases hwaits : s.live.schedulesReconciler size = true ∧
        s.live.closestOpenTpLevelByQty (s.live.currentQuantity - size) ≠ none
    · obtain ⟨hscheduled, hsome⟩ := hwaits
      obtain ⟨i, hi⟩ := Option.ne_none_iff_exists'.mp hsome
      rw [settleUpdate_level hpos (hschedules ▸ hscheduled) (hclosest ▸ hi), if_pos hscheduled]
      refine Or.inr ⟨_, i, h.owed hscheduled hi rfl rfl rfl ?_ ?_⟩
      · exact fillPosition_congr h.bare.symm i
      · refine ⟨"position_update_inferred", answers, hknown hscheduled hsome, ?_⟩
        rw [handleTpTriggered_congr h.bare, h.move]
    · have hidle : s.live.schedulesReconciler size = true →
          s.live.closestOpenTpLevelByQty (s.live.currentQuantity - size) = none := by
        intro hscheduled
        by_contra hsome
        exact hwaits ⟨hscheduled, hsome⟩
      rw [settleUpdate_idle hpos (by rw [← hschedules, ← hclosest]; exact hidle)]
      refine Or.inl ⟨h.synced, hquantity, h.move, ?_⟩
      by_cases hscheduled : s.live.schedulesReconciler size = true
      · rw [if_pos hscheduled]
        exact ((keepsLevels_quantity s.live size).closest _).trans (hidle hscheduled)
      · rw [if_neg hscheduled]
        exact h.idle.keeps (keepsLevels_quantity s.live size)

/-! ## The reconciler -/

theorem step_reconcile_idle (hidle : s.live.Idle s.reconciler)
    (hstep : step s (.reconcile answers) = some t) : t = { s with reconciler := none } := by
  obtain ⟨-, u, hu, rfl⟩ := step_eq_some hstep
  obtain ⟨deltaQty, hpending, rfl⟩ := Option.map_eq_some_iff.mp hu
  rw [hpending] at hidle
  rw [hidle.reconcile]
  rfl

/-- **The reconciler advances the level** that it owes. -/
theorem Owed.reconciled {deltaQty : ℚ} {i : ℕ} (h : s.Owed deltaQty i) (hknown : answers.LiveKnown)
    (hstep : step s (.reconcile answers) = some t) : t.Same := by
  obtain ⟨-, u, hu, rfl⟩ := step_eq_some hstep
  obtain ⟨deltaQty', hpending, rfl⟩ := Option.map_eq_some_iff.mp hu
  obtain rfl := Option.some.inj (hpending.symm.trans h.pending)
  obtain ⟨source, answers', hknown', hmove⟩ := h.move
  rw [reconcilePartialClose_level answers h.live h.level]
  refine ⟨h.synced, h.bare.symm, ?_, idle_none _⟩
  change moveBehind s.move (Option.toList _) = s.healthyMove
  rw [hmove, moveBehind_toList, moveBehind_toList, slMove_handleTpTriggered _ _ _ _ hknown hknown']

/-! ## The outage -/

/-- **The stream ends** while nothing is missing. -/
theorem Same.disconnect (h : s.Same) (hsize : s.live.currentQuantity = s.size)
    (hmachine : s.live.stateMachine.state = s.live.state)
    (hleaves : s.live.stateMachine.canTransition .wsDisconnected = true ∨
      (s.live.state = .closed ∧ s.size = 0))
    (hstep : step s (.disconnect answers) = some t) : t.Away ∨ t.Resting := by
  obtain ⟨-, u, hu, rfl⟩ := step_eq_some hstep
  obtain rfl := Option.some.inj hu
  rcases hleaves with hcan | ⟨hclosed, hempty⟩
  · -- the machine remembers where it has been
    obtain ⟨⟨next, machine⟩, hmove⟩ := PositionStateMachine.canTransition_iff.mp hcan
    obtain ⟨target, htable, hstate, -, hbranch⟩ := PositionStateMachine.transition_cases hmove
    have htarget : target = .reconnecting :=
      (PositionStateMachine.validTransitions_reconnecting htable).mpr rfl
    obtain ⟨rfl, hbefore⟩ := hbranch.resolve_left (by simp)
    rw [htarget, if_pos rfl] at hbefore
    rw [htarget] at hmove hstate
    have hnotTerminal : s.live.state ∉ terminalStates := by
      rw [← hmachine]
      intro hterminal
      simp only [terminalStates, List.mem_cons, List.not_mem_nil, or_false] at hterminal
      unfold PositionStateMachine.canTransition at hcan
      rcases hterminal with hterminal | hterminal | hterminal <;>
        · rw [hterminal] at hcan
          exact absurd hcan (by decide)
    have hlive : (if s.syncDue then s.live else s.live.disconnected answers) =
        { s.live with stateMachine := machine, state := .reconnecting } := by
      rw [h.synced, if_neg (by simp)]
      unfold disconnected
      rw [if_neg hnotTerminal, applyTransition, hmove]
    change Away { s with
        live := if s.syncDue then s.live else s.live.disconnected answers
        stream := .down
        syncDue := true } ∨ _
    rw [hlive]
    have hstate' : s.healthy.state = s.live.state :=
      read_congr PositionContext.state (fun _ => rfl) h.bare.symm
    have hmachine' : s.healthy.stateMachine.state = s.live.stateMachine.state :=
      machine_state_congr h.bare.symm
    have hquantity : s.healthy.currentQuantity = s.live.currentQuantity :=
      read_congr currentQuantity (fun _ => rfl) h.bare.symm
    refine Or.inl ⟨rfl, ?_, ?_, ?_, ?_, h.move, ?_⟩
    · rw [← h.bare]
      unfold PositionContext.bare
      simp only [hstate]
    · rw [hbefore, hmachine, hstate']
    · rw [hmachine', hmachine, hstate']
    · exact hquantity.trans hsize
    · exact h.idle.keeps ⟨rfl, rfl, rfl, rfl, fun _ => ⟨by simp [beforeEntry],
        by change machine.state ∉ beforeEntry; rw [hstate]; simp [beforeEntry]⟩⟩
  · have hlive : (if s.syncDue then s.live else s.live.disconnected answers) = s.live := by
      rw [h.synced, if_neg (by simp)]
      unfold disconnected
      rw [if_pos (by rw [hclosed]; simp [terminalStates])]
    rw [hlive]
    exact Or.inr ⟨rfl, h.bare, hclosed, hmachine.trans hclosed, hsize.trans hempty, hempty, h.move,
      h.idle⟩

theorem Away.resized (h : s.Away) (hpos : size ≠ 0)
    (hidle : s.healthy.schedulesReconciler size = true →
      s.healthy.closestOpenTpLevelByQty (s.healthy.currentQuantity - size) = none)
    (hstep : step s (.resize size answers) = some t) : t.Away := by
  obtain ⟨hsize, u, hu, rfl⟩ := step_eq_some hstep
  have hpos' : 0 < size := lt_of_le_of_ne hsize (Ne.symm hpos)
  have hstate : s.live.state = .reconnecting := congrArg PositionContext.state h.bare
  have hnot : s.live.schedulesReconciler size = false := by
    simp [schedulesReconciler, PositionContext.isLive, hstate]
  -- only the quantity of the live position has changed, if anything
  obtain ⟨quantity, rfl⟩ : ∃ quantity,
      u = { s with live := { s.live with currentQuantity := quantity } } := by
    unfold stepLive at hu
    dsimp only at hu
    split at hu
    · obtain rfl := Option.some.inj hu
      exact ⟨s.live.currentQuantity, rfl⟩
    · rw [handlePositionUpdate_pos hpos', hnot] at hu
      obtain rfl := Option.some.inj hu
      exact ⟨size, rfl⟩
  rw [stepHealthy_resize]
  rw [settleUpdate_idle hpos' hidle]
  refine ⟨h.due, ?_, h.before, h.machine, rfl, h.move,
    h.idle.keeps (keepsLevels_quantity s.live quantity)⟩
  exact congrArg (fun position : PositionContext =>
    ({ position with currentQuantity := quantity } : PositionContext)) h.bare

theorem slMove_enqueueEmergencySl (accountId : String) (p : PositionContext) (now : ℚ)
    (nowMs : ℕ) : (enqueueEmergencySl accountId p now nowMs).bind slMove = none := by
  unfold enqueueEmergencySl
  split
  · rfl
  · simp [slMove]

theorem applySyncTransition_back {p : PositionContext} {before : PositionState}
    (hmachine : p.stateMachine.state = .reconnecting)
    (hbefore : p.stateMachine.preReconnectState = some before) :
    ∃ machine : PositionStateMachine, machine.state = before ∧
      p.applySyncTransition .syncComplete .open =
        { p with stateMachine := machine, state := before } := by
  unfold applySyncTransition PositionStateMachine.transition
  rw [hmachine]
  rw [hbefore]
  exact ⟨_, rfl, rfl⟩

theorem syncPosition_reconnecting {p : PositionContext} {live : PositionSnapshot}
    {before : PositionState} (hsync : answers.sync = .snapshot live) (hsize : live.size ≠ 0)
    (hstate : p.state = .reconnecting) (hmachine : p.stateMachine.state = .reconnecting)
    (hbefore : p.stateMachine.preReconnectState = some before) :
    (answers.openOrders = none ∧
        p.syncPosition answers true = ({ p with currentQuantity := |live.size| }, [])) ∨
      (answers.openOrders.isSome = true ∧ ∃ machine : PositionStateMachine,
        machine.state = before ∧
        (p.syncPosition answers true).1 =
          { p with
            currentQuantity := |live.size|
            stateMachine := machine
            state := before } ∧
        ∀ move, moveBehind move (p.syncPosition answers true).2 = move) := by
  have hkept : p.state ∉ reopenedBySync := by
    rw [hstate]
    simp [reopenedBySync]
  have hopened : p.syncPosition answers true =
      ({ p with currentQuantity := |live.size| } : PositionContext).syncReconnected answers := by
    unfold syncPosition
    rw [hsync]
    dsimp only
    rw [if_neg hsize, if_neg hkept]
    rfl
  rw [hopened]
  unfold syncReconnected
  cases answers.openOrders with
  | none => exact Or.inl ⟨rfl, rfl⟩
  | some orders =>
    obtain ⟨machine, hm, hback⟩ := @applySyncTransition_back
      { p with currentQuantity := |live.size| } before hmachine hbefore
    refine Or.inr ⟨rfl, machine, hm, ?_, fun move => ?_⟩
    · dsimp only
      rw [if_pos hstate, hback]
    · dsimp only
      rw [if_pos hstate]
      split
      · rw [moveBehind_toList, slMove_enqueueEmergencySl, Option.none_or]
      · rfl

/-- **The sync** of a position that is away. -/
theorem Away.sync (h : s.Away)
    (hopen : answers.sync = .raised ∨ (s.live.state = .closed ↔ s.size = 0))
    (hstep : step s (.synced answers) = some t) : t.Same ∨ t.Away := by
  obtain ⟨htruthful, rfl⟩ := step_synced hstep
  have hstate : s.live.state = .reconnecting := congrArg PositionContext.state h.bare
  have hmachine : s.live.stateMachine.state = .reconnecting :=
    congrArg (fun position : PositionContext => position.stateMachine.state) h.bare
  unfold synced
  unfold Truthful at htruthful
  cases hsync : answers.sync with
  | raised =>
    have hraised : s.live.syncPosition answers true = (s.live, []) := by
      unfold syncPosition
      rw [hsync]
    rw [hraised]
    refine Or.inr ⟨?_, h.bare, h.before, h.machine, h.size, h.move, h.idle⟩
    simp [syncEnds, hsync]
  | noPosition =>
    rw [hsync] at htruthful hopen
    have hempty : s.size = 0 :=
      (Option.some.inj (htruthful.resolve_left (Option.some_ne_none _))).symm
    have hclosed := (hopen.resolve_left (by simp)).mpr hempty
    exact absurd (hstate.symm.trans hclosed) (by simp)
  | snapshot live =>
    rw [hsync] at htruthful hopen
    replace htruthful : |live.size| = s.size :=
      Option.some.inj (htruthful.resolve_left (Option.some_ne_none _))
    have hsize : live.size ≠ 0 := by
      intro hzero
      have hempty : s.size = 0 := by rw [← htruthful, hzero, abs_zero]
      have hclosed := (hopen.resolve_left (by simp)).mpr hempty
      exact absurd (hstate.symm.trans hclosed) (by simp)
    rcases syncPosition_reconnecting hsync hsize hstate hmachine h.before with
      ⟨hnone, hposition⟩ | ⟨hsome, machine, hm, hposition, hmove⟩
    · rw [hposition]
      refine Or.inr ⟨?_, ?_, h.before, h.machine, h.size, h.move,
        h.idle.keeps (keepsLevels_quantity s.live _)⟩
      · simp [syncEnds, hsync, hnone, hsize]
      · exact congrArg (fun position : PositionContext =>
          ({ position with currentQuantity := |live.size| } : PositionContext)) h.bare
    · rw [hposition, hmove]
      refine Or.inl ⟨?_, ?_, h.move, ?_⟩
      · simp [syncEnds, hsync, hsome]
      · have hsame := congrArg (fun position : PositionContext =>
          ({ position with
            currentQuantity := |live.size|
            stateMachine := { state := s.healthy.state }
            state := s.healthy.state } : PositionContext)) h.bare
        have hleft : ({ s.live with
            currentQuantity := |live.size|
            stateMachine := machine
            state := s.healthy.state } : PositionContext).bare =
            { s.live.bare with
              currentQuantity := |live.size|
              stateMachine := { state := s.healthy.state }
              state := s.healthy.state } := by
          unfold PositionContext.bare
          simp only [hm]
        have hright : ({ s.healthy.bare with
            currentQuantity := |live.size|
            stateMachine := { state := s.healthy.state }
            state := s.healthy.state } : PositionContext) = s.healthy.bare := by
          rw [htruthful, ← h.size]
          unfold PositionContext.bare
          simp only [h.machine]
        rw [hleft, ← hright]
        exact hsame
      · exact (h.idle.keeps (keepsLevels_quantity s.live |live.size|)).of_closest fun _ => rfl

theorem Resting.sync (h : s.Resting) (hstep : step s (.synced answers) = some t) :
    t.Same ∨ t.Resting := by
  obtain ⟨htruthful, rfl⟩ := step_synced hstep
  unfold synced
  -- closing it once more changes nothing
  have hrefused : PositionStateMachine.transition
      ({ s.live with currentQuantity := 0 } : PositionContext).stateMachine .allClosed =
        none := by
    rw [PositionStateMachine.transition, h.machine]
    rfl
  have hclosed : (applySyncTransition { s.live with currentQuantity := 0 } .allClosed
      .closed).bare = s.live.bare := by
    have hmachine : s.live.bare.stateMachine = { state := .closed } := by
      rw [← h.machine]
      rfl
    have hstate : s.live.bare.state = .closed := h.closed
    have hquantity : s.live.bare.currentQuantity = 0 := h.empty
    rw [applySyncTransition, hrefused]
    change ({ s.live.bare with
      currentQuantity := 0
      stateMachine := { state := .closed }
      state := .closed } : PositionContext) = s.live.bare
    rw [← hmachine, ← hstate, ← hquantity]
  have hkeeps : KeepsLevels s.live
      (applySyncTransition { s.live with currentQuantity := 0 } .allClosed .closed) := by
    rw [applySyncTransition, hrefused]
    exact ⟨rfl, rfl, rfl, rfl, fun _ => ⟨by simp [beforeEntry], by simp [beforeEntry]⟩⟩
  unfold Truthful at htruthful
  cases hsync : answers.sync with
  | raised =>
    have hraised : s.live.syncPosition answers true = (s.live, []) := by
      unfold syncPosition
      rw [hsync]
    rw [hraised]
    refine Or.inr ⟨?_, h.bare, h.closed, h.machine, h.empty, h.size, h.move, h.idle⟩
    simp [syncEnds, hsync]
  | noPosition =>
    have hposition : s.live.syncPosition answers true =
        (applySyncTransition { s.live with currentQuantity := 0 } .allClosed .closed, []) := by
      unfold syncPosition
      rw [hsync]
    rw [hposition]
    refine Or.inl ⟨?_, hclosed.trans h.bare, h.move, h.idle.keeps hkeeps⟩
    simp [syncEnds, hsync]
  | snapshot live =>
    rw [hsync] at htruthful
    have hzero : live.size = 0 := by
      have hsame : |live.size| = s.size :=
        Option.some.inj (htruthful.resolve_left (Option.some_ne_none _))
      exact abs_eq_zero.mp (hsame.trans h.size)
    have hposition : s.live.syncPosition answers true =
        (applySyncTransition { s.live with currentQuantity := 0 } .allClosed .closed, []) := by
      unfold syncPosition
      rw [hsync]
      exact if_pos hzero
    rw [hposition]
    refine Or.inl ⟨?_, hclosed.trans h.bare, h.move, h.idle.keeps hkeeps⟩
    simp [syncEnds, hsync, hzero]

theorem Resting.resized (h : s.Resting) (hstep : step s (.resize 0 answers) = some t) :
    t.Resting := by
  obtain ⟨-, u, hu, rfl⟩ := step_eq_some hstep
  have hclosed : s.healthy.state = .closed :=
    (read_congr PositionContext.state (fun _ => rfl) h.bare).symm.trans h.closed
  have hempty : s.healthy.currentQuantity = 0 :=
    (read_congr currentQuantity (fun _ => rfl) h.bare).symm.trans h.empty
  obtain rfl : u = s := by
    unfold stepLive at hu
    dsimp only at hu
    split at hu
    · exact (Option.some.inj hu).symm
    · rw [handlePositionUpdate_rested h.closed h.empty] at hu
      exact (Option.some.inj hu).symm
  rw [stepHealthy_resize, settleUpdate_zero, handlePositionUpdate_rested hclosed hempty]
  exact ⟨h.due, h.bare, h.closed, h.machine, h.empty, rfl, h.move, h.idle⟩

/-! ## Whole runs -/

theorem Owed.pendingLevel {deltaQty : ℚ} {i : ℕ} (h : s.Owed deltaQty i) :
    s.pendingLevel = some i := by
  unfold OutageRun.pendingLevel
  rw [h.pending]
  exact h.level

theorem Accounted.cancelReconciler (h : s.Accounted) (hidle : s.pendingLevel = none) :
    ({ s with reconciler := none } : OutageRun).Accounted := by
  rcases h with hsame | ⟨deltaQty, i, howed⟩ | haway | hresting
  · exact Or.inl ⟨hsame.synced, hsame.bare, hsame.move, idle_none _⟩
  · exact absurd (hidle.symm.trans howed.pendingLevel) (by simp)
  · exact Or.inr (Or.inr (Or.inl ⟨haway.due, haway.bare, haway.before, haway.machine, haway.size,
      haway.move, idle_none _⟩))
  · exact Or.inr (Or.inr (Or.inr ⟨hresting.due, hresting.bare, hresting.closed, hresting.machine,
      hresting.empty, hresting.size, hresting.move, idle_none _⟩))

theorem Accounted.onStream (h : s.Accounted) (stream : UserStream) :
    ({ s with stream := stream } : OutageRun).Accounted := by
  rcases h with hsame | ⟨deltaQty, i, howed⟩ | haway | hresting
  · exact Or.inl ⟨hsame.synced, hsame.bare, hsame.move, hsame.idle⟩
  · exact Or.inr (Or.inl ⟨deltaQty, i, howed.synced, howed.pending, howed.live, howed.level,
      howed.bare, howed.move⟩)
  · exact Or.inr (Or.inr (Or.inl ⟨haway.due, haway.bare, haway.before, haway.machine, haway.size,
      haway.move, haway.idle⟩))
  · exact Or.inr (Or.inr (Or.inr ⟨hresting.due, hresting.bare, hresting.closed, hresting.machine,
      hresting.empty, hresting.size, hresting.move, hresting.idle⟩))

theorem Accounted.pendingLevel (h : s.Accounted) :
    s.pendingLevel = none ∨ ∃ deltaQty i, s.Owed deltaQty i := by
  rcases h with hsame | howed | haway | hresting
  · exact Or.inl hsame.idle
  · exact Or.inr howed
  · exact Or.inl haway.idle
  · exact Or.inl hresting.idle

theorem Accounted.same (h : s.Accounted) (hsynced : s.syncDue = false)
    (hidle : s.pendingLevel = none) : s.Same := by
  rcases h with hsame | ⟨deltaQty, i, howed⟩ | haway | hresting
  · exact hsame
  · exact absurd (hidle.symm.trans howed.pendingLevel) (by simp)
  · exact absurd (hsynced.symm.trans haway.due) (by simp)
  · exact absurd (hsynced.symm.trans hresting.due) (by simp)

theorem Accounted.outage (h : s.Accounted) (hdue : s.syncDue = true) : s.Away ∨ s.Resting := by
  rcases h with hsame | ⟨deltaQty, i, howed⟩ | haway | hresting
  · exact absurd (hdue.symm.trans hsame.synced) (by simp)
  · exact absurd (hdue.symm.trans howed.synced) (by simp)
  · exact Or.inl haway
  · exact Or.inr hresting

/-- **An order event.** -/
theorem Accounted.order (h : s.Accounted) (hrestores : s.Restores (.order event size answers))
    (hstep : OutageRun.step s (.order event size answers) = some t) : t.Accounted := by
  unfold Restores at hrestores
  dsimp only at hrestores
  split at hrestores
  · next hdelivered =>
    obtain ⟨hup, hsynced⟩ := hdelivered
    have hidle : s.pendingLevel = none := by
      rcases hrestores with hnone | ⟨hidle, -⟩
      · unfold OutageRun.pendingLevel
        rw [hnone]
        rfl
      · exact hidle
    exact Or.inl ((h.same hsynced hidle).delivered hup hrestores hstep)
  · next hmissed =>
    rcases hrestores with ⟨rfl, hlive, hhealthy⟩ | ⟨hwarming, hsynced, hidle, hsize, hcases⟩
    · obtain ⟨kept, hkept, rfl⟩ := step_ignored hlive hhealthy hstep
      rcases hkept with rfl | ⟨hup, rfl⟩
      · exact h
      · refine h.cancelReconciler (h.pendingLevel.resolve_right ?_)
        rintro ⟨deltaQty, i, howed⟩
        exact hmissed ⟨hup, howed.synced⟩
    · have hsame := h.same hsynced hidle
      rcases hcases with hinfers | hcloses
      · exact Or.inr (Or.inl (hsame.infers hwarming hsize hinfers hstep))
      · exact Or.inl (hsame.closes hwarming hsize hcloses hstep)

/-- **A change of the size.** -/
theorem Accounted.resize (h : s.Accounted) (hrestores : s.Restores (.resize size answers))
    (hstep : OutageRun.step s (.resize size answers) = some t) : t.Accounted := by
  unfold Restores at hrestores
  dsimp only at hrestores
  split at hrestores
  · next hsynced =>
    obtain ⟨hstream, hidle, hknown⟩ := hrestores
    exact ((h.same hsynced hidle).resized hstream hknown hstep).imp id Or.inl
  · next hdue =>
    rcases h.outage (by simpa using hdue) with haway | hresting
    · have hstate : s.live.state = .reconnecting := congrArg PositionContext.state haway.bare
      rw [if_neg (by rw [hstate]; simp)] at hrestores
      exact Or.inr (Or.inr (Or.inl (haway.resized hrestores.1 hrestores.2 hstep)))
    · rw [if_pos hresting.closed] at hrestores
      subst hrestores
      exact Or.inr (Or.inr (Or.inr (hresting.resized hstep)))

/-- **One step that restores.** -/
theorem Accounted.step (h : s.Accounted) {e : OutageEvent} (hrestores : s.Restores e)
    (hstep : OutageRun.step s e = some t) : t.Accounted := by
  cases e with
  | order event size answers => exact h.order hrestores hstep
  | resize size answers => exact h.resize hrestores hstep
  | reconcile answers =>
    rcases h.pendingLevel with hidle | ⟨deltaQty, i, howed⟩
    · obtain rfl := step_reconcile_idle hidle hstep
      exact h.cancelReconciler hidle
    · have hknown := hrestores.resolve_left (by rw [howed.pendingLevel]; simp)
      exact Or.inl (howed.reconciled hknown hstep)
  | disconnect answers =>
    cases hdue : s.syncDue with
    | true =>
      obtain ⟨-, u, hu, rfl⟩ := step_eq_some hstep
      obtain rfl := Option.some.inj hu
      have hsame : ({ s with
          live := if s.syncDue then s.live else s.live.disconnected answers
          stream := .down
          syncDue := true } : OutageRun) = { s with stream := .down } := by
        rw [if_pos hdue, ← hdue]
      rw [hsame]
      exact h.onStream .down
    | false =>
      obtain ⟨hidle, hsize, hmachine, hleaves⟩ :=
        hrestores.resolve_left (by rw [hdue]; simp)
      exact Or.inr (Or.inr ((h.same hdue hidle).disconnect hsize hmachine hleaves hstep))
  | start =>
    obtain ⟨-, u, hu, rfl⟩ := step_eq_some hstep
    unfold stepLive at hu
    dsimp only at hu
    split at hu
    · obtain rfl := Option.some.inj hu
      exact h.onStream .warming
    · cases hu
  | synced answers =>
    have hdue : s.syncDue = true := by
      obtain ⟨-, u, hu, -⟩ := step_eq_some hstep
      unfold stepLive at hu
      dsimp only at hu
      split at hu
      · next hguard => exact hguard.1
      · cases hu
    rcases h.outage hdue with haway | hresting
    · exact (haway.sync hrestores hstep).imp id fun h => Or.inr (Or.inl h)
    · exact (hresting.sync hstep).imp id fun h => Or.inr (Or.inr h)
  | warmedUp =>
    obtain ⟨-, u, hu, rfl⟩ := step_eq_some hstep
    unfold stepLive at hu
    dsimp only at hu
    split at hu
    · obtain rfl := Option.some.inj hu
      exact h.onStream .up
    · cases hu

end Steps

/-- **Reconnect restores what the events would have done** along every run whose steps all
restore: whenever the sync is over and no fill is waiting for the reconciler, the live context is
that of a manager whose stream has never dropped. -/
theorem restored_of_run {start : PositionContext} {size : ℚ} {stream : UserStream}
    {events : List OutageEvent} {s : OutageRun}
    (hrun : run step (initial start size stream) events = some s)
    (hrestores : AlongRun step Restores (initial start size stream) events)
    (hsynced : s.syncDue = false) (hpending : s.pendingLevel = none) : s.Restored := by
  have hinitial : (initial start size stream).Accounted := Or.inl ⟨rfl, rfl, rfl, idle_none _⟩
  have haccounted := invariant_of_alongRun step (P := Restores) (I := Accounted)
    (fun _ _ _ h hr hs => h.step hr hs) hinitial hrestores hrun
  have hsame := haccounted.same hsynced hpending
  have hcontext := read_congr (fun position => position.liveContext s.move) (fun _ => rfl)
    hsame.bare
  unfold Restored
  rw [hcontext, hsame.move]

/-- A quarter of the position closed at the first level. -/
def firstLevelFilled : OrderEvent where
  orderId := "tp-1"
  orderType := "take_profit"
  status := "filled"

/-- Requests that are answered while the exchange holds `size`. -/
def answered (size : ℚ) : Answers where
  live := .snapshot { side := .long, size := size, markPrice := 0 }
  sync := .snapshot { side := .long, size := size, markPrice := 0 }
  openOrders := some [("sl-1", .stopLoss)]

/-- The first level fills in the warm-up behind the sync, and the reconciler infers it. -/
def filledInWarmup : List OutageEvent :=
  [.disconnect {}, .start, .synced (answered 1), .order firstLevelFilled (3 / 4) (answered (3 / 4)),
    .reconcile (answered (3 / 4)), .warmedUp]

theorem restored_filledInWarmup :
    ∃ s, run step (initial TpRun.quarters 1 .up) filledInWarmup = some s ∧ s.Restored := by
  have hrestores : AlongRun step Restores (initial TpRun.quarters 1 .up) filledInWarmup := by
    decide +kernel
  have hend : (run step (initial TpRun.quarters 1 .up) filledInWarmup).map
      (fun s => decide (s.syncDue = false ∧ s.pendingLevel = none)) = some true := by
    decide +kernel
  obtain ⟨s, hs, hstate⟩ := Option.map_eq_some_iff.mp hend
  obtain ⟨hsynced, hpending⟩ := of_decide_eq_true hstate
  exact ⟨s, hs, restored_of_run hs hrestores hsynced hpending⟩

/-- The first level fills while the stream is down. -/
def filledWhileDown : List OutageEvent :=
  [.disconnect {}, .order firstLevelFilled (3 / 4) (answered (3 / 4)), .start,
    .synced (answered (3 / 4)), .warmedUp]

/-- **A fill that is missed while the stream is down** is never made up for: the sync writes the
size that is left, and with it goes the shrink that would have shown the fill. -/
theorem missedFill_not_restored :
    ∃ s, run step (initial TpRun.quarters 1 .up) filledWhileDown = some s ∧
      s.syncDue = false ∧ s.stream = .up ∧ s.reconciler = none ∧
      s.live.currentQuantity = s.size ∧ ¬s.Restored := by
  have hend : (run step (initial TpRun.quarters 1 .up) filledWhileDown).map
      (fun s => decide (s.syncDue = false ∧ s.stream = .up ∧ s.reconciler = none ∧
        s.live.currentQuantity = s.size ∧ ¬s.Restored)) = some true := by
    decide +kernel
  obtain ⟨s, hs, hstate⟩ := Option.map_eq_some_iff.mp hend
  exact ⟨s, hs, of_decide_eq_true hstate⟩

end OutageRun
end AdviserConstructor
