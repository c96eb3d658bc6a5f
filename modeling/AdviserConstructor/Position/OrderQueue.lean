import Mathlib.Data.Finset.Image
import Mathlib.Logic.Function.Basic
import AdviserConstructor.Library.BinaryHeap
import AdviserConstructor.Library.StepSystem
import AdviserConstructor.Position.OrderTask

/-!
# The order execution queue

`OrderExecutionQueue` of `app/services/position/order_queue.py`, one queue with its processing
loop and any number of callers.

## Objects and identities

A task is a mutable object: the heap, the pending map and the loop all hold references to it,
and coalescing changes its parameters, its creation time and its priority in place.  `store`
is the memory that holds the task objects, and everything else holds identities.  The heap is
the binary heap of `asyncio.PriorityQueue`, and because a stored task's sort key changes under
it, nothing is assumed about its order.

## Interleavings

The runtime is single threaded: control changes hands at `await`s only.  A label of
`QueueStep` is what happens between two of them, so a list of labels is one interleaving of
the callers with the loop.  `enqueue` and `purge_pending` change the state under
`_pending_lock` without an `await` between their writes, so each is one label.  The loop is in
one of the phases of `LoopPhase`, one for each `await` of `start_processing`; a lock that
another coroutine holds while it waits for its audit hook is such an `await` too.

`can_place_order` and `get_rate_limit_state` read local counters and do not raise.  Audit
hooks never raise into the queue and write nothing that it reads.

## History

`QueueHistory` records what a statement about a whole run has to speak of: the accepted tasks
in order, whose parameters a task object carries, what the adapter was called with, and what
`purge_pending` and the tombstone check removed.  No step reads it.
-/

namespace AdviserConstructor

abbrev TaskId := ℕ

/-! ## State -/

/-- Where the processing loop stands.  The key is the one computed when the task was taken off
the heap. -/
inductive LoopPhase where
  /-- `start_processing` is not running -/
  | stopped
  /-- waiting for `self._queue.get()` -/
  | polling
  | dequeued (task : TaskId) (key : TaskKey)
  /-- in `_wait_for_rate_limit_headroom` -/
  | waiting (task : TaskId) (key : TaskKey)
  | admitted (task : TaskId) (key : TaskKey)
  | executing (task : TaskId) (key : TaskKey) (event : ℕ)
  | callback (task : TaskId) (key : TaskKey) (event : ℕ)
  | releasing (task : TaskId) (key : TaskKey) (event : ℕ) (outcome : Option TaskError)
  /-- sleeping before the task is put back -/
  | backoff (task : TaskId) (key : TaskKey)
  /-- in `_handle_max_retries` or `_handle_fatal_error` -/
  | escalating (task : TaskId) (key : TaskKey) (error : TaskError)
  /-- about to take the key out of the pending map -/
  | cleanup (task : TaskId) (key : TaskKey)
  deriving DecidableEq, Repr

namespace LoopPhase

/-- The task in the loop's hands, with its key. -/
def held : LoopPhase → Option (TaskId × TaskKey)
  | .stopped | .polling => none
  | .dequeued task key | .waiting task key | .admitted task key | .executing task key _
  | .callback task key _ | .releasing task key _ _ | .backoff task key
  | .escalating task key _ | .cleanup task key => some (task, key)

/-- The adapter call of the held task has started, and the task is not going back on the
heap. -/
def callStarted : LoopPhase → Bool
  | .executing .. | .callback .. | .releasing .. | .escalating .. | .cleanup .. => true
  | _ => false

/-- The held task is sleeping before it is put back. -/
def inBackoff : LoopPhase → Bool
  | .backoff .. => true
  | _ => false

/-- The held task, if it is past the tombstone check and its adapter call has not returned. -/
def landing : LoopPhase → Option TaskId
  | .waiting task _ | .admitted task _ | .executing task _ _ => some task
  | _ => none

end LoopPhase

/-- What a run has done so far. -/
structure QueueHistory where
  /-- the tasks given to `enqueue`, in order; the position in this list names an intent -/
  accepted : List OrderTask := []
  /-- the intent whose parameters a task object carries -/
  intent : TaskId → ℕ := fun _ => 0
  /-- the intents handed to the adapter, with the call -/
  handed : List (ℕ × AdapterCall) := []
  /-- the tasks that `purge_pending` took out of the pending map -/
  purged : List TaskId := []
  /-- the tasks that the tombstone check dropped -/
  dropped : List TaskId := []
  /-- the purged tasks whose execution started after they were purged -/
  executedAfterPurge : List TaskId := []

/-- The state of a queue, its processing loop and its history. -/
structure QueueState where
  processing : Bool := false
  phase : LoopPhase := .stopped
  heap : List TaskId := []
  store : TaskId → OrderTask :=
    fun _ => ⟨.cancelOrder, 0, "", .unsupported "", .empty, 0, 3, none⟩
  fresh : TaskId := 0
  pending : InsertionDict TaskKey TaskId := .empty
  tombstoned : Finset TaskKey := ∅
  executingKeys : InsertionDict TaskKey ℕ := .empty
  nextEvent : ℕ := 0
  history : QueueHistory := {}

namespace QueueState

/-- A queue as its constructor leaves it. -/
def initial : QueueState := {}

/-- The order of the heap, read off the task objects as they are now. -/
def taskLt (s : QueueState) (a b : TaskId) : Bool := (s.store a).lt (s.store b)

/-- `self._queue.put`. -/
def putHeap (s : QueueState) (id : TaskId) : QueueState :=
  { s with heap := BinaryHeap.push s.taskLt s.heap id }

/-! ## `enqueue` -/

/-- `_quickfire_coalesce_window_seconds`. -/
def quickfireCoalesceWindowSeconds : ℚ := 1 / 2

/-- `_find_quickfire_replace_sl`: the first pending multi-TP `replace_sl` of the position
created within the window. -/
def findQuickfireReplaceSl (s : QueueState) (positionId : String) (createdAt : ℚ) :
    Option (TaskKey × TaskId) :=
  s.pending.entries.find? fun entry =>
    let existing := s.store entry.2
    existing.positionId = positionId ∧ existing.action = .replaceSl ∧
      isMultiTpReason (existing.params.lookup "reason") = true ∧
      |existing.createdAt - createdAt| ≤ quickfireCoalesceWindowSeconds

/-- The pending multi-TP task that a new task is folded into, if it is a multi-TP
`replace_sl`. -/
def quickfireTarget (s : QueueState) (task : OrderTask) : Option (TaskKey × TaskId) :=
  if task.action = .replaceSl ∧ isMultiTpReason (task.params.lookup "reason") = true then
    s.findQuickfireReplaceSl task.positionId task.createdAt
  else none

/-- The task object that `enqueue` writes into instead of queueing a new one. -/
def coalesceTarget (s : QueueState) (task : OrderTask) : Option TaskId :=
  match s.quickfireTarget task with
  | some (_, id) => some id
  | none => s.pending.get? task.key

/-- The latest intent wins: parameters and creation time of the new task, the higher
priority. -/
def refreshed (existing task : OrderTask) : OrderTask :=
  { existing with
    params := task.params
    createdAt := task.createdAt
    priority :=
      if task.priority.value < existing.priority.value then task.priority
      else existing.priority }

/-- Write a task object, which from now on carries the intent recorded last. -/
def writeTask (s : QueueState) (id : TaskId) (new accepted : OrderTask) : QueueState :=
  { s with
    store := Function.update s.store id new
    history :=
      { s.history with
        accepted := s.history.accepted ++ [accepted]
        intent := Function.update s.history.intent id s.history.accepted.length } }

/-- `enqueue`. -/
def enqueue (s : QueueState) (task : OrderTask) : QueueState :=
  match s.quickfireTarget task with
  | some (coalesceKey, id) =>
      let s := s.writeTask id (refreshed (s.store id) task) task
      if task.key ≠ coalesceKey then
        { s with pending := (s.pending.remove coalesceKey).assign task.key id }
      else s
  | none =>
      match s.pending.get? task.key with
      | some id =>
          if task.action.isSl then
            s.writeTask id (refreshed (s.store id) task) task
          else
            s.writeTask id { s.store id with params := task.params } task
      | none =>
          { s.writeTask s.fresh task task with
            fresh := s.fresh + 1
            pending := s.pending.assign task.key s.fresh }.putHeap s.fresh

/-! ## `purge_pending` -/

/-- The pending entries that `purge_pending` takes out. -/
def purgeMatches (s : QueueState) (positionId : String) (actions : List TaskAction) :
    List (TaskKey × TaskId) :=
  s.pending.entries.filter fun entry =>
    entry.1.positionId = positionId ∧ (s.store entry.2).action ∈ actions

/-- `purge_pending`. -/
def purgePending (s : QueueState) (positionId : String) (actions : List TaskAction) :
    QueueState :=
  let found := s.purgeMatches positionId actions
  { s with
    pending := (found.map Prod.fst).foldl InsertionDict.remove s.pending
    tombstoned := s.tombstoned ∪ (found.map Prod.fst).toFinset
    history := { s.history with purged := s.history.purged ++ found.map Prod.snd } }

end QueueState

/-! ## The processing loop -/

/-- One move of a caller or of the loop. -/
inductive QueueStep where
  | enqueue (task : OrderTask)
  | purgePending (positionId : String) (actions : List TaskAction)
  | startProcessing
  | stop
  /-- the loop finds `_processing` false and ends -/
  | leave
  | dequeue
  | checkTombstone
  /-- `can_place_order` answers `True` -/
  | headroom
  /-- the queue was stopped while it waited for headroom -/
  | headroomLost
  /-- the key is marked and `_execute_task` is entered; `live` answers its `get_position` -/
  | execute (live : PositionReply) (defaultId : String)
  | adapterReturns
  | adapterRaises (error : TaskError)
  | callbackReturns
  | callbackRaises (error : TaskError)
  /-- the key is unmarked and the outcome is routed -/
  | release
  | backoffElapsed
  | escalate (now : ℚ)
  | cleanup
  deriving DecidableEq

namespace QueueState

/-- The loop begins executing the held task: the key is marked, and if the parameters pass
validation the adapter is called. -/
def beginExecution (s : QueueState) (id : TaskId) (key : TaskKey) (live : PositionReply)
    (defaultId : String) : QueueState :=
  let task := s.store id
  let marked :=
    { s with
      executingKeys := s.executingKeys.assign key s.nextEvent
      nextEvent := s.nextEvent + 1
      history :=
        { s.history with
          executedAfterPurge :=
            if id ∈ s.history.purged then id :: s.history.executedAfterPurge
            else s.history.executedAfterPurge } }
  match executeTask task.action task.params live defaultId with
  | .error error => { marked with phase := .releasing id key s.nextEvent (some error) }
  | .ok none =>
      { marked with
        phase :=
          if task.onSuccess.isSome then .callback id key s.nextEvent
          else .releasing id key s.nextEvent none }
  | .ok (some call) =>
      { marked with
        phase := .executing id key s.nextEvent
        history :=
          { marked.history with
            handed := marked.history.handed ++ [(marked.history.intent id, call)] } }

/-- The phase behind the `except` clauses.  A transient error leads to another attempt while
retries are left; the two skip errors are audited and dropped; everything else escalates. -/
def routeOutcome (s : QueueState) (id : TaskId) (key : TaskKey) :
    Option TaskError → QueueState
  | none => { s with phase := .cleanup id key }
  | some (.transient message) =>
      let task := s.store id
      if task.retryCount < task.maxRetries then
        { s with
          phase := .backoff id key
          store := Function.update s.store id { task with retryCount := task.retryCount + 1 } }
      else { s with phase := .escalating id key (.transient message) }
  | some (.wouldImmediatelyTrigger _) => { s with phase := .cleanup id key }
  | some (.positionAlreadyFlat _) => { s with phase := .cleanup id key }
  | some (.other message) => { s with phase := .escalating id key (.other message) }

/-- Unmark the key, unless a later execution has marked it again. -/
def unmark (s : QueueState) (key : TaskKey) (event : ℕ) : QueueState :=
  { s with
    executingKeys :=
      if s.executingKeys.get? key = some event then s.executingKeys.remove key
      else s.executingKeys }

/-- The emergency task that an error of the held task is escalated to. -/
def escalationOf (task : OrderTask) (error : TaskError) (now : ℚ) : Option OrderTask :=
  match error with
  | .transient _ => handleMaxRetries task error now
  | _ => handleFatalError task error now

/-- One step of the queue system; `none` when the label is not enabled. -/
def step (s : QueueState) : QueueStep → Option QueueState
  | .enqueue task => some (s.enqueue task)
  | .purgePending positionId actions => some (s.purgePending positionId actions)
  | .startProcessing =>
      match s.phase with
      | .stopped => some { s with processing := true, phase := .polling }
      | _ => none
  | .stop => some { s with processing := false }
  | .leave =>
      match s.phase with
      | .polling => if s.processing then none else some { s with phase := .stopped }
      | _ => none
  | .dequeue =>
      match s.phase with
      | .polling =>
          (BinaryHeap.pop s.taskLt s.heap).map fun popped =>
            { s with heap := popped.2, phase := .dequeued popped.1 (s.store popped.1).key }
      | _ => none
  | .checkTombstone =>
      match s.phase with
      | .dequeued id key =>
          if key ∈ s.tombstoned then
            some
              { s with
                tombstoned := s.tombstoned.erase key
                phase := .polling
                history := { s.history with dropped := s.history.dropped ++ [id] } }
          else some { s with phase := .waiting id key }
      | _ => none
  | .headroom =>
      match s.phase with
      | .waiting id key => if s.processing then some { s with phase := .admitted id key } else none
      | _ => none
  | .headroomLost =>
      match s.phase with
      | .waiting id _ =>
          if s.processing then none else some { s.putHeap id with phase := .polling }
      | _ => none
  | .execute live defaultId =>
      match s.phase with
      | .admitted id key => some (s.beginExecution id key live defaultId)
      | _ => none
  | .adapterReturns =>
      match s.phase with
      | .executing id key event =>
          some
            { s with
              phase :=
                if (s.store id).onSuccess.isSome then .callback id key event
                else .releasing id key event none }
      | _ => none
  | .adapterRaises error =>
      match s.phase with
      | .executing id key event => some { s with phase := .releasing id key event (some error) }
      | _ => none
  | .callbackReturns =>
      match s.phase with
      | .callback id key event => some { s with phase := .releasing id key event none }
      | _ => none
  | .callbackRaises error =>
      match s.phase with
      | .callback id key event => some { s with phase := .releasing id key event (some error) }
      | _ => none
  | .release =>
      match s.phase with
      | .releasing id key event outcome => some ((s.unmark key event).routeOutcome id key outcome)
      | _ => none
  | .backoffElapsed =>
      match s.phase with
      | .backoff id _ => some { s.putHeap id with phase := .polling }
      | _ => none
  | .escalate now =>
      match s.phase with
      | .escalating id key error =>
          match escalationOf (s.store id) error now with
          | some emergency => some { s.enqueue emergency with phase := .cleanup id key }
          | none => some { s with phase := .cleanup id key }
      | _ => none
  | .cleanup =>
      match s.phase with
      | .cleanup _ key => some { s with pending := s.pending.remove key, phase := .polling }
      | _ => none

abbrev run (s : QueueState) (as : List QueueStep) : Option QueueState := StepSystem.run step s as

end QueueState

end AdviserConstructor
