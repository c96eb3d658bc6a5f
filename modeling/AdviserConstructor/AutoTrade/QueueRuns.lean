import Mathlib.Logic.Function.Basic
import AdviserConstructor.AutoTrade.SignalQueue

/-!
# Runs of the signal queue

A step of the queue is an enqueue, a change of the configurations, or the next thing that a worker
does: it begins a run, polls a batch, processes the next item of the batch, and commits; or its
transaction is rolled back.  Any number of workers take turns.

The signal state of a configuration is under the lock of the configuration.  The histories that the
trading branch has completed, and the attempts that were made at an item, are no columns: a rollback
takes back the rows, and not the orders that were sent.

* `signals_actOnce`: in every run in which no poll finds an item that its own transaction has taken
  before, no attempt counts a signal and then fails to close, and no transaction is rolled back
  behind an attempt, the histories of a configuration are acted on in increasing order, every item
  is done with after its last attempt, and a failed attempt leaves the signal state as it was.
* `failed_keepsSignals_iff`: a failed attempt leaves the signal state exactly if it does not strand
  a count.
* `signals_notActedOnce`: a count is stranded, an item has more attempts than it may have, and a
  history is acted on twice.
-/

namespace AdviserConstructor

open StepSystem

/-! ## The tables and the workers -/

/-- A run of the worker. -/
structure WorkerRun where
  now : ℕ
  /-- the items of the batch that are still to be processed -/
  batch : List ℕ := []
  /-- another batch is polled behind this one -/
  more : Bool := true
  attempted : Bool := false

/-- The tables, and the runs that are under way. -/
structure SignalQueue where
  items : List (LockedRow ℕ QueueItem) := []
  /-- the rows of the signal states, under the locks of the configurations -/
  signals : ℕ → LockedRow ℕ (Option SignalState) := fun _ => .fresh none
  configs : List AutoTradeConfig
  runs : ℕ → Option WorkerRun := fun _ => none
  /-- the histories that the trading branch has completed for a configuration, the newest first -/
  acted : ℕ → List ℕ := fun _ => []
  /-- the attempts that were made at an item -/
  attempts : ℕ → ℕ := fun _ => 0

/-- What happens next. -/
inductive QueueEvent where
  | enqueue (historyId userId profileId now : ℕ)
  | configure (configs : List AutoTradeConfig)
  | begin (worker now : ℕ)
  | poll (worker : ℕ)
  | process (worker : ℕ) (answers : SignalAnswers)
  | commit (worker : ℕ)
  | rollback (worker : ℕ)

namespace SignalQueue

/-! ## Enqueueing -/

/-- The insertion of an item, unless a constraint of the table is violated. -/
def insertItem (item : QueueItem) (items : List (LockedRow ℕ QueueItem)) :
    List (LockedRow ℕ QueueItem) :=
  let duplicate (row : LockedRow ℕ QueueItem) : Bool :=
    row.committed.historyId = item.historyId ∧ row.committed.configId = item.configId
  if items.any duplicate ∨ item.maxAttempts < 1 then items else items ++ [.fresh item]

/-- `enqueue_history_signal`. -/
def enqueueHistorySignal (settings : QueueSettings) (s : SignalQueue)
    (historyId userId profileId now : ℕ) : SignalQueue :=
  let configs := s.configs.filter fun config =>
    config.userId = userId ∧ config.profileId = profileId ∧ config.enabled ∧ config.isRunning
  let insert (items : List (LockedRow ℕ QueueItem)) (config : AutoTradeConfig) :=
    insertItem
      { userId
        configId := config.id
        profileId
        historyId
        maxAttempts := settings.maxAttempts
        nextRetryAt := now } items
  { s with items := configs.foldl insert s.items }

/-! ## Polling -/

/-- The query of a poll returns the item. -/
def due (s : SignalQueue) (w now i : ℕ) : Bool :=
  (s.items[i]?).any fun row =>
    row.FreeFor w ∧ (row.view w).status = .pending ∧ (row.view w).nextRetryAt ≤ now

def dueAt (s : SignalQueue) (w i : ℕ) : ℕ :=
  ((s.items[i]?).map fun row => (row.view w).nextRetryAt).getD 0

/-- The batch of a poll, in the order of `next_retry_at` and `id`. -/
def dueBatch (settings : QueueSettings) (s : SignalQueue) (w now : ℕ) : List ℕ :=
  (((List.range s.items.length).filter (s.due w now)).insertionSort
    fun i j => s.dueAt w i ≤ s.dueAt w j).take settings.statusBatchSize

/-- A poll locks its batch.  The run goes on to the next one if the batch is full. -/
def pollBatch (settings : QueueSettings) (s : SignalQueue) (w : ℕ) (run : WorkerRun) :
    SignalQueue :=
  let batch := s.dueBatch settings w run.now
  { s with
    items := s.items.mapIdx fun i row => if i ∈ batch then row.lock w else row
    runs := Function.update s.runs w
      (some { run with batch, more := batch ≠ [] ∧ settings.statusBatchSize ≤ batch.length }) }

/-! ## Processing -/

/-- The exception for a configuration that is locked. -/
def configLocked : ServiceError where
  message := "Auto-trade config is currently locked by another worker."
  retryable := true

def configOf (s : SignalQueue) (item : QueueItem) : Option AutoTradeConfig :=
  s.configs.find? fun config => config.id = item.configId

/-- The configuration of the item is locked by another run, or by another session. -/
def busy (s : SignalQueue) (w : ℕ) (item : QueueItem) (answers : SignalAnswers) : Bool :=
  answers.configBusy || !decide ((s.signals item.configId).FreeFor w)

/-- `_get_config_for_update` has found the configuration and locked it. -/
def locksConfig (s : SignalQueue) (w : ℕ) (item : QueueItem) (answers : SignalAnswers) : Bool :=
  (s.configOf item).isSome && !s.busy w item answers

/-- `_process_queue_item`. -/
def attemptItem (s : SignalQueue) (w now : ℕ) (item : QueueItem) (answers : SignalAnswers) :
    ItemAttempt :=
  let stored := (s.signals item.configId).seen w
  if (s.configOf item).isSome ∧ s.busy w item answers then
    { item, state := stored, result := .error configLocked }
  else processQueueItem (s.configOf item) stored item now answers

def finishedItem (settings : QueueSettings) (begun : QueueItem) (now : ℕ) (attempt : ItemAttempt) :
    QueueItem :=
  match attempt.result with
  | .ok _ => attempt.item
  | .error error => begun.markRetryOrDead settings now error

/-- The histories that were acted on, behind an attempt at the history. -/
def actedBehind (historyId : ℕ) (attempt : ItemAttempt) (acted : List ℕ) : List ℕ :=
  match attempt.result with
  | .ok .completed => historyId :: acted
  | _ => acted

/-- The items behind an attempt at the item `i`.  A flush meets the item while it is at work. -/
def finishedItems (w i : ℕ) (begun finished : QueueItem) (flushed : Bool)
    (items : List (LockedRow ℕ QueueItem)) : List (LockedRow ℕ QueueItem) :=
  let flush (row : LockedRow ℕ QueueItem) := if flushed then row.flush w else row
  items.mapIdx fun j row =>
    if j = i then (flush (row.write fun _ => begun)).write fun _ => finished else flush row

/-- The attempt at the first item of the batch. -/
def processNext (settings : QueueSettings) (s : SignalQueue) (w : ℕ) (run : WorkerRun) (i : ℕ)
    (rest : List ℕ) (row : LockedRow ℕ QueueItem) (answers : SignalAnswers) : SignalQueue :=
  let begun := row.object.beginAttempt run.now
  let attempt := s.attemptItem w run.now begun answers
  let finished := finishedItem settings begun run.now attempt
  { s with
    items := finishedItems w i begun finished attempt.flushed s.items
    signals :=
      if s.locksConfig w begun answers then
        Function.update s.signals begun.configId
          (((s.signals begun.configId).lock w).write fun _ => attempt.state)
      else s.signals
    runs := Function.update s.runs w (some { run with batch := rest, attempted := true })
    acted :=
      Function.update s.acted begun.configId
        (actedBehind begun.historyId attempt (s.acted begun.configId))
    attempts := Function.update s.attempts i (s.attempts i + 1) }

/-! ## Steps -/

/-- The end of the transaction of a run. -/
def endRun (s : SignalQueue) (w : ℕ) (items : LockedRow ℕ QueueItem → LockedRow ℕ QueueItem)
    (signals : LockedRow ℕ (Option SignalState) → LockedRow ℕ (Option SignalState)) : SignalQueue :=
  { s with
    items := s.items.map items
    signals := fun configId => signals (s.signals configId)
    runs := Function.update s.runs w none }

def step (settings : QueueSettings) (s : SignalQueue) : QueueEvent → Option SignalQueue
  | .enqueue historyId userId profileId now =>
      some (s.enqueueHistorySignal settings historyId userId profileId now)
  | .configure configs => some { s with configs }
  | .begin w now =>
      match s.runs w with
      | some _ => none
      | none => some { s with runs := Function.update s.runs w (some { now }) }
  | .poll w =>
      match s.runs w with
      | some run =>
          if run.batch = [] ∧ run.more = true then some (s.pollBatch settings w run) else none
      | none => none
  | .process w answers =>
      match s.runs w with
      | some run =>
          match run.batch with
          | i :: rest =>
              (s.items[i]?).map fun row => s.processNext settings w run i rest row answers
          | [] => none
      | none => none
  | .commit w =>
      match s.runs w with
      | some run =>
          if run.batch = [] ∧ run.more = false then
            some (s.endRun w (LockedRow.commit w) (LockedRow.commit w))
          else none
      | none => none
  | .rollback w =>
      match s.runs w with
      | some _ => some (s.endRun w (LockedRow.rollback w) (LockedRow.rollback w))
      | none => none

/-- Nothing is queued and nobody is at work. -/
def start (configs : List AutoTradeConfig) : SignalQueue where
  configs := configs

variable {settings : QueueSettings} {s s' : SignalQueue}

/-! ## What a step can do -/

/-- The worker is about to process the item `i`. -/
structure AtWork (s : SignalQueue) (w : ℕ) (run : WorkerRun) (i : ℕ) (rest : List ℕ)
    (row : LockedRow ℕ QueueItem) : Prop where
  running : s.runs w = some run
  batch : run.batch = i :: rest
  item : s.items[i]? = some row

theorem step_begin {w now : ℕ} (hs : s.step settings (.begin w now) = some s') :
    s.runs w = none ∧ s' = { s with runs := Function.update s.runs w (some { now }) } := by
  rw [step] at hs
  cases hrun : s.runs w with
  | some run =>
    rw [hrun] at hs
    cases hs
  | none =>
    rw [hrun] at hs
    exact ⟨rfl, (Option.some.inj hs).symm⟩

theorem step_poll {w : ℕ} (hs : s.step settings (.poll w) = some s') :
    ∃ run, s.runs w = some run ∧ run.batch = [] ∧ s' = s.pollBatch settings w run := by
  rw [step] at hs
  cases hrun : s.runs w with
  | none =>
    rw [hrun] at hs
    cases hs
  | some run =>
    rw [hrun] at hs
    obtain ⟨hready, hs⟩ := Option.ite_none_right_eq_some.mp hs
    exact ⟨run, rfl, hready.1, (Option.some.inj hs).symm⟩

variable {answers : SignalAnswers}

theorem step_process {w : ℕ} (hs : s.step settings (.process w answers) = some s') :
    ∃ run i rest row, s.AtWork w run i rest row ∧
      s' = s.processNext settings w run i rest row answers := by
  rw [step] at hs
  cases hrun : s.runs w with
  | none =>
    rw [hrun] at hs
    cases hs
  | some run =>
    rw [hrun] at hs
    cases hbatch : run.batch with
    | nil =>
      simp only [hbatch] at hs
      cases hs
    | cons i rest =>
      simp only [hbatch] at hs
      obtain ⟨row, hrow, hs⟩ := Option.map_eq_some_iff.mp hs
      exact ⟨run, i, rest, row, ⟨hrun, hbatch, hrow⟩, hs.symm⟩

theorem step_commit {w : ℕ} (hs : s.step settings (.commit w) = some s') :
    s' = s.endRun w (LockedRow.commit w) (LockedRow.commit w) := by
  rw [step] at hs
  cases hrun : s.runs w with
  | none =>
    rw [hrun] at hs
    cases hs
  | some run =>
    rw [hrun] at hs
    exact (Option.some.inj (Option.ite_none_right_eq_some.mp hs).2).symm

theorem step_rollback {w : ℕ} (hs : s.step settings (.rollback w) = some s') :
    ∃ run, s.runs w = some run ∧ s' = s.endRun w (LockedRow.rollback w) (LockedRow.rollback w) := by
  rw [step] at hs
  cases hrun : s.runs w with
  | none =>
    rw [hrun] at hs
    cases hs
  | some run =>
    rw [hrun] at hs
    exact ⟨run, rfl, (Option.some.inj hs).symm⟩

/-! ## What an attempt can do -/

theorem attemptItem_cases (s : SignalQueue) (w now : ℕ) (item : QueueItem)
    (answers : SignalAnswers) :
    s.locksConfig w item answers = false ∧
        (s.attemptItem w now item answers).result = .error configLocked ∨
      ((s.configOf item).isSome = true → s.busy w item answers = false) ∧
        ItemCases (s.configOf item) ((s.signals item.configId).seen w) item now answers
          (s.attemptItem w now item answers) := by
  rw [attemptItem]
  by_cases hbusy : (s.configOf item).isSome = true ∧ s.busy w item answers = true
  · rw [if_pos hbusy]
    refine Or.inl ⟨?_, rfl⟩
    rw [locksConfig, hbusy.2]
    simp
  · rw [if_neg hbusy]
    refine Or.inr ⟨fun hsome => ?_, processQueueItem_cases ..⟩
    exact Bool.eq_false_iff.mpr fun h => hbusy ⟨hsome, h⟩

theorem item_attemptItem {w now : ℕ} {item : QueueItem} {outcome : ItemOutcome}
    (hresult : (s.attemptItem w now item answers).result = .ok outcome) :
    (s.attemptItem w now item answers).item = item.markCompleted now ∨
      ∃ error, (s.attemptItem w now item answers).item = item.markDead now error := by
  rcases attemptItem_cases s w now item answers with ⟨_, hlocked⟩ | ⟨_, hcases⟩
  · rw [hlocked] at hresult
    cases hresult
  · cases hcases with
    | passed _ _ hitem _ => exact hitem
    | traded _ _ htrade =>
      cases htrade with
      | completed _ hitem _ _ => exact Or.inl hitem
      | failed _ herror _ _ =>
        rw [herror] at hresult
        cases hresult
      | stranded _ herror _ _ =>
        rw [herror] at hresult
        cases hresult

theorem attempt_finishedItem (s : SignalQueue) (w now : ℕ) (item : QueueItem)
    (answers : SignalAnswers) :
    (finishedItem settings item now (s.attemptItem w now item answers)).attempt =
      item.attempt := by
  rw [finishedItem]
  cases hresult : (s.attemptItem w now item answers).result with
  | error error => exact item.attempt_markRetryOrDead settings now error
  | ok outcome =>
    rcases item_attemptItem hresult with hitem | ⟨error, hitem⟩
    · simp only [hitem]
      rfl
    · simp only [hitem]
      rfl

theorem settled_finishedItem (s : SignalQueue) (w now : ℕ) {item : QueueItem}
    (hle : item.attempt ≤ item.maxAttempts) (answers : SignalAnswers) :
    (finishedItem settings item now (s.attemptItem w now item answers)).Settled := by
  rw [finishedItem]
  cases hresult : (s.attemptItem w now item answers).result with
  | error error => exact QueueItem.settled_markRetryOrDead settings now error hle
  | ok outcome =>
    rcases item_attemptItem hresult with hitem | ⟨error, hitem⟩
    · simp only [hitem]
      exact ⟨hle, Or.inl rfl⟩
    · simp only [hitem]
      exact ⟨hle, Or.inr (Or.inl rfl)⟩

/-! ## The order of the histories -/

/-- The histories that were acted on go up to the last one that was processed. -/
structure Ordered (acted : List ℕ) (stored : Option SignalState) : Prop where
  increasing : acted.Pairwise (· > ·)
  bounded : ∀ historyId ∈ acted, historyId ≤ (stored.getD {}).lastProcessedHistoryId

theorem Ordered.mono {acted : List ℕ} {stored next : Option SignalState} (h : Ordered acted stored)
    (hle : (stored.getD {}).lastProcessedHistoryId ≤ (next.getD {}).lastProcessedHistoryId) :
    Ordered acted next :=
  ⟨h.increasing, fun historyId hmem => (h.bounded historyId hmem).trans hle⟩

theorem Ordered.attempt {acted : List ℕ} {stored : Option SignalState} (h : Ordered acted stored)
    {config : Option AutoTradeConfig} {item : QueueItem} {now : ℕ} {attempt : ItemAttempt}
    (hcases : ItemCases config stored item now answers attempt) :
    Ordered (actedBehind item.historyId attempt acted) attempt.state := by
  cases hcases with
  | @passed outcome houtcome hresult _ hlast =>
    rw [actedBehind, hresult]
    cases outcome with
    | completed => exact absurd rfl houtcome
    | skipped => exact h.mono hlast
    | dead => exact h.mono hlast
  | traded _ hreaches htrade =>
    cases htrade with
    | @completed state' hresult _ hstate hlast =>
      rw [actedBehind, hresult, hstate]
      refine ⟨List.pairwise_cons.mpr ⟨fun historyId hmem => ?_, h.increasing⟩,
        fun historyId hmem => ?_⟩
      · exact (h.bounded historyId hmem).trans_lt hreaches.unprocessed
      · change historyId ≤ state'.lastProcessedHistoryId
        rw [hlast]
        rcases List.mem_cons.mp hmem with rfl | hmem
        · exact le_max_right _ _
        · exact (h.bounded historyId hmem).trans (le_max_left _ _)
    | failed _ hresult _ hstate =>
      rw [actedBehind, hresult, hstate]
      exact h.mono le_rfl
    | stranded _ hresult _ hstate =>
      rw [actedBehind, hresult, hstate]
      exact h.mono le_rfl

/-! ## The attempts of the items -/

/-- The step is no poll that returns an item which its own transaction has taken before. -/
def pollsUntaken (settings : QueueSettings) (s : SignalQueue) : QueueEvent → Bool
  | .poll w =>
      (s.runs w).all fun run =>
        (s.dueBatch settings w run.now).all fun i =>
          (s.items[i]?).all fun row => row.owner ≠ some w
  | _ => true

/-- The rest of the batch of a run is under its lock, and pending. -/
structure BatchHeld (s : SignalQueue) (w : ℕ) (run : WorkerRun) : Prop where
  nodup : run.batch.Nodup
  held : ∀ i ∈ run.batch, ∃ row, s.items[i]? = some row ∧ row.owner = some w ∧
    row.object.status = .pending

/-- Every item is settled, and every run holds its batch. -/
structure ItemsSettled (s : SignalQueue) : Prop where
  settled : ∀ row ∈ s.items, row.Both QueueItem.Settled
  batches : ∀ w run, s.runs w = some run → s.BatchHeld w run

theorem BatchHeld.frame {w : ℕ} {run : WorkerRun} (h : s.BatchHeld w run)
    (hframe : ∀ (i : ℕ) (row : LockedRow ℕ QueueItem), i ∈ run.batch → s.items[i]? = some row →
      row.owner = some w → ∃ row', s'.items[i]? = some row' ∧ row'.owner = row.owner ∧
        row'.object = row.object) : s'.BatchHeld w run := by
  refine ⟨h.nodup, fun i hi => ?_⟩
  obtain ⟨row, hrow, howner, hpending⟩ := h.held i hi
  obtain ⟨row', hrow', howner', hobject⟩ := hframe i row hi hrow howner
  exact ⟨row', hrow', howner'.trans howner, hobject ▸ hpending⟩

theorem itemsSettled_start (configs : List AutoTradeConfig) : ItemsSettled (start configs) :=
  ⟨fun _ hrow => absurd hrow List.not_mem_nil, fun _ _ hrun => nomatch hrun⟩

/-! ### Enqueueing -/

/-- A row that was just inserted. -/
structure IsNew (row : LockedRow ℕ QueueItem) : Prop where
  settled : row.Both QueueItem.Settled
  unchanged : row.object = row.committed
  untried : row.object.attempt = 0

theorem insertItem_eq_append {item : QueueItem} (hstatus : item.status = .pending)
    (hattempt : item.attempt = 0) (items : List (LockedRow ℕ QueueItem)) :
    ∃ news, insertItem item items = items ++ news ∧ ∀ row ∈ news, IsNew row := by
  rw [insertItem]
  split_ifs with h
  · exact ⟨[], (List.append_nil _).symm, fun _ hrow => absurd hrow List.not_mem_nil⟩
  · have hlt : item.attempt < item.maxAttempts := by
      omega
    refine ⟨[.fresh item], rfl, fun row hrow => ?_⟩
    rw [List.mem_singleton.mp hrow]
    exact ⟨LockedRow.both_fresh ⟨hlt.le, Or.inr (Or.inr ⟨hstatus, hlt⟩)⟩, rfl, hattempt⟩

theorem enqueueHistorySignal_eq (settings : QueueSettings) (s : SignalQueue)
    (historyId userId profileId now : ℕ) :
    ∃ news, s.enqueueHistorySignal settings historyId userId profileId now =
        { s with items := s.items ++ news } ∧
      ∀ row ∈ news, IsNew row := by
  rw [enqueueHistorySignal]
  generalize s.configs.filter _ = configs
  suffices h : ∀ items, ∃ news, configs.foldl (fun items config => insertItem
      { userId
        configId := config.id
        profileId
        historyId
        maxAttempts := settings.maxAttempts
        nextRetryAt := now } items) items = items ++ news ∧
      ∀ row ∈ news, IsNew row by
    obtain ⟨news, hnews, hnew⟩ := h s.items
    exact ⟨news, congrArg (fun items => { s with items := items }) hnews, hnew⟩
  induction configs with
  | nil =>
    exact fun items =>
      ⟨[], (List.append_nil _).symm, fun _ hrow => absurd hrow List.not_mem_nil⟩
  | cons config configs ih =>
    intro items
    rw [List.foldl_cons]
    obtain ⟨front, hfront, hfrontNew⟩ := @insertItem_eq_append
      { userId
        configId := config.id
        profileId
        historyId
        maxAttempts := settings.maxAttempts
        nextRetryAt := now } rfl rfl items
    obtain ⟨back, hback, hbackNew⟩ := ih (items ++ front)
    rw [hfront, hback, List.append_assoc]
    refine ⟨front ++ back, rfl, fun row hrow => ?_⟩
    rcases List.mem_append.mp hrow with hrow | hrow
    · exact hfrontNew row hrow
    · exact hbackNew row hrow

theorem itemsSettled_enqueue (h : s.ItemsSettled) (historyId userId profileId now : ℕ) :
    (s.enqueueHistorySignal settings historyId userId profileId now).ItemsSettled := by
  obtain ⟨news, heq, hnews⟩ := enqueueHistorySignal_eq settings s historyId userId profileId now
  rw [heq]
  refine ⟨fun row hrow => ?_, fun w run hrun => (h.batches w run hrun).frame ?_⟩
  · rcases List.mem_append.mp hrow with hrow | hrow
    · exact h.settled row hrow
    · exact (hnews row hrow).settled
  · intro i row _ hrow _
    obtain ⟨hlt, _⟩ := List.getElem?_eq_some_iff.mp hrow
    exact ⟨row, (List.getElem?_append_left hlt).trans hrow, rfl, rfl⟩

/-! ### Polling -/

theorem due_of_mem_dueBatch {w now i : ℕ} (hi : i ∈ s.dueBatch settings w now) :
    s.due w now i = true := by
  have hmem := List.mem_of_mem_take hi
  rw [List.mem_insertionSort] at hmem
  exact (List.mem_filter.mp hmem).2

theorem nodup_dueBatch (settings : QueueSettings) (s : SignalQueue) (w now : ℕ) :
    (s.dueBatch settings w now).Nodup := by
  have hfilter : ((List.range s.items.length).filter (s.due w now)).Nodup :=
    List.nodup_range.filter _
  exact ((List.perm_insertionSort _ _).nodup_iff.mpr hfilter).sublist (List.take_sublist _ _)

theorem free_of_mem_dueBatch {w : ℕ} {run : WorkerRun} (hrun : s.runs w = some run)
    (huntaken : s.pollsUntaken settings (.poll w) = true) {i : ℕ}
    (hi : i ∈ s.dueBatch settings w run.now) :
    ∃ row, s.items[i]? = some row ∧ row.owner = none ∧ row.committed.status = .pending := by
  have hdue := due_of_mem_dueBatch hi
  rw [due] at hdue
  cases hrow : s.items[i]? with
  | none =>
    rw [hrow] at hdue
    cases hdue
  | some row =>
    rw [pollsUntaken, hrun] at huntaken
    have howner := List.all_eq_true.mp huntaken i hi
    rw [hrow] at hdue howner
    obtain ⟨hfree, hstatus, _⟩ := of_decide_eq_true hdue
    have hother : row.owner ≠ some w := of_decide_eq_true howner
    refine ⟨row, rfl, hfree.resolve_right hother, ?_⟩
    rw [← LockedRow.view_of_owner_ne hother]
    exact hstatus

theorem runs_pollBatch (w : ℕ) (run : WorkerRun) :
    (s.pollBatch settings w run).runs = Function.update s.runs w
      (some { run with
        batch := s.dueBatch settings w run.now
        more := s.dueBatch settings w run.now ≠ [] ∧
          settings.statusBatchSize ≤ (s.dueBatch settings w run.now).length }) := rfl

theorem itemsSettled_pollBatch (h : s.ItemsSettled) {w : ℕ} {run : WorkerRun}
    (hrun : s.runs w = some run) (huntaken : s.pollsUntaken settings (.poll w) = true) :
    (s.pollBatch settings w run).ItemsSettled := by
  have hitems : ∀ i, (s.pollBatch settings w run).items[i]? =
      (s.items[i]?).map fun row =>
        if i ∈ s.dueBatch settings w run.now then row.lock w else row := fun i =>
    List.getElem?_mapIdx
  refine ⟨fun row hrow => ?_, fun v run' hrun' => ?_⟩
  · obtain ⟨i, hi⟩ := List.getElem?_of_mem hrow
    rw [hitems, Option.map_eq_some_iff] at hi
    obtain ⟨old, hold, rfl⟩ := hi
    have hsettled := h.settled old (List.mem_of_getElem? hold)
    split
    · exact hsettled.lock w
    · exact hsettled
  · by_cases hv : v = w
    · -- the run holds its new batch
      rw [hv] at hrun' ⊢
      have hbatch : run'.batch = s.dueBatch settings w run.now := by
        rw [runs_pollBatch, Function.update_self] at hrun'
        rw [← Option.some.inj hrun']
      constructor
      · rw [hbatch]
        exact nodup_dueBatch settings s w run.now
      · intro i hi
        rw [hbatch] at hi
        obtain ⟨row, hrow, howner, hpending⟩ := free_of_mem_dueBatch hrun huntaken hi
        refine ⟨row.lock w, ?_, row.owner_lock w, ?_⟩
        · rw [hitems, hrow, Option.map_some, if_pos hi]
        · rw [LockedRow.object_lock, LockedRow.seen, howner]
          exact hpending
    · rw [runs_pollBatch, Function.update_of_ne hv] at hrun'
      refine (h.batches v run' hrun').frame fun i row _ hrow howner => ?_
      refine ⟨row, ?_, rfl, rfl⟩
      rw [hitems, hrow, Option.map_some, if_neg]
      intro hi
      obtain ⟨row', hrow', hfree, _⟩ := free_of_mem_dueBatch hrun huntaken hi
      rw [hrow] at hrow'
      rw [← Option.some.inj hrow', howner] at hfree
      cases hfree

/-! ### Processing -/

section

variable {w i : ℕ} {run : WorkerRun} {rest : List ℕ} {row : LockedRow ℕ QueueItem}

theorem runs_processNext (answers : SignalAnswers) :
    (s.processNext settings w run i rest row answers).runs =
      Function.update s.runs w (some { run with batch := rest, attempted := true }) := rfl

theorem signals_processNext (answers : SignalAnswers) (configId : ℕ) :
    (s.processNext settings w run i rest row answers).signals configId =
      if s.locksConfig w (row.object.beginAttempt run.now) answers = true ∧
          configId = (row.object.beginAttempt run.now).configId then
        ((s.signals configId).lock w).write fun _ =>
          (s.attemptItem w run.now (row.object.beginAttempt run.now) answers).state
      else s.signals configId := by
  rw [processNext]
  generalize row.object.beginAttempt run.now = begun
  by_cases hlocks : s.locksConfig w begun answers = true
  · simp only [hlocks, if_true, true_and]
    by_cases hid : configId = begun.configId
    · rw [hid, Function.update_self, if_pos rfl]
    · rw [Function.update_of_ne hid, if_neg hid]
  · simp only [hlocks]
    rfl

variable {answers : SignalAnswers}

theorem freeFor_of_locksConfig {item : QueueItem} (hlocks : s.locksConfig w item answers = true) :
    (s.signals item.configId).FreeFor w := by
  rw [locksConfig, busy] at hlocks
  by_contra hfree
  simp [hfree] at hlocks

theorem getElem?_finishedItems_self {begun finished : QueueItem} {flushed : Bool}
    {items : List (LockedRow ℕ QueueItem)} (hrow : items[i]? = some row) :
    ∃ row', (finishedItems w i begun finished flushed items)[i]? = some row' ∧
      row'.owner = row.owner ∧ row'.committed = row.committed ∧ row'.object = finished := by
  rw [finishedItems, List.getElem?_mapIdx, hrow]
  simp only [if_true]
  refine ⟨_, rfl, ?_, ?_, rfl⟩
  · cases flushed <;> simp
  · cases flushed <;> simp

theorem getElem?_finishedItems_ne {begun finished : QueueItem} {flushed : Bool}
    {items : List (LockedRow ℕ QueueItem)} {j : ℕ} (hj : j ≠ i)
    (hrow : items[j]? = some row) :
    ∃ row', (finishedItems w i begun finished flushed items)[j]? = some row' ∧
      row'.owner = row.owner ∧ row'.committed = row.committed ∧ row'.object = row.object := by
  rw [finishedItems, List.getElem?_mapIdx, hrow]
  simp only [if_neg hj]
  refine ⟨_, rfl, ?_, ?_, ?_⟩
  · cases flushed <;> simp
  · cases flushed <;> simp
  · cases flushed <;> simp

theorem ItemsSettled.lt_maxAttempts (h : s.ItemsSettled) (hwork : s.AtWork w run i rest row) :
    row.object.attempt < row.object.maxAttempts := by
  have hi : i ∈ run.batch := by
    rw [hwork.batch]
    exact List.mem_cons_self
  obtain ⟨row', hrow', _, hpending⟩ := (h.batches w run hwork.running).held i hi
  rw [hwork.item] at hrow'
  rw [← Option.some.inj hrow'] at hpending
  exact (h.settled row (List.mem_of_getElem? hwork.item)).2.lt_of_pending hpending

theorem itemsSettled_processNext (h : s.ItemsSettled) (hwork : s.AtWork w run i rest row)
    (answers : SignalAnswers) :
    (s.processNext settings w run i rest row answers).ItemsSettled := by
  have hlt := h.lt_maxAttempts hwork
  have hbatch := h.batches w run hwork.running
  have hnodup := hbatch.nodup
  rw [hwork.batch, List.nodup_cons] at hnodup
  refine ⟨fun new hnew => ?_, fun v run' hrun' => ?_⟩
  · obtain ⟨j, hj⟩ := List.getElem?_of_mem hnew
    obtain ⟨old, hold⟩ : ∃ old, s.items[j]? = some old := by
      rw [processNext, finishedItems, List.getElem?_mapIdx, Option.map_eq_some_iff] at hj
      obtain ⟨old, hold, _⟩ := hj
      exact ⟨old, hold⟩
    have hsettled := h.settled old (List.mem_of_getElem? hold)
    by_cases hji : j = i
    · subst hji
      obtain ⟨row', hrow', _, hcommitted, hobject⟩ := getElem?_finishedItems_self hold
      obtain rfl := Option.some.inj (hj.symm.trans hrow')
      refine ⟨hcommitted ▸ hsettled.1, ?_⟩
      rw [hobject]
      have hle : (row.object.beginAttempt run.now).attempt ≤
          (row.object.beginAttempt run.now).maxAttempts := hlt
      exact settled_finishedItem s w run.now hle answers
    · obtain ⟨row', hrow', _, hcommitted, hobject⟩ := getElem?_finishedItems_ne hji hold
      obtain rfl := Option.some.inj (hj.symm.trans hrow')
      exact ⟨hcommitted ▸ hsettled.1, hobject ▸ hsettled.2⟩
  · by_cases hv : v = w
    · -- the item is not in the rest of its batch
      rw [hv, runs_processNext, Function.update_self] at hrun'
      rw [hv, ← Option.some.inj hrun']
      refine ⟨hnodup.2, fun j hj => ?_⟩
      obtain ⟨old, hold, howner, hpending⟩ := hbatch.held j (by
        rw [hwork.batch]
        exact List.mem_cons_of_mem _ hj)
      have hji : j ≠ i := fun heq => hnodup.1 (heq ▸ hj)
      obtain ⟨row', hrow', howner', _, hobject⟩ := getElem?_finishedItems_ne hji hold
      exact ⟨row', hrow', howner'.trans howner, hobject ▸ hpending⟩
    · rw [runs_processNext, Function.update_of_ne hv] at hrun'
      refine (h.batches v run' hrun').frame fun j old _ hold howner => ?_
      -- the item is locked by another run
      have hji : j ≠ i := by
        rintro rfl
        obtain ⟨row', hrow', howner', _⟩ := hbatch.held j (by
          rw [hwork.batch]
          exact List.mem_cons_self)
        rw [hold] at hrow'
        rw [← Option.some.inj hrow', howner] at howner'
        exact hv (Option.some.inj howner')
      obtain ⟨row', hrow', howner', _, hobject⟩ := getElem?_finishedItems_ne hji hold
      exact ⟨row', hrow', howner', hobject⟩

/-! ### The end of a run -/

theorem runs_endRun (items : LockedRow ℕ QueueItem → LockedRow ℕ QueueItem)
    (signals : LockedRow ℕ (Option SignalState) → LockedRow ℕ (Option SignalState)) :
    (s.endRun w items signals).runs = Function.update s.runs w none := rfl

theorem itemsSettled_endRun (h : s.ItemsSettled)
    {items : LockedRow ℕ QueueItem → LockedRow ℕ QueueItem}
    {signals : LockedRow ℕ (Option SignalState) → LockedRow ℕ (Option SignalState)}
    (hsettled : ∀ row, row.Both QueueItem.Settled → (items row).Both QueueItem.Settled)
    (hothers : ∀ row : LockedRow ℕ QueueItem, row.owner ≠ some w → items row = row) :
    (s.endRun w items signals).ItemsSettled := by
  refine ⟨fun row hrow => ?_, fun v run hrun => ?_⟩
  · obtain ⟨old, hold, rfl⟩ := List.mem_map.mp hrow
    exact hsettled old (h.settled old hold)
  · have hv : v ≠ w := by
      rintro rfl
      rw [runs_endRun, Function.update_self] at hrun
      cases hrun
    rw [runs_endRun, Function.update_of_ne hv] at hrun
    refine (h.batches v run hrun).frame fun i row _ hrow howner => ⟨row, ?_, rfl, rfl⟩
    rw [endRun, List.getElem?_map, hrow, Option.map_some, hothers row]
    rw [howner]
    exact fun heq => hv (Option.some.inj heq)

/-- **The attempts.**  A step whose poll finds no item that its transaction has taken leaves every
item settled. -/
theorem itemsSettled_step (h : s.ItemsSettled) {e : QueueEvent}
    (huntaken : s.pollsUntaken settings e = true)
    (hs : s.step settings e = some s') : s'.ItemsSettled := by
  cases e with
  | enqueue historyId userId profileId now =>
    exact Option.some.inj hs ▸ itemsSettled_enqueue h historyId userId profileId now
  | configure configs => exact Option.some.inj hs ▸ ⟨h.settled, fun w run hrun =>
      (h.batches w run hrun).frame fun i row _ hrow _ => ⟨row, hrow, rfl, rfl⟩⟩
  | begin w now =>
    obtain ⟨-, rfl⟩ := step_begin hs
    refine ⟨h.settled, fun v run hrun => ?_⟩
    by_cases hv : v = w
    · rw [hv] at hrun ⊢
      change Function.update s.runs w (some { now }) w = some run at hrun
      rw [Function.update_self] at hrun
      rw [← Option.some.inj hrun]
      exact ⟨List.nodup_nil, fun _ hi => absurd hi List.not_mem_nil⟩
    · change Function.update s.runs w (some { now }) v = some run at hrun
      rw [Function.update_of_ne hv] at hrun
      exact (h.batches v run hrun).frame fun i row _ hrow _ => ⟨row, hrow, rfl, rfl⟩
  | poll w =>
    obtain ⟨run, hrun, _, rfl⟩ := step_poll hs
    exact itemsSettled_pollBatch h hrun huntaken
  | process w answers =>
    obtain ⟨run, i, rest, row, hwork, rfl⟩ := step_process hs
    exact itemsSettled_processNext h hwork answers
  | commit w =>
    rw [step_commit hs]
    exact itemsSettled_endRun h (fun row hrow => hrow.commit w) fun row howner =>
      LockedRow.commit_of_owner_ne howner
  | rollback w =>
    obtain ⟨_, -, rfl⟩ := step_rollback hs
    exact itemsSettled_endRun h (fun row hrow => hrow.rollback w) fun row howner =>
      LockedRow.rollback_of_owner_ne howner

/-! ## What a rollback takes back -/

/-- The step does not roll a transaction back behind an attempt. -/
def keepsAttempts (s : SignalQueue) : QueueEvent → Bool
  | .rollback w => (s.runs w).all fun run => !run.attempted
  | _ => true

/-- Only a transaction that has made an attempt has changed the row. -/
def Backed {α : Type} (s : SignalQueue) (row : LockedRow ℕ α) : Prop :=
  row.object = row.committed ∨
    ∃ w run, row.owner = some w ∧ s.runs w = some run ∧ run.attempted = true

section Backed

variable {α : Type} {w : ℕ} {row : LockedRow ℕ α}

theorem Backed.of_runs (h : s.Backed row)
    (hruns : ∀ v run, row.owner = some v → s.runs v = some run → run.attempted = true →
      ∃ run', s'.runs v = some run' ∧ run'.attempted = true) : s'.Backed row := by
  rcases h with hsame | ⟨v, run, howner, hrun, hattempted⟩
  · exact .inl hsame
  · obtain ⟨run', hrun', hattempted'⟩ := hruns v run howner hrun hattempted
    exact .inr ⟨v, run', howner, hrun', hattempted'⟩

theorem Backed.seen_eq (h : s.Backed row) (hfree : row.FreeFor w) : row.seen w = row.object := by
  rcases hfree with hnone | hown
  · rcases h with hsame | ⟨v, _, howner, _⟩
    · rw [LockedRow.seen, hnone, if_neg (Option.some_ne_none w).symm, hsame]
    · rw [hnone] at howner
      cases howner
  · exact LockedRow.seen_of_owner hown

theorem Backed.of_runs_none (h : s.Backed row) (hother : row.owner ≠ some w)
    (hruns : s'.runs = Function.update s.runs w none) : s'.Backed row := by
  refine h.of_runs fun v run howner hrun hattempted => ⟨run, ?_, hattempted⟩
  have hv : v ≠ w := by
    rintro rfl
    exact hother howner
  rw [hruns, Function.update_of_ne hv]
  exact hrun

theorem Backed.commit (h : s.Backed row) (hruns : s'.runs = Function.update s.runs w none) :
    (row.commit w).object = row.object ∧ s'.Backed (row.commit w) := by
  by_cases howner : row.owner = some w
  · rw [LockedRow.commit_of_owner howner]
    exact ⟨rfl, .inl rfl⟩
  · rw [LockedRow.commit_of_owner_ne howner]
    exact ⟨rfl, h.of_runs_none howner hruns⟩

theorem Backed.rollback (h : s.Backed row) {run : WorkerRun} (hrun : s.runs w = some run)
    (hattempted : run.attempted = false) (hruns : s'.runs = Function.update s.runs w none) :
    (row.rollback w).object = row.object ∧ s'.Backed (row.rollback w) := by
  by_cases howner : row.owner = some w
  · rw [LockedRow.rollback_of_owner howner]
    refine ⟨?_, .inl rfl⟩
    rcases h with hsame | ⟨v, run', howner', hrun', hattempted'⟩
    · exact hsame.symm
    · obtain rfl := Option.some.inj (howner.symm.trans howner')
      rw [← Option.some.inj (hrun.symm.trans hrun'), hattempted] at hattempted'
      cases hattempted'
  · rw [LockedRow.rollback_of_owner_ne howner]
    exact ⟨rfl, h.of_runs_none howner hruns⟩

end Backed

/-- The attempts that an item has counted. -/
def countOf (s : SignalQueue) (i : ℕ) : ℕ :=
  ((s.items[i]?).map fun row => row.object.attempt).getD 0

/-- Every item is settled and has counted its attempts, the histories that were acted on are in
order, and only a transaction that has made an attempt has changed a row. -/
structure Sound (s : SignalQueue) : Prop where
  items : s.ItemsSettled
  counted : ∀ i, s.attempts i = s.countOf i
  ordered : ∀ configId, Ordered (s.acted configId) (s.signals configId).object
  backedItems : ∀ row ∈ s.items, s.Backed row
  backedSignals : ∀ configId, s.Backed (s.signals configId)

theorem sound_start (configs : List AutoTradeConfig) : Sound (start configs) where
  items := itemsSettled_start configs
  counted _ := rfl
  ordered _ := ⟨List.Pairwise.nil, fun _ hmem => absurd hmem List.not_mem_nil⟩
  backedItems _ hrow := absurd hrow List.not_mem_nil
  backedSignals _ := .inl rfl

namespace Sound

variable {w i : ℕ} {run : WorkerRun} {rest : List ℕ} {row : LockedRow ℕ QueueItem}

theorem enqueue (h : s.Sound) (historyId userId profileId now : ℕ) :
    (s.enqueueHistorySignal settings historyId userId profileId now).Sound := by
  have hitems := @itemsSettled_enqueue settings s h.items historyId userId profileId now
  obtain ⟨news, heq, hnews⟩ := enqueueHistorySignal_eq settings s historyId userId profileId now
  rw [heq] at hitems ⊢
  refine ⟨hitems, fun i => ?_, h.ordered, fun row hrow => ?_, h.backedSignals⟩
  · refine (h.counted i).trans ?_
    rw [countOf, countOf, List.getElem?_append]
    split
    case isTrue => rfl
    case isFalse hlt =>
      rw [List.getElem?_eq_none (not_lt.mp hlt)]
      cases hnew : news[i - s.items.length]? with
      | none => rfl
      | some new => exact (hnews new (List.mem_of_getElem? hnew)).untried.symm
  · rcases List.mem_append.mp hrow with hold | hnew
    · exact h.backedItems row hold
    · exact .inl (hnews row hnew).unchanged

theorem begin (h : s.Sound) {now : ℕ} (hrun : s.runs w = none)
    (hitems : ItemsSettled { s with runs := Function.update s.runs w (some { now }) }) :
    Sound { s with runs := Function.update s.runs w (some { now }) } := by
  have hruns : ∀ v run, s.runs v = some run →
      Function.update s.runs w (some { now }) v = some run := by
    intro v run hsome
    rw [Function.update_of_ne]
    · exact hsome
    · rintro rfl
      rw [hrun] at hsome
      cases hsome
  refine ⟨hitems, h.counted, h.ordered, fun row hrow => ?_, fun configId => ?_⟩
  · exact (h.backedItems row hrow).of_runs fun v run _ hsome hattempted =>
      ⟨run, hruns v run hsome, hattempted⟩
  · exact (h.backedSignals configId).of_runs fun v run _ hsome hattempted =>
      ⟨run, hruns v run hsome, hattempted⟩

theorem poll (h : s.Sound) (hrun : s.runs w = some run)
    (huntaken : s.pollsUntaken settings (.poll w) = true) :
    (s.pollBatch settings w run).Sound := by
  have hruns : ∀ v old, s.runs v = some old → old.attempted = true →
      ∃ new, (s.pollBatch settings w run).runs v = some new ∧ new.attempted = true := by
    intro v old hold hattempted
    by_cases hv : v = w
    · rw [hv] at hold ⊢
      rw [← Option.some.inj (hrun.symm.trans hold)] at hattempted
      exact ⟨_, Function.update_self .., hattempted⟩
    · exact ⟨old, (Function.update_of_ne hv ..).trans hold, hattempted⟩
  have hitems : ∀ i, (s.pollBatch settings w run).items[i]? =
      (s.items[i]?).map fun row =>
        if i ∈ s.dueBatch settings w run.now then row.lock w else row := fun i =>
    List.getElem?_mapIdx
  -- nobody has changed an item of the batch
  have hfree : ∀ i row, i ∈ s.dueBatch settings w run.now → s.items[i]? = some row →
      (row.lock w).object = row.object ∧ row.object = row.committed := by
    intro i row hi hrow
    obtain ⟨row', hrow', hnone, -⟩ := free_of_mem_dueBatch hrun huntaken hi
    obtain rfl := Option.some.inj (hrow.symm.trans hrow')
    have hbacked := h.backedItems row (List.mem_of_getElem? hrow)
    refine ⟨?_, ?_⟩
    · rw [LockedRow.object_lock]
      exact hbacked.seen_eq (.inl hnone)
    · rcases hbacked with hsame | ⟨v, _, howner, _⟩
      · exact hsame
      · rw [hnone] at howner
        cases howner
  refine ⟨itemsSettled_pollBatch h.items hrun huntaken, fun i => ?_, h.ordered,
    fun row hrow => ?_, fun configId =>
      (h.backedSignals configId).of_runs fun v old _ hold hattempted => hruns v old hold hattempted⟩
  · refine (h.counted i).trans ?_
    rw [countOf, countOf, hitems]
    cases hrow : s.items[i]? with
    | none => rfl
    | some row =>
      simp only [Option.map_some]
      split
      case isTrue hi => rw [(hfree i row hi hrow).1]
      case isFalse => rfl
  · obtain ⟨i, hi⟩ := List.getElem?_of_mem hrow
    rw [hitems, Option.map_eq_some_iff] at hi
    obtain ⟨old, hold, rfl⟩ := hi
    split
    case isTrue hmem =>
      obtain ⟨hobject, hsame⟩ := hfree i old hmem hold
      refine .inl ?_
      rw [hobject, LockedRow.committed_lock]
      exact hsame
    case isFalse =>
      exact (h.backedItems old (List.mem_of_getElem? hold)).of_runs
        fun v old _ hold hattempted => hruns v old hold hattempted

theorem countOf_processNext (hwork : s.AtWork w run i rest row) (answers : SignalAnswers) (j : ℕ) :
    (s.processNext settings w run i rest row answers).countOf j =
      if j = i then s.countOf i + 1 else s.countOf j := by
  have hitems : (s.processNext settings w run i rest row answers).items = finishedItems w i
      (row.object.beginAttempt run.now)
      (finishedItem settings (row.object.beginAttempt run.now) run.now
        (s.attemptItem w run.now (row.object.beginAttempt run.now) answers))
      (s.attemptItem w run.now (row.object.beginAttempt run.now) answers).flushed s.items := rfl
  rw [countOf, hitems]
  split
  case isTrue hj =>
    obtain ⟨row', hrow', -, -, hobject⟩ := getElem?_finishedItems_self hwork.item
    rw [hj, hrow', countOf, hwork.item, Option.map_some, Option.map_some, Option.getD_some,
      hobject, attempt_finishedItem]
    rfl
  case isFalse hj =>
    cases hold : s.items[j]? with
    | none =>
      rw [countOf, finishedItems, List.getElem?_mapIdx, hold]
      rfl
    | some old =>
      obtain ⟨row', hrow', -, -, hobject⟩ := getElem?_finishedItems_ne hj hold
      rw [countOf, hold, hrow', Option.map_some, Option.map_some, hobject]

theorem ordered_processNext (h : s.Sound) (answers : SignalAnswers) (configId : ℕ) :
    Ordered ((s.processNext settings w run i rest row answers).acted configId)
      ((s.processNext settings w run i rest row answers).signals configId).object := by
  have hacted : (s.processNext settings w run i rest row answers).acted =
      Function.update s.acted (row.object.beginAttempt run.now).configId
        (actedBehind (row.object.beginAttempt run.now).historyId
          (s.attemptItem w run.now (row.object.beginAttempt run.now) answers)
          (s.acted (row.object.beginAttempt run.now).configId)) := rfl
  rw [hacted, signals_processNext]
  generalize row.object.beginAttempt run.now = begun
  by_cases hid : configId = begun.configId
  · subst hid
    rw [Function.update_self]
    rcases attemptItem_cases s w run.now begun answers with ⟨hunlocked, herror⟩ | ⟨hfree, hcases⟩
    · rw [hunlocked, actedBehind, herror]
      exact h.ordered _
    · by_cases hlocks : s.locksConfig w begun answers = true
      · rw [if_pos ⟨hlocks, rfl⟩]
        rw [(h.backedSignals begun.configId).seen_eq (freeFor_of_locksConfig hlocks)] at hcases
        exact (h.ordered begun.configId).attempt hcases
      · -- without a configuration the item is passed
        rw [if_neg fun hlocked => hlocks hlocked.1]
        cases hcases with
        | @passed outcome houtcome hresult _ _ =>
          rw [actedBehind, hresult]
          cases outcome with
          | completed => exact absurd rfl houtcome
          | skipped => exact h.ordered _
          | dead => exact h.ordered _
        | traded hconfig _ _ =>
          have hsome : (s.configOf begun).isSome = true := by
            rw [hconfig]
            rfl
          rw [locksConfig, hsome, hfree hsome] at hlocks
          exact absurd rfl hlocks
  · rw [Function.update_of_ne hid, if_neg fun hlocked => hid hlocked.2]
    exact h.ordered configId

theorem processNext (h : s.Sound) (hwork : s.AtWork w run i rest row) (answers : SignalAnswers) :
    (s.processNext settings w run i rest row answers).Sound := by
  have hruns : ∀ v old, s.runs v = some old → old.attempted = true →
      ∃ new, (s.processNext settings w run i rest row answers).runs v = some new ∧
        new.attempted = true := by
    intro v old hold hattempted
    by_cases hv : v = w
    · rw [hv]
      exact ⟨_, Function.update_self .., rfl⟩
    · exact ⟨old, (Function.update_of_ne hv ..).trans hold, hattempted⟩
  have hown : ∃ new, (s.processNext settings w run i rest row answers).runs w = some new ∧
      new.attempted = true :=
    ⟨_, Function.update_self .., rfl⟩
  refine ⟨itemsSettled_processNext h.items hwork answers, fun j => ?_,
    h.ordered_processNext answers, fun new hnew => ?_, fun configId => ?_⟩
  · rw [countOf_processNext hwork]
    change Function.update s.attempts i (s.attempts i + 1) j = _
    split
    case isTrue hj => rw [hj, Function.update_self, h.counted]
    case isFalse hj => rw [Function.update_of_ne hj, h.counted]
  · obtain ⟨j, hj⟩ := List.getElem?_of_mem hnew
    obtain ⟨old, hold⟩ : ∃ old, s.items[j]? = some old := by
      rw [SignalQueue.processNext, finishedItems, List.getElem?_mapIdx,
        Option.map_eq_some_iff] at hj
      obtain ⟨old, hold, _⟩ := hj
      exact ⟨old, hold⟩
    by_cases hji : j = i
    · -- the item at work is under the lock of its run
      subst hji
      have hmem : j ∈ run.batch := hwork.batch ▸ List.mem_cons_self
      obtain ⟨held, hheld, howner, -⟩ := (h.items.batches w run hwork.running).held j hmem
      obtain rfl := Option.some.inj (hold.symm.trans hheld)
      obtain ⟨row', hrow', howner', -, -⟩ := getElem?_finishedItems_self hold
      obtain rfl := Option.some.inj (hj.symm.trans hrow')
      obtain ⟨next, hnext, hattempted⟩ := hown
      exact .inr ⟨w, next, howner'.trans howner, hnext, hattempted⟩
    · obtain ⟨row', hrow', howner', hcommitted, hobject⟩ := getElem?_finishedItems_ne hji hold
      obtain rfl := Option.some.inj (hj.symm.trans hrow')
      rcases h.backedItems old (List.mem_of_getElem? hold) with hsame | ⟨v, run', howner, hrun', h'⟩
      · exact .inl (hobject.trans (hsame.trans hcommitted.symm))
      · obtain ⟨next, hnext, hattempted⟩ := hruns v run' hrun' h'
        exact .inr ⟨v, next, howner'.trans howner, hnext, hattempted⟩
  · rw [signals_processNext]
    split
    case isTrue =>
      obtain ⟨next, hnext, hattempted⟩ := hown
      exact .inr ⟨w, next, by simp, hnext, hattempted⟩
    case isFalse =>
      exact (h.backedSignals configId).of_runs fun v old _ hold hattempted =>
        hruns v old hold hattempted

theorem endRun (h : s.Sound) {items : LockedRow ℕ QueueItem → LockedRow ℕ QueueItem}
    {signals : LockedRow ℕ (Option SignalState) → LockedRow ℕ (Option SignalState)}
    (hsettled : (s.endRun w items signals).ItemsSettled)
    (hitems : ∀ row ∈ s.items, (items row).object = row.object ∧
      (s.endRun w items signals).Backed (items row))
    (hsignals : ∀ configId, (signals (s.signals configId)).object = (s.signals configId).object ∧
      (s.endRun w items signals).Backed (signals (s.signals configId))) :
    (s.endRun w items signals).Sound := by
  refine ⟨hsettled, fun i => ?_, fun configId => ?_, fun row hrow => ?_,
    fun configId => (hsignals configId).2⟩
  · refine (h.counted i).trans ?_
    rw [countOf, countOf, SignalQueue.endRun, List.getElem?_map]
    cases hrow : s.items[i]? with
    | none => rfl
    | some row =>
      simp only [Option.map_some, (hitems row (List.mem_of_getElem? hrow)).1]
  · change Ordered (s.acted configId) (signals (s.signals configId)).object
    rw [(hsignals configId).1]
    exact h.ordered configId
  · obtain ⟨old, hold, rfl⟩ := List.mem_map.mp hrow
    exact (hitems old hold).2

end Sound

/-- **One step** under the condition: the counts, the order and the changed rows stay sound. -/
theorem sound_step (h : s.Sound) {e : QueueEvent} (huntaken : s.pollsUntaken settings e = true)
    (hkeeps : s.keepsAttempts e = true) (hs : s.step settings e = some s') : s'.Sound := by
  have hitems := itemsSettled_step h.items huntaken hs
  cases e with
  | enqueue historyId userId profileId now =>
    exact Option.some.inj hs ▸ h.enqueue historyId userId profileId now
  | configure configs =>
    obtain rfl := Option.some.inj hs
    exact ⟨hitems, h.counted, h.ordered, h.backedItems, h.backedSignals⟩
  | begin w now =>
    obtain ⟨hrun, rfl⟩ := step_begin hs
    exact h.begin hrun hitems
  | poll w =>
    obtain ⟨run, hrun, _, rfl⟩ := step_poll hs
    exact h.poll hrun huntaken
  | process w answers =>
    obtain ⟨run, i, rest, row, hwork, rfl⟩ := step_process hs
    exact h.processNext hwork answers
  | commit w =>
    obtain rfl := step_commit hs
    exact h.endRun hitems (fun row hrow => (h.backedItems row hrow).commit rfl) fun configId =>
      (h.backedSignals configId).commit rfl
  | rollback w =>
    obtain ⟨run, hrun, rfl⟩ := step_rollback hs
    have hattempted : run.attempted = false := by
      rw [keepsAttempts, hrun] at hkeeps
      simpa using hkeeps
    exact h.endRun hitems (fun row hrow => (h.backedItems row hrow).rollback hrun hattempted rfl)
      fun configId => (h.backedSignals configId).rollback hrun hattempted rfl

/-! ## Failed attempts -/

def attemptOf (s : SignalQueue) : QueueEvent → Option ItemAttempt
  | .process w answers =>
      (s.runs w).bind fun run =>
        run.batch.head?.bind fun i =>
          (s.items[i]?).map fun row =>
            s.attemptItem w run.now (row.object.beginAttempt run.now) answers
  | _ => none

def fails (s : SignalQueue) (e : QueueEvent) : Bool :=
  (s.attemptOf e).any fun attempt =>
    match attempt.result with
    | .error _ => true
    | .ok _ => false

/-- Everybody finds the signal states as they were. -/
def KeepsSignals (s s' : SignalQueue) : Prop :=
  ∀ v configId, ((s'.signals configId).seen v).getD {} = ((s.signals configId).seen v).getD {}

/-- The worker is about to count a signal against an open position, and the count asks for a close
that fails. -/
structure StrandsAt (s : SignalQueue) (w : ℕ) (answers : SignalAnswers) (begun : QueueItem)
    (config : AutoTradeConfig) (signal : TradeSignal) (executionSymbol : String) : Prop where
  found : s.configOf begun = some config
  unlocked : s.busy w begun answers = false
  reaches : ReachesTrading config (((s.signals begun.configId).seen w).getD {}) begun answers signal
    executionSymbol
  strands : StrandsCount config (((s.signals begun.configId).seen w).getD {}) begun signal
    executionSymbol answers

/-- `StrandsAt`, of the item that the worker is at. -/
def Strands (s : SignalQueue) (w : ℕ) (answers : SignalAnswers) : Prop :=
  ∃ run i rest row config signal executionSymbol, s.AtWork w run i rest row ∧
    s.StrandsAt w answers (row.object.beginAttempt run.now) config signal executionSymbol

theorem AtWork.attemptOf_eq (hwork : s.AtWork w run i rest row) (answers : SignalAnswers) :
    s.attemptOf (.process w answers) =
      some (s.attemptItem w run.now (row.object.beginAttempt run.now) answers) := by
  rw [attemptOf, hwork.running, Option.bind_some, hwork.batch, List.head?_cons, Option.bind_some,
    hwork.item, Option.map_some]

theorem AtWork.error_of_fails (hwork : s.AtWork w run i rest row)
    (hfails : s.fails (.process w answers) = true) :
    ∃ error, (s.attemptItem w run.now (row.object.beginAttempt run.now) answers).result =
      .error error := by
  rw [fails, hwork.attemptOf_eq] at hfails
  change (match (s.attemptItem w run.now (row.object.beginAttempt run.now) answers).result with
    | .error _ => true
    | .ok _ => false) = true at hfails
  cases hresult : (s.attemptItem w run.now (row.object.beginAttempt run.now) answers).result with
  | error error => exact ⟨error, rfl⟩
  | ok outcome =>
    rw [hresult] at hfails
    cases hfails

theorem AtWork.unique {run' : WorkerRun} {i' : ℕ} {rest' : List ℕ}
    {row' : LockedRow ℕ QueueItem} (h : s.AtWork w run i rest row)
    (h' : s.AtWork w run' i' rest' row') : run' = run ∧ row' = row := by
  obtain rfl := Option.some.inj (h'.running.symm.trans h.running)
  have hbatch := h'.batch.symm.trans h.batch
  rw [List.cons.injEq] at hbatch
  refine ⟨rfl, ?_⟩
  have hitem := h'.item
  rw [hbatch.1, h.item] at hitem
  exact (Option.some.inj hitem).symm

theorem keepsSignals_processNext
    (hstate : s.locksConfig w (row.object.beginAttempt run.now) answers = true →
      (s.attemptItem w run.now (row.object.beginAttempt run.now) answers).state.getD {} =
        ((s.signals (row.object.beginAttempt run.now).configId).seen w).getD {}) :
    KeepsSignals s (s.processNext settings w run i rest row answers) := by
  intro v configId
  rw [signals_processNext]
  split_ifs with h
  · obtain ⟨hlocks, rfl⟩ := h
    by_cases hv : v = w
    · rw [hv, LockedRow.seen_write_lock]
      exact hstate hlocks
    · rw [LockedRow.seen_write_lock_of_ne hv _ (freeFor_of_locksConfig hlocks)]
  · rfl

/-- **Where a failed attempt leaves the signal state.**  A failed attempt leaves every signal state
as it was, if and only if it does not count a signal for a close that fails. -/
theorem failed_keepsSignals_iff (hwork : s.AtWork w run i rest row)
    (hfails : s.fails (.process w answers) = true) :
    KeepsSignals s (s.processNext settings w run i rest row answers) ↔ ¬ s.Strands w answers := by
  obtain ⟨error, herror⟩ := hwork.error_of_fails hfails
  -- whoever strands a count is at this item, with the signal that the attempt reads
  have hstrands : s.Strands w answers → ∃ config signal executionSymbol,
      s.StrandsAt w answers (row.object.beginAttempt run.now) config signal executionSymbol := by
    rintro ⟨run', i', rest', row', config, signal, executionSymbol, hwork', hat⟩
    obtain ⟨rfl, rfl⟩ := hwork.unique hwork'
    exact ⟨config, signal, executionSymbol, hat⟩
  rcases attemptItem_cases s w run.now (row.object.beginAttempt run.now) answers with
    ⟨hunlocked, _⟩ | ⟨hfree, hcases⟩
  · refine iff_of_true (keepsSignals_processNext fun hlocks => ?_) fun h => ?_
    · rw [hlocks] at hunlocked
      cases hunlocked
    · obtain ⟨config, _, _, hat⟩ := hstrands h
      rw [locksConfig, hat.found, hat.unlocked] at hunlocked
      cases hunlocked
  · cases hcases with
    | passed _ hresult _ _ =>
      rw [herror] at hresult
      cases hresult
    | traded hconfig hreaches htrade =>
      cases htrade with
      | completed hresult _ _ _ =>
        rw [herror] at hresult
        cases hresult
      | failed hstays _ _ hstate =>
        refine iff_of_true (keepsSignals_processNext fun _ => ?_) fun h => ?_
        · rw [hstate]
          rfl
        · obtain ⟨config, signal, executionSymbol, hat⟩ := hstrands h
          obtain rfl := Option.some.inj (hat.found.symm.trans hconfig)
          obtain ⟨rfl, rfl⟩ := hreaches.unique hat.reaches
          exact hstays hat.strands
      | stranded hstranded _ _ hstate =>
        have hbusy := hfree (by rw [hconfig]; rfl)
        refine iff_of_false (fun hkeeps => ?_) (not_not.mpr ?_)
        · have hlocks : s.locksConfig w (row.object.beginAttempt run.now) answers = true := by
            rw [locksConfig, hconfig, hbusy]
            rfl
          have hseen := hkeeps w (row.object.beginAttempt run.now).configId
          rw [signals_processNext, if_pos ⟨hlocks, rfl⟩, LockedRow.seen_write_lock,
            hstate] at hseen
          exact SignalState.counted_ne _ hseen
        · exact ⟨run, i, rest, row, _, _, _, hwork, hconfig, hbusy, hreaches, hstranded⟩

end

/-! ## Whole runs -/

/-- The condition: no poll finds an item that its transaction has taken before, no transaction is
rolled back behind an attempt, and no attempt counts a signal for a close that fails. -/
structure Guarded (settings : QueueSettings) (s : SignalQueue) (e : QueueEvent) : Prop where
  untaken : s.pollsUntaken settings e = true
  kept : s.keepsAttempts e = true
  counts : ∀ w answers, e = .process w answers → ¬ s.Strands w answers

/-- Signals act exactly once and in order, in every state and in every step of the run. -/
structure ActsOnce (settings : QueueSettings) (s : SignalQueue) (events : List QueueEvent) :
    Prop where
  /-- the histories that the trading branch completes are increasing -/
  increasing : ∀ bs u, bs <+: events → run (step settings) s bs = some u →
    ∀ configId, (u.acted configId).Pairwise (· > ·)
  /-- an item counts no more attempts than it may have, and is done with behind the last -/
  settled : ∀ bs u, bs <+: events → run (step settings) s bs = some u →
    ∀ row ∈ u.items, row.Both QueueItem.Settled
  counted : ∀ bs u, bs <+: events → run (step settings) s bs = some u →
    ∀ (i : ℕ) (row : LockedRow ℕ QueueItem), u.items[i]? = some row →
      u.attempts i = row.object.attempt
  /-- a failed attempt leaves the signal states as they were -/
  kept : ∀ bs e u u', bs ++ [e] <+: events → run (step settings) s bs = some u →
    u.step settings e = some u' → u.fails e = true → u.KeepsSignals u'

/-- **Signals act once.**  In every run from empty tables in which no poll finds an item that its
transaction has taken before, no transaction is rolled back behind an attempt, and no attempt counts
a signal for a close that fails, the histories that the trading branch completes for a configuration
are increasing, an item has no more attempts than it may have and is done with behind the last, and
a failed attempt leaves the signal states as they were. -/
theorem signals_actOnce (settings : QueueSettings) (configs : List AutoTradeConfig)
    {events : List QueueEvent}
    (hguarded : AlongRun (step settings) (Guarded settings) (start configs) events) :
    ActsOnce settings (start configs) events := by
  have hsound : ∀ bs u, bs <+: events → run (step settings) (start configs) bs = some u →
      u.Sound := by
    refine forall_prefix_of_alongRun (step settings) (I := Sound) ?_ (sound_start configs) hguarded
    exact fun s e s' h hguard hs => sound_step h hguard.untaken hguard.kept hs
  constructor
  · exact fun bs u hprefix hrun configId => ((hsound bs u hprefix hrun).ordered configId).increasing
  · exact fun bs u hprefix hrun => (hsound bs u hprefix hrun).items.settled
  · intro bs u hprefix hrun i row hrow
    rw [(hsound bs u hprefix hrun).counted, countOf, hrow]
    rfl
  · intro bs e u u' hprefix hrun hs hfails
    have hguard := guarded_of_alongRun (step settings) hguarded bs e u hprefix hrun
    cases e with
    | process w answers =>
      obtain ⟨run, i, rest, row, hwork, rfl⟩ := step_process hs
      exact (failed_keepsSignals_iff hwork hfails).mpr (hguard.counts w answers rfl)
    | enqueue historyId userId profileId now => cases hfails
    | configure configs => cases hfails
    | begin w now => cases hfails
    | poll w => cases hfails
    | commit w => cases hfails
    | rollback w => cases hfails

/-! ## Four runs -/

/-- A running configuration that a single signal against the position closes. -/
def runningConfig : AutoTradeConfig where
  id := 1
  userId := 1
  profileId := 1
  enabled := true
  isRunning := true
  confirmReportsRequired := 1

/-- A signal in bitcoin, on an account that answers to everything. -/
def answersTo (trend : Trend) (fetch : FetchReply) (openRows : List OpenRow)
    (close : CloseReply CloseOrder) : SignalAnswers where
  history :=
    some
      { signal :=
          .ok { symbol := "BTC/USDT", trend, confidencePct := 70, priceCurrent := 60000 } }
  profileSymbol := some "BTC/USDT"
  fetch
  openRows
  close := { close, confirm := fun _ => .ok none }

/-- An exception of the exchange that is worth another try. -/
def timeout : ServiceError where
  message := "timeout"
  retryable := true

/-- The first of two histories fails, and is retried when the second has been acted on. -/
def overtakenRetry : List QueueEvent :=
  [.enqueue 7 1 1 0, .enqueue 8 1 1 0, .begin 0 0, .poll 0,
    .process 0 (answersTo .long (.error timeout) [] (.accepted 0 {})),
    .process 0 (answersTo .neutral (.ok none) [] (.accepted 0 {})), .commit 0,
    .begin 1 100, .poll 1, .process 1 (answersTo .long (.ok none) [] (.accepted 0 {})), .commit 1]

theorem not_strands_of_closes {s : SignalQueue} {w : ℕ} (hcloses : answers.close.Closes) :
    ¬ s.Strands w answers := by
  rintro ⟨_, _, _, _, _, _, _, _, hat⟩
  obtain ⟨_, _, _, _, hfails⟩ := hat.strands
  exact hfails.fails hcloses

theorem closes_answersTo (trend : Trend) (fetch : FetchReply) (openRows : List OpenRow)
    (filled : ℚ) (order : CloseOrder) :
    (answersTo trend fetch openRows (.accepted filled order)).close.Closes :=
  ⟨rfl, none, rfl⟩

theorem signals_actOnce_overtakenRetry :
    ((run (step {}) (start [runningConfig]) overtakenRetry).map fun s =>
        s.acted 1) = some [8] ∧
      ActsOnce {} (start [runningConfig]) overtakenRetry := by
  refine ⟨by decide +kernel, signals_actOnce {} [runningConfig] ?_⟩
  have hchecks : AlongRun (step {})
      (fun s e => s.pollsUntaken {} e = true ∧ s.keepsAttempts e = true) (start [runningConfig])
      overtakenRetry := by
    decide +kernel
  have hcounts : AlongRun (step {})
      (fun s e => ∀ w answers, e = .process w answers → ¬ s.Strands w answers)
      (start [runningConfig]) overtakenRetry := by
    have hlabels : ∀ e ∈ overtakenRetry, ∀ w answers, e = .process w answers →
        answers.close.Closes := by
      intro e he w answers heq
      subst heq
      simp only [overtakenRetry, List.mem_cons, reduceCtorEq, List.not_mem_nil, or_false,
        false_or] at he
      rcases he with ⟨_, rfl⟩ | ⟨_, rfl⟩ | ⟨_, rfl⟩
      · exact closes_answersTo ..
      · exact closes_answersTo ..
      · exact closes_answersTo ..
    refine AlongRun.mono (step {}) (fun s e h w answers heq => ?_)
      (alongRun_of_forall (step {}) hlabels)
    exact not_strands_of_closes (h w answers heq)
  exact (hchecks.and (step {}) hcounts).mono (step {}) fun s e h => ⟨h.1.1, h.1.2, h.2⟩

/-- An open position in bitcoin, and a signal against it whose close times out. -/
def strandedCount : SignalAnswers :=
  answersTo .short (.ok (some { symbol := "BTC/USDT:USDT", contracts := 1 })) [bitcoinRow]
    (.raised 0 timeout)

/-- A configuration that another session has locked. -/
def lockedOut : SignalAnswers :=
  { answersTo .long (.ok none) [] (.accepted 0 {}) with configBusy := true }

/-- An entry goes through and the transaction is rolled back: the next one enters again. -/
def enteredTwice : List QueueEvent :=
  let enter := answersTo .long (.ok none) [] (.accepted 0 {})
  [.enqueue 7 1 1 0, .begin 0 0, .poll 0, .process 0 enter, .rollback 0, .begin 1 60, .poll 1,
    .process 1 enter]

/-- A signal is counted and the close behind it times out: the count stays.  With batches of one
item, a run polls an item again that is dead already, and attempts it once more.  And a run that is
rolled back behind its attempt leaves the history to be acted on again. -/
theorem signals_notActedOnce :
    ¬ ActsOnce {} (start [runningConfig])
        [.enqueue 7 1 1 0, .begin 0 0, .poll 0, .process 0 strandedCount] ∧
      ¬ ActsOnce { statusBatchSize := 1, maxAttempts := 1 } (start [runningConfig])
        [.enqueue 7 1 1 0, .begin 0 0, .poll 0, .process 0 lockedOut, .poll 0,
          .process 0 lockedOut] ∧
      ¬ ActsOnce {} (start [runningConfig]) enteredTwice := by
  refine ⟨?_, ?_, ?_⟩
  · intro h
    have hfacts : ((run (step {}) (start [runningConfig])
        [.enqueue 7 1 1 0, .begin 0 0, .poll 0]).bind fun u =>
          (u.step {} (.process 0 strandedCount)).map fun u' =>
            (u.fails (.process 0 strandedCount),
              (((u.signals 1).seen 0).getD {}).oppositeStreak,
              (((u'.signals 1).seen 0).getD {}).oppositeStreak)) = some (true, 0, 1) := by
      decide +kernel
    obtain ⟨u, hu, hmap⟩ := Option.bind_eq_some_iff.mp hfacts
    obtain ⟨u', hu', heq⟩ := Option.map_eq_some_iff.mp hmap
    obtain ⟨hfails, hbefore, hafter⟩ : _ ∧ _ ∧ _ := by
      simpa only [Prod.mk.injEq] using heq
    have hkept := congrArg SignalState.oppositeStreak
      (h.kept _ _ u u' (List.prefix_refl _) hu hu' hfails 0 1)
    rw [hbefore, hafter] at hkept
    cases hkept
  · intro h
    have hfacts : ((run (step { statusBatchSize := 1, maxAttempts := 1 }) (start [runningConfig])
        [.enqueue 7 1 1 0, .begin 0 0, .poll 0, .process 0 lockedOut, .poll 0,
          .process 0 lockedOut]).map fun u =>
            decide (∀ row ∈ u.items, row.object.Settled)) = some false := by
      decide +kernel
    obtain ⟨u, hu, hunsettled⟩ := Option.map_eq_some_iff.mp hfacts
    exact of_decide_eq_false hunsettled fun row hrow =>
      (h.settled _ u (List.prefix_refl _) hu row hrow).2
  · intro h
    have hfacts : (run (step {}) (start [runningConfig]) enteredTwice).map
        (fun u => u.acted 1) = some [7, 7] := by
      decide +kernel
    obtain ⟨u, hu, hacted⟩ := Option.map_eq_some_iff.mp hfacts
    have hincreasing := h.increasing _ u (List.prefix_refl _) hu 1
    rw [hacted] at hincreasing
    exact lt_irrefl 7 (List.rel_of_pairwise_cons hincreasing (List.mem_singleton_self 7))

end SignalQueue

end AdviserConstructor
