import AdviserConstructor.Library.DecimalText
import AdviserConstructor.Library.Raising
import Mathlib.Data.Int.Notation
import Mathlib.Data.List.Sort

/-!
# Analysis jobs

`app/services/personal_analysis/service.py`: an analysis is computed by the core, which is asked for
it by a trigger of the user or by the dispatch of the profiles that are due.  The job that stands
for it here is polled until the core reports an end.  The result of a completed job is stored as a
row of `PersonalAnalysisHistory`, its signal is enqueued for the auto-trading, and the job is
deleted at the core; a failed one is asked for again as long as there are attempts.

## Sessions

The production sessions do not flush by themselves.  A `Session` therefore has the tables as the
transaction has written them, which its own statements select from, and the jobs as the objects in
its memory, which the statements return.  A full batch makes a poll select again, and what it
selects by are the flushed columns.

The core is asked by calls whose answers are arbitrary: one object per iteration of a loop has them
all, by the job a call is made for and by the job of the core it is about.  A list of such objects
is also what ends a loop that does not end by itself: the transaction is cut where the list is used
up, and rolled back.

Two components of the state are no tables: `deleteCalls` has the jobs of the core that `delete_job`
was called for, and `fetched` has the results that `fetch_result` has handed out.
-/

namespace AdviserConstructor

namespace Analysis

/-! ## The core -/

/-- `PersonalAnalysisJob.status`. -/
inductive JobStatus where
  | pending | processing | completed | failed
  deriving DecidableEq, Repr

/-- `_normalize_status`. -/
@[irreducible] def normalizeStatus (value : String) : JobStatus :=
  let normalized := DecimalText.lowered (DecimalText.stripped value)
  if normalized = "processing" then .processing
  else if normalized = "completed" then .completed
  else if normalized = "failed" then .failed
  else .pending

/-- What becomes of a call of the core. -/
inductive Answer (α : Type) where
  | ok (value : α)
  | providerError (message : String)
  /-- any other exception, or the end of the process -/
  | raises
  deriving DecidableEq, Repr

/-- `result_json`, as its text. -/
abbrev ResultJson := String

structure CoreAcceptedJob where
  jobId : String
  status : String
  deriving DecidableEq, Repr

structure CoreJobStatus where
  jobId : String
  status : String
  completedAt : Option ℤ := none
  error : Option String := none
  deriving DecidableEq, Repr

structure CoreJobResult where
  status : String
  resultJson : Option ResultJson
  completedAt : Option ℤ := none
  error : Option String := none
  deriving DecidableEq, Repr

/-- The result, if the core calls the job completed and has one. -/
def CoreJobResult.report (result : CoreJobResult) : Option ResultJson :=
  if normalizeStatus result.status = .completed then result.resultJson else none

/-- `text or default`. -/
def orText (text : Option String) (default : String) : String :=
  match text with
  | some t => if t = "" then default else t
  | none => default

/-! ## Rows -/

/-- `payload_json`; the symbol is the one key that is read back. -/
structure JobPayload where
  symbol : String
  deriving DecidableEq, Repr

/-- `PersonalAnalysisJob`. -/
structure Job where
  id : String
  userId : ℕ
  profileId : ℕ
  coreJobId : String
  status : JobStatus
  attempt : ℕ
  maxAttempts : ℕ
  error : Option String
  payload : JobPayload
  nextPollAt : ℤ
  completedAt : Option ℤ
  coreDeletedAt : Option ℤ
  deriving DecidableEq, Repr

/-- `PersonalAnalysisHistory`. -/
structure History where
  id : ℕ
  userId : ℕ
  profileId : ℕ
  tradeJobId : String
  symbol : String
  analysisData : ResultJson
  coreCompletedAt : Option ℤ
  deriving DecidableEq, Repr

/-- `AutoTradeSignalQueue`: a signal for the auto-trading of a config. -/
structure QueueRow where
  userId : ℕ
  configId : ℕ
  profileId : ℕ
  historyId : ℕ
  deriving DecidableEq, Repr

/-- A call of `enqueue_history_signal`, with the configs that were enabled and running. -/
structure SignalCall where
  historyId : ℕ
  configs : List ℕ
  deriving DecidableEq, Repr

/-- The tables, and the calls of `enqueue_history_signal` that are in them. -/
structure Tables where
  jobs : List Job := []
  history : List History := []
  queue : List QueueRow := []
  signals : List SignalCall := []
  deriving DecidableEq, Repr

def Tables.Valid (t : Tables) : Prop :=
  (t.jobs.map Job.id).Nodup ∧ (t.jobs.map Job.coreJobId).Nodup ∧
    (t.history.map History.tradeJobId).Nodup

instance (t : Tables) : Decidable t.Valid := inferInstanceAs (Decidable (_ ∧ _ ∧ _))

/-- `PersonalAnalysisProfile`. -/
structure Profile where
  id : ℕ
  userId : ℕ
  isActive : Bool
  intervalMinutes : ℤ
  nextRunAt : ℤ
  deriving DecidableEq, Repr

/-- What is committed, and what the core has been asked and has answered. -/
structure World where
  db : Tables := {}
  profiles : List Profile := []
  /-- the sequence behind `PersonalAnalysisHistory.id`, which no rollback takes back -/
  historySeq : ℕ := 0
  deleteCalls : List String := []
  fetched : List (String × ResultJson) := []
  deriving DecidableEq, Repr

/-- The settings of the service. -/
structure Settings where
  statusBatchSize : ℕ := 100
  maxAttempts : ℕ := 3
  pollIntervalSeconds : ℤ := 60
  schedulerLoopEnabled : Bool := true
  deriving DecidableEq, Repr

section

variable (cfg : Settings)

/-! ## New jobs -/

/-- The row of a job that the core has accepted. -/
def newJob (now : ℤ) (id : String) (profile : Profile) (payload : JobPayload)
    (accepted : CoreAcceptedJob) : Job where
  id := id
  userId := profile.userId
  profileId := profile.id
  coreJobId := accepted.jobId
  status := normalizeStatus accepted.status
  attempt := 1
  maxAttempts := cfg.maxAttempts
  error := none
  payload := payload
  nextPollAt := now + cfg.pollIntervalSeconds
  completedAt := none
  coreDeletedAt := none

/-- The commit of a transaction that has added jobs. -/
def World.insertJobs (commits : Bool) (added : List Job) (w : World) : Option World :=
  let db := { w.db with jobs := w.db.jobs ++ added }
  if commits && decide db.Valid then some { w with db := db } else none

inductive TriggerError where
  | notFound
  | invalidPayload
  | provider (message : String)
  | raised
  deriving DecidableEq, Repr

/-- A request to trigger a profile: `payload` is missing where it cannot be built. -/
structure TriggerCall where
  now : ℤ
  userId : ℕ
  profileId : ℕ
  payload : Option JobPayload
  request : Answer CoreAcceptedJob
  newId : String
  commits : Bool
  deriving DecidableEq, Repr

/-- `trigger_profile`. -/
def triggerProfile (t : TriggerCall) (w : World) : World × Except TriggerError Job :=
  match w.profiles.find? fun p => p.id = t.profileId ∧ p.userId = t.userId with
  | none => (w, .error .notFound)
  | some profile =>
      match t.payload with
      | none => (w, .error .invalidPayload)
      | some payload =>
          match t.request with
          | .providerError message => (w, .error (.provider message))
          | .raises => (w, .error .raised)
          | .ok accepted =>
              let job := newJob cfg t.now t.newId profile payload accepted
              match w.insertJobs t.commits [job] with
              | some w' => (w', .ok job)
              | none => (w, .error .raised)

/-! ## The dispatch of the profiles that are due -/

structure DispatchStats where
  triggered : ℕ := 0
  errors : ℕ := 0
  deriving DecidableEq, Repr

/-- The profiles as objects, and the jobs that are to be inserted. -/
structure DispatchSession where
  profiles : List Profile
  added : List Job := []
  stats : DispatchStats := {}
  deriving DecidableEq, Repr

/-- An iteration of the dispatch: the rows that another transaction has locked, the payloads, the
answers of the core and the drawn identifiers, by profile. -/
structure DispatchBatch where
  locked : ℕ → Bool
  payload : ℕ → Option JobPayload
  request : ℕ → Answer CoreAcceptedJob
  newId : ℕ → String

/-- The profiles that a statement selects. -/
def dueProfiles (now : ℤ) (locked : ℕ → Bool) (profiles : List Profile) : List Profile :=
  ((profiles.filter fun p => p.isActive && decide (p.nextRunAt ≤ now) && !locked p.id).insertionSort
    fun p q => p.nextRunAt ≤ q.nextRunAt).take cfg.statusBatchSize

/-- The body of the loop over the selected profiles. -/
def dispatchProfile (now : ℤ) (b : DispatchBatch) (profile : Profile) (s : DispatchSession) :
    Raising DispatchSession :=
  let failed := { s with stats.errors := s.stats.errors + 1 }
  match b.payload profile.id with
  | none => .done failed
  | some payload =>
      match b.request profile.id with
      | .providerError _ => .done failed
      | .raises => .raised s
      | .ok accepted =>
          .done { s with
            added := s.added ++ [newJob cfg now (b.newId profile.id) profile payload accepted]
            profiles := s.profiles.map fun p =>
              if p.id = profile.id then { p with nextRunAt := now + p.intervalMinutes * 60 } else p
            stats.triggered := s.stats.triggered + 1 }

/-- The iterations of the dispatch.  Nothing is flushed before its commit, so that every one selects
from the committed rows. -/
def dispatchBatches (now : ℤ) (committed : List Profile) :
    List DispatchBatch → DispatchSession → Raising DispatchSession
  | [], s => .raised s
  | b :: batches, s =>
      let profiles := dueProfiles cfg now b.locked committed
      if profiles = [] then .done s
      else
        (Raising.each (dispatchProfile cfg now b) profiles s).andThen fun s =>
          if profiles.length < cfg.statusBatchSize then .done s
          else dispatchBatches now committed batches s

structure DispatchRun where
  now : ℤ
  batches : List DispatchBatch
  commits : Bool

/-- `dispatch_due_profiles`; nothing is returned by a run that raises. -/
def dispatchDueProfiles (d : DispatchRun) (w : World) : World × Option DispatchStats :=
  if !cfg.schedulerLoopEnabled then (w, some {})
  else
    match dispatchBatches cfg d.now w.profiles d.batches { profiles := w.profiles } with
    | .raised _ => (w, none)
    | .done s =>
        match w.insertJobs d.commits s.added with
        | some w' => ({ w' with profiles := s.profiles }, some s.stats)
        | none => (w, none)

/-! ## The session of a poll -/

structure PollStats where
  polled : ℕ := 0
  completed : ℕ := 0
  failed : ℕ := 0
  retried : ℕ := 0
  cleanupPending : ℕ := 0
  errors : ℕ := 0
  deriving DecidableEq, Repr

/-- A transaction that polls: what it has flushed, and the jobs as objects. -/
structure Session where
  db : Tables
  jobs : List Job
  historySeq : ℕ
  deleteCalls : List String
  fetched : List (String × ResultJson)
  stats : PollStats := {}
  deriving DecidableEq, Repr

namespace Session

def start (w : World) : Session where
  db := w.db
  jobs := w.db.jobs
  historySeq := w.historySeq
  deleteCalls := w.deleteCalls
  fetched := w.fetched

/-- The columns of an object are set. -/
def setJob (job : Job) (s : Session) : Session :=
  { s with jobs := s.jobs.map fun j => if j.id = job.id then job else j }

/-- `delete_job` is called. -/
def callDelete (coreJobId : String) (s : Session) : Session :=
  { s with deleteCalls := coreJobId :: s.deleteCalls }

/-- The tables once everything is flushed. -/
def flushed (s : Session) : Tables := { s.db with jobs := s.jobs }

end Session

/-! ## The ends of a job -/

/-- `_mark_transient_error`. -/
def markTransientError (now : ℤ) (error : String) (job : Job) : Job :=
  let job := { job with error := some error }
  if job.maxAttempts ≤ job.attempt then { job with status := .failed, completedAt := some now }
  else
    let job := { job with attempt := job.attempt + 1 }
    if job.maxAttempts ≤ job.attempt then { job with status := .failed, completedAt := some now }
    else { job with status := .pending, nextPollAt := now + cfg.pollIntervalSeconds }

/-- The job is counted if it has failed. -/
def PollStats.countFailed (job : Job) (stats : PollStats) : PollStats :=
  if job.status = .failed then { stats with failed := stats.failed + 1 } else stats

/-- A transient error of a job on its own. -/
def Session.transientError (now : ℤ) (error : String) (job : Job) (s : Session) : Session :=
  let job := markTransientError cfg now error job
  { s.setJob job with
    stats := { s.stats with errors := s.stats.errors + 1 }.countFailed job }

/-- An iteration of a poll: the rows that another transaction has locked, the answers of the core by
job and by job of the core, the running configs of the profile of a job, and whether the database
fails behind the result of a job and before `delete_job`. -/
structure PollBatch where
  locked : String → Bool
  statuses : Answer (List CoreJobStatus)
  fetch : String → String → Answer CoreJobResult
  configs : String → List ℕ
  breaks : String → Bool
  delete : String → String → Answer Bool
  request : String → String → Answer CoreAcceptedJob

/-- `enqueue_history_signal`: the queue, and whether anything was enqueued. -/
def enqueueHistorySignal (h : History) : List ℕ → List QueueRow → List QueueRow × Bool
  | [], queue => (queue, false)
  | config :: configs, queue =>
      if queue.any fun q => q.historyId = h.id ∧ q.configId = config then
        enqueueHistorySignal h configs queue
      else
        let row : QueueRow :=
          { userId := h.userId, configId := config, profileId := h.profileId, historyId := h.id }
        ((enqueueHistorySignal h configs (queue ++ [row])).1, true)

def historyRow (id : ℕ) (completedAt : Option ℤ) (report : ResultJson) (job : Job) : History where
  id := id
  userId := job.userId
  profileId := job.profileId
  tradeJobId := job.id
  symbol := job.payload.symbol
  analysisData := report
  coreCompletedAt := completedAt

/-- The row of history of a job is inserted and flushed, with all that the session has set before,
and its signal is enqueued; a job that has a row keeps it. -/
def Session.persistHistory (configs : List ℕ) (completedAt : Option ℤ) (report : ResultJson)
    (job : Job) (s : Session) : Raising Session :=
  if s.db.history.any fun h => h.tradeJobId = job.id then .done s
  else
    let row := historyRow (s.historySeq + 1) completedAt report job
    let db := { s.flushed with history := s.db.history ++ [row] }
    if db.Valid then
      .done { s with
        db := { db with
          queue := (enqueueHistorySignal row configs db.queue).1
          signals := db.signals ++ [{ historyId := row.id, configs := configs }] }
        historySeq := s.historySeq + 1 }
    else .raised s

/-- The columns of a job whose result is stored. -/
def Job.complete (now completedAt : ℤ) (job : Job) : Job :=
  { job with
    status := .completed
    error := none
    completedAt := some completedAt
    nextPollAt := now + cfg.pollIntervalSeconds }

/-- The end of `_process_completed_job`: the job is completed and deleted at the core. -/
def Session.completeJob (now : ℤ) (completedAt : ℤ) (delete : Answer Bool) (job : Job)
    (s : Session) : Raising Session :=
  let job := job.complete cfg now completedAt
  let s := (s.setJob job).callDelete job.coreJobId
  let pending := { s.setJob { job with coreDeletedAt := none } with
    stats := { s.stats with
      cleanupPending := s.stats.cleanupPending + 1, completed := s.stats.completed + 1 } }
  match delete with
  | .raises => .raised s
  | .providerError _ => .done pending
  | .ok deleted =>
      if deleted then
        .done { s.setJob { job with coreDeletedAt := some now } with
          stats := { s.stats with completed := s.stats.completed + 1 } }
      else .done pending

/-- `_process_completed_job`. -/
def processCompletedJob (now : ℤ) (b : PollBatch) (coreStatus : CoreJobStatus) (job : Job)
    (s : Session) : Raising Session :=
  match b.fetch job.id job.coreJobId with
  | .raises => .raised s
  | .providerError message => .done (s.transientError cfg now message job)
  | .ok result =>
      match result.report with
      | none =>
          .done (s.transientError cfg now
            (orText result.error "Core returned completed without result_json.") job)
      | some report =>
          let s := { s with fetched := (job.coreJobId, report) :: s.fetched }
          (s.persistHistory (b.configs job.id) result.completedAt report job).andThen fun s =>
            if b.breaks job.id then .raised s
            else
              s.completeJob cfg now
                ((result.completedAt <|> coreStatus.completedAt).getD now)
                (b.delete job.id job.coreJobId) job

/-- `_process_failed_job`. -/
def processFailedJob (now : ℤ) (b : PollBatch) (error : String) (job : Job) (s : Session) :
    Raising Session :=
  if job.maxAttempts ≤ job.attempt then
    .done { s.setJob { job with
        status := .failed, error := some error, completedAt := some now } with
      stats := { s.stats with failed := s.stats.failed + 1 } }
  else
    match b.request job.id job.coreJobId with
    | .raises => .raised s
    | .providerError message => .done (s.transientError cfg now message job)
    | .ok accepted =>
        .done { s.setJob { job with
            attempt := job.attempt + 1
            coreJobId := accepted.jobId
            status := normalizeStatus accepted.status
            error := some error
            completedAt := none
            coreDeletedAt := none
            nextPollAt := now + cfg.pollIntervalSeconds } with
          stats := { s.stats with retried := s.stats.retried + 1 } }

/-! ## A poll -/

/-- `status_by_core_id.get(core_job_id)`: the last status of a job counts. -/
def coreStatusOf (statuses : List CoreJobStatus) (coreJobId : String) : Option CoreJobStatus :=
  statuses.reverse.find? fun status => status.jobId = coreJobId

/-- What the status of the core makes of a job. -/
def processJob (now : ℤ) (b : PollBatch) (statuses : List CoreJobStatus) (job : Job)
    (s : Session) : Raising Session :=
  let later := now + cfg.pollIntervalSeconds
  match coreStatusOf statuses job.coreJobId with
  | none => .done (s.setJob { job with nextPollAt := later })
  | some coreStatus =>
      match normalizeStatus coreStatus.status with
      | .completed => processCompletedJob cfg now b coreStatus job s
      | .failed => processFailedJob cfg now b (orText coreStatus.error "Core job failed.") job s
      | status =>
          .done (s.setJob
            { job with status := status, error := coreStatus.error, nextPollAt := later })

/-- The object of a row that was selected, and what is made of it. -/
def withObject (f : Job → Session → Raising Session) (id : String) (s : Session) :
    Raising Session :=
  match s.jobs.find? fun j => j.id = id with
  | none => .done s
  | some job => f job s

/-- The rows that a statement selects for a poll. -/
def dueJobs (now : ℤ) (locked : String → Bool) (jobs : List Job) : List String :=
  (((jobs.filter fun j =>
      (j.status = .pending || j.status = .processing) && decide (j.nextPollAt ≤ now) &&
        !locked j.id).insertionSort
    fun i j => i.nextPollAt ≤ j.nextPollAt).take cfg.statusBatchSize).map Job.id

/-- A job of a batch whose statuses cannot be had. -/
def batchError (now : ℤ) (message : String) (job : Job) (s : Session) : Raising Session :=
  let job := markTransientError cfg now message job
  .done { s.setJob job with stats := s.stats.countFailed job }

def pollBatches (now : ℤ) : List PollBatch → Session → Raising Session
  | [], s => .raised s
  | b :: batches, s =>
      let ids := dueJobs cfg now b.locked s.db.jobs
      if ids = [] then .done s
      else
        let s := { s with stats := { s.stats with polled := s.stats.polled + ids.length } }
        let processed : Raising Session :=
          match b.statuses with
          | .raises => .raised s
          | .providerError message =>
              (Raising.each (withObject (batchError cfg now message)) ids s).andThen fun s =>
                .done { s with stats := { s.stats with errors := s.stats.errors + 1 } }
          | .ok statuses => Raising.each (withObject (processJob cfg now b statuses)) ids s
        processed.andThen fun s =>
          if ids.length < cfg.statusBatchSize then .done s else pollBatches now batches s

/-- A poll: the time stamps that the cleanup orders by, the rows that are locked and the answers to
its deletions, the iterations, and whether the commit succeeds. -/
structure PollRun where
  now : ℤ
  updatedAt : String → ℤ
  locked : String → Bool
  delete : String → String → Answer Bool
  batches : List PollBatch
  commits : Bool

/-- The rows that the cleanup selects. -/
def cleanupJobs (p : PollRun) (jobs : List Job) : List Job :=
  ((jobs.filter fun j =>
      j.status = .completed && j.coreDeletedAt.isNone && !p.locked j.id).insertionSort
    fun i j => p.updatedAt j.id ≤ p.updatedAt i.id).take cfg.statusBatchSize

/-- The body of the loop of `_cleanup_completed_jobs`. -/
def cleanupJob (p : PollRun) (job : Job) (s : Session) : Raising Session :=
  let s := s.callDelete job.coreJobId
  let pending :=
    { s with stats := { s.stats with cleanupPending := s.stats.cleanupPending + 1 } }
  match p.delete job.id job.coreJobId with
  | .raises => .raised s
  | .providerError _ => .done pending
  | .ok deleted =>
      if deleted then .done (s.setJob { job with coreDeletedAt := some p.now }) else .done pending

/-- `poll_pending_jobs` before its commit. -/
def pollSession (p : PollRun) (w : World) : Raising Session :=
  (Raising.each (cleanupJob p) (cleanupJobs cfg p w.db.jobs) (Session.start w)).andThen
    (pollBatches cfg p.now p.batches)

/-- The tables that a poll commits, unless it is rolled back. -/
def pollCommit (p : PollRun) (w : World) : Option Tables :=
  match pollSession cfg p w with
  | .raised _ => none
  | .done s => if p.commits && decide s.flushed.Valid then some s.flushed else none

/-- `poll_pending_jobs`. -/
def pollPendingJobs (p : PollRun) (w : World) : World × Option PollStats :=
  if !cfg.schedulerLoopEnabled then (w, some {})
  else
    let s := (pollSession cfg p w).state
    let left := { w with
      historySeq := s.historySeq, deleteCalls := s.deleteCalls, fetched := s.fetched }
    match pollCommit cfg p w with
    | some db => ({ left with db := db }, some s.stats)
    | none => (left, none)

end

end Analysis

end AdviserConstructor
