import AdviserConstructor.Analysis.Jobs
import AdviserConstructor.Library.StepSystem
import Mathlib.Data.List.Nodup

/-!
# Runs of analysis jobs

A run is a sequence of transactions: triggers, dispatches and polls, with any answers of the core
and any failures, and changes of the profiles by their own endpoints.  `NothingLost` says that
whatever the core was asked to delete is in the committed row of history of its job.

* `rowsAndSignals_run`: in every run a job has at most one row of history, and the signal of a row
  is enqueued once, for the configs that were running then.
* `analysis_kept`: that, and nothing is lost in a run in which the core never answers a request with
  `completed`, no poll is rolled back behind a deletion of its own, and no job is asked for again
  once its result has been handed out.
* `analysis_lost`: each of the three conditions is needed.

`analysis_kept` rests on an invariant of the sessions, `SessionKept`: a job that is completed has a
row, and the row of a job has the result of the job of the core that it stands for.
-/

namespace AdviserConstructor

namespace Analysis

/-! ## Steps -/

/-- A transaction. -/
inductive Step where
  | editProfiles (profiles : List Profile)
  | trigger (t : TriggerCall)
  | dispatch (d : DispatchRun)
  | poll (p : PollRun)

/-- What a transaction leaves behind. -/
def step (cfg : Settings) (w : World) : Step → Option World
  | .editProfiles profiles => some { w with profiles := profiles }
  | .trigger t => some (triggerProfile cfg t w).1
  | .dispatch d => some (dispatchDueProfiles cfg d w).1
  | .poll p => some (pollPendingJobs cfg p w).1

/-! ## What is asked of a run -/

/-- The job that stands for a job of the core has a row with a result that was handed out for it. -/
def HasRow (jobs : List Job) (history : List History) (fetched : List (String × ResultJson))
    (coreJobId : String) : Prop :=
  ∃ j ∈ jobs, j.coreJobId = coreJobId ∧
    ∃ h ∈ history, h.tradeJobId = j.id ∧ (coreJobId, h.analysisData) ∈ fetched

instance (jobs : List Job) (history : List History) (fetched : List (String × ResultJson))
    (coreJobId : String) : Decidable (HasRow jobs history fetched coreJobId) :=
  inferInstanceAs (Decidable (∃ j ∈ jobs, _))

/-- Whatever the core was asked to delete is in the committed row of its job. -/
def NothingLost (w : World) : Prop :=
  ∀ c ∈ w.deleteCalls, HasRow w.db.jobs w.db.history w.fetched c

instance (w : World) : Decidable (NothingLost w) :=
  inferInstanceAs (Decidable (∀ c ∈ w.deleteCalls, _))

/-- The rows of the queue with a signal for a config. -/
def signalRows (queue : List QueueRow) (historyId configId : ℕ) : List QueueRow :=
  queue.filter fun q => q.historyId = historyId ∧ q.configId = configId

/-- The signal of a row has been enqueued once, and is in the queue once for every config that was
running then. -/
def SignalOnce (t : Tables) (historyId : ℕ) : Prop :=
  ∃ configs, t.signals.filter (fun c => c.historyId = historyId) = [⟨historyId, configs⟩] ∧
    ∀ config, (signalRows t.queue historyId config).length = if config ∈ configs then 1 else 0

/-- A job has at most one row of history, and every row its signal. -/
structure RowsAndSignals (t : Tables) : Prop where
  oneRow : (t.history.map History.tradeJobId).Nodup
  signal : ∀ h ∈ t.history, SignalOnce t h.id

/-! ## Conditions on the answers -/

/-- A request that the core answers with `completed`. -/
def Answer.CompletedAtOnce : Answer CoreAcceptedJob → Prop
  | .ok accepted => normalizeStatus accepted.status = .completed
  | _ => False

theorem Answer.completedAtOnce_ok {accepted : CoreAcceptedJob} :
    (Answer.ok accepted).CompletedAtOnce ↔ normalizeStatus accepted.status = .completed := Iff.rfl

def Answer.Accepts : Answer CoreAcceptedJob → Prop
  | .ok _ => True
  | _ => False

namespace PollBatch

/-- The result that is handed out for a job. -/
def report (b : PollBatch) (id coreJobId : String) : Option ResultJson :=
  match b.fetch id coreJobId with
  | .ok result => result.report
  | _ => none

/-- The core reports a failure of its job. -/
def ReportsFailed (b : PollBatch) (coreJobId : String) : Prop :=
  ∃ statuses status, b.statuses = .ok statuses ∧ coreStatusOf statuses coreJobId = some status ∧
    normalizeStatus status.status = .failed

/-- The result of a job is handed out, and nothing keeps the poll from deleting it. -/
def Deletes (b : PollBatch) (id coreJobId : String) : Prop :=
  (b.report id coreJobId).isSome ∧ b.breaks id = false

end PollBatch

/-- The result of a job of the core was handed out before, or is in the poll. -/
def HandedOut (w : World) (p : PollRun) (coreJobId : String) : Prop :=
  (∃ report, (coreJobId, report) ∈ w.fetched) ∨
    ∃ b ∈ p.batches, ∃ id, (b.report id coreJobId).isSome

/-- The conditions on a poll. -/
structure PollRun.Harmless (cfg : Settings) (w : World) (p : PollRun) : Prop where
  /-- no request is answered with `completed` -/
  pending : ∀ b ∈ p.batches, ∀ id c, ¬ (b.request id c).CompletedAtOnce
  /-- no job is asked for again once its result has been handed out -/
  final : ∀ b ∈ p.batches, ∀ id c, HandedOut w p c → b.ReportsFailed c → ¬ (b.request id c).Accepts
  /-- the poll commits, or deletes nothing that it has completed itself -/
  survives : (pollCommit cfg p w).isSome ∨ ∀ b ∈ p.batches, ∀ id c, ¬ b.Deletes id c

def Harmless (cfg : Settings) (w : World) : Step → Prop
  | .editProfiles _ => True
  | .trigger t => ¬ t.request.CompletedAtOnce
  | .dispatch d => ∀ b ∈ d.batches, ∀ id, ¬ (b.request id).CompletedAtOnce
  | .poll p => p.Harmless cfg w

/-! ## The tables of history and of signals -/

/-- A session has written as many rows of history as the sequence has numbered. -/
structure Sound (t : Tables) (historySeq : ℕ) : Prop extends RowsAndSignals t where
  historyIds : ∀ h ∈ t.history, h.id ≤ historySeq
  signalIds : ∀ c ∈ t.signals, c.historyId ≤ historySeq
  queueIds : ∀ q ∈ t.queue, q.historyId ≤ historySeq

theorem Sound.mono {t : Tables} {m n : ℕ} (h : Sound t m) (hmn : m ≤ n) : Sound t n where
  toRowsAndSignals := h.toRowsAndSignals
  historyIds := fun r hr => (h.historyIds r hr).trans hmn
  signalIds := fun c hc => (h.signalIds c hc).trans hmn
  queueIds := fun q hq => (h.queueIds q hq).trans hmn

theorem Sound.withJobs {t : Tables} {n : ℕ} (h : Sound t n) (jobs : List Job) :
    Sound { t with jobs := jobs } n where
  oneRow := h.oneRow
  signal := h.signal
  historyIds := h.historyIds
  signalIds := h.signalIds
  queueIds := h.queueIds

theorem signalRows_append (queue : List QueueRow) (row : QueueRow) (historyId config : ℕ) :
    signalRows (queue ++ [row]) historyId config =
      signalRows queue historyId config ++
        if row.historyId = historyId ∧ row.configId = config then [row] else [] := by
  rw [signalRows, List.filter_append]
  congr 1
  by_cases h : row.historyId = historyId ∧ row.configId = config
  · rw [if_pos h, List.filter_cons_of_pos (by simpa using h), List.filter_nil]
  · rw [if_neg h, List.filter_cons_of_neg (by simpa using h), List.filter_nil]

theorem any_signal_iff {queue : List QueueRow} {historyId config : ℕ} :
    (queue.any fun q => q.historyId = historyId ∧ q.configId = config) = true ↔
      signalRows queue historyId config ≠ [] := by
  rw [List.any_eq_true, signalRows, ne_eq, List.filter_eq_nil_iff]
  push Not
  rfl

theorem signalRows_enqueue_of_ne {h : History} {historyId : ℕ} (hne : historyId ≠ h.id)
    (config : ℕ) (configs : List ℕ) (queue : List QueueRow) :
    signalRows (enqueueHistorySignal h configs queue).1 historyId config =
      signalRows queue historyId config := by
  induction configs generalizing queue with
  | nil => rfl
  | cons c configs ih =>
    rw [enqueueHistorySignal]
    split
    · exact ih queue
    · show signalRows (enqueueHistorySignal h configs (queue ++ [_])).1 historyId config = _
      rw [ih, signalRows_append, if_neg fun heq => hne heq.1.symm, List.append_nil]

theorem length_signalRows_enqueue (h : History) (config : ℕ) (configs : List ℕ)
    (queue : List QueueRow) :
    (signalRows (enqueueHistorySignal h configs queue).1 h.id config).length =
      if config ∈ configs ∧ signalRows queue h.id config = [] then 1
      else (signalRows queue h.id config).length := by
  induction configs generalizing queue with
  | nil => simp [enqueueHistorySignal]
  | cons c configs ih =>
    rw [enqueueHistorySignal]
    split
    · rename_i hany
      have hrows := any_signal_iff.mp hany
      rw [ih]
      by_cases hc : config = c
      · subst hc
        rw [if_neg fun hand => hrows hand.2, if_neg fun hand => hrows hand.2]
      · simp only [List.mem_cons, hc, false_or]
    · rename_i hany
      have hrows : signalRows queue h.id c = [] := by
        by_contra hne
        exact hany (any_signal_iff.mpr hne)
      show (signalRows (enqueueHistorySignal h configs (queue ++ [_])).1 h.id config).length = _
      rw [ih, signalRows_append]
      by_cases hc : c = config
      · subst hc
        simp [hrows]
      · have hne : ¬ config = c := fun heq => hc heq.symm
        simp [hc, hne]

theorem historyId_of_mem_enqueue {h : History} {n : ℕ} (hn : h.id ≤ n) (configs : List ℕ)
    {queue : List QueueRow} (hqueue : ∀ q ∈ queue, q.historyId ≤ n) :
    ∀ q ∈ (enqueueHistorySignal h configs queue).1, q.historyId ≤ n := by
  induction configs generalizing queue with
  | nil => exact hqueue
  | cons c configs ih =>
    rw [enqueueHistorySignal]
    split
    · exact ih hqueue
    · refine ih fun q hq => ?_
      rcases List.mem_append.mp hq with hold | hnew
      · exact hqueue q hold
      · rw [List.mem_singleton.mp hnew]
        exact hn

theorem Sound.insert {t : Tables} {n : ℕ} (h : Sound t n) {row : History} (hid : row.id = n + 1)
    (hnodup : ((t.history ++ [row]).map History.tradeJobId).Nodup) (configs : List ℕ)
    (jobs : List Job) :
    Sound
      { jobs := jobs
        history := t.history ++ [row]
        queue := (enqueueHistorySignal row configs t.queue).1
        signals := t.signals ++ [{ historyId := row.id, configs := configs }] } (n + 1) where
  oneRow := hnodup
  signal := by
    intro r hr
    rcases List.mem_append.mp hr with hold | hnew
    · have hne : r.id ≠ row.id := by
        have hle := h.historyIds r hold
        omega
      obtain ⟨cs, hcalls, hrows⟩ := h.signal r hold
      refine ⟨cs, ?_, fun config => ?_⟩
      · rw [List.filter_append, hcalls, List.filter_cons_of_neg (by simpa using hne.symm),
          List.filter_nil, List.append_nil]
      · rw [signalRows_enqueue_of_ne hne]
        exact hrows config
    · obtain rfl := List.mem_singleton.mp hnew
      have hcalls : t.signals.filter (fun c => c.historyId = r.id) = [] := by
        refine List.filter_eq_nil_iff.mpr fun c hc => ?_
        have hle := h.signalIds c hc
        simp only [decide_eq_true_eq]
        omega
      have hnone : ∀ config, signalRows t.queue r.id config = [] := by
        refine fun config => List.filter_eq_nil_iff.mpr fun q hq => ?_
        have hle := h.queueIds q hq
        simp only [decide_eq_true_eq]
        omega
      refine ⟨configs, ?_, fun config => ?_⟩
      · rw [List.filter_append, hcalls, List.filter_cons_of_pos (by simp), List.filter_nil,
          List.nil_append]
      · rw [length_signalRows_enqueue, hnone config]
        simp
  historyIds := by
    intro r hr
    rcases List.mem_append.mp hr with hold | hnew
    · exact (h.historyIds r hold).trans (Nat.le_succ n)
    · rw [List.mem_singleton.mp hnew]
      exact hid.le
  signalIds := by
    intro c hc
    rcases List.mem_append.mp hc with hold | hnew
    · exact (h.signalIds c hold).trans (Nat.le_succ n)
    · rw [List.mem_singleton.mp hnew]
      exact hid.le
  queueIds := historyId_of_mem_enqueue hid.le configs
    fun q hq => (h.queueIds q hq).trans (Nat.le_succ n)

/-! ## What every session keeps -/

section

variable {cfg : Settings}

theorem pollSession_keeps {p : PollRun} {w : World} {I : Session → Prop}
    (hstats : ∀ s stats, I s → I { s with stats := stats })
    (hcleanup :
      I (Raising.each (cleanupJob p) (cleanupJobs cfg p w.db.jobs) (Session.start w)).state)
    (herror : ∀ message job s, job ∈ s.jobs → I s →
      I (batchError cfg p.now message job s).state)
    (hjob : ∀ b ∈ p.batches, ∀ statuses, b.statuses = .ok statuses → ∀ job s, job ∈ s.jobs →
      I s → I (processJob cfg p.now b statuses job s).state) :
    I (pollSession cfg p w).state := by
  have hobject : ∀ (f : Job → Session → Raising Session),
      (∀ job s, job ∈ s.jobs → I s → I (f job s).state) →
        ∀ id s, I s → I (withObject f id s).state := by
    intro f hf id s hs
    rw [withObject]
    split
    · exact hs
    · rename_i job hfind
      exact hf job s (List.mem_of_find?_eq_some hfind) hs
  have hbatches : ∀ batches, (∀ b ∈ batches, b ∈ p.batches) → ∀ s, I s →
      I (pollBatches cfg p.now batches s).state := by
    intro batches
    induction batches with
    | nil => exact fun _ s hs => hs
    | cons b batches ih =>
      intro hmem s hs
      have hb := hmem b (List.mem_cons_self ..)
      rw [pollBatches]
      split
      · exact hs
      · refine Raising.andThen_keeps ?_ fun s' hs' => ?_
        · split
          · exact hstats s _ hs
          · rename_i message _
            refine Raising.andThen_keeps ?_ fun s' hs' => hstats s' _ hs'
            exact Raising.each_keeps
              (fun id _ s' hs' => hobject _ (herror message) id s' hs') (hstats s _ hs)
          · rename_i statuses hstatuses
            exact Raising.each_keeps
              (fun id _ s' hs' => hobject _ (hjob b hb statuses hstatuses) id s' hs')
              (hstats s _ hs)
        · split
          · exact hs'
          · exact ih (fun b' hb' => hmem b' (List.mem_cons_of_mem _ hb')) s' hs'
  exact Raising.andThen_keeps hcleanup fun s hs => hbatches p.batches (fun _ hb => hb) s hs

/-- A session's tables are sound, and its sequence has gone on from `n`. -/
def SoundFrom (n : ℕ) (s : Session) : Prop := Sound s.db s.historySeq ∧ n ≤ s.historySeq

theorem soundFrom_persistHistory {n : ℕ} {s : Session} (h : SoundFrom n s) (configs : List ℕ)
    (completedAt : Option ℤ) (report : ResultJson) (job : Job) :
    SoundFrom n (s.persistHistory configs completedAt report job).state := by
  rw [Session.persistHistory]
  split
  · exact h
  · dsimp only
    split
    · rename_i hvalid
      exact ⟨h.1.insert rfl hvalid.2.2 configs s.jobs, h.2.trans (Nat.le_succ _)⟩
    · exact h

theorem soundFrom_completeJob {n : ℕ} {s : Session} (h : SoundFrom n s) (now completedAt : ℤ)
    (delete : Answer Bool) (job : Job) :
    SoundFrom n (s.completeJob cfg now completedAt delete job).state := by
  simp only [Session.completeJob]
  split
  · exact h
  · exact h
  · split <;> exact h

theorem soundFrom_processCompletedJob {n : ℕ} {s : Session} (h : SoundFrom n s) (now : ℤ)
    (b : PollBatch) (coreStatus : CoreJobStatus) (job : Job) :
    SoundFrom n (processCompletedJob cfg now b coreStatus job s).state := by
  rw [processCompletedJob]
  split
  · exact h
  · exact h
  · split
    · exact h
    · rename_i report _
      have hfetched : SoundFrom n { s with fetched := (job.coreJobId, report) :: s.fetched } := h
      refine Raising.andThen_keeps (soundFrom_persistHistory hfetched _ _ _ _) fun s' hs' => ?_
      split
      · exact hs'
      · exact soundFrom_completeJob hs' _ _ _ _

theorem soundFrom_processJob {n : ℕ} {s : Session} (h : SoundFrom n s) (now : ℤ) (b : PollBatch)
    (statuses : List CoreJobStatus) (job : Job) :
    SoundFrom n (processJob cfg now b statuses job s).state := by
  rw [processJob]
  split
  · exact h
  · split
    · exact soundFrom_processCompletedJob h _ _ _ _
    · rw [processFailedJob]
      split
      · exact h
      · split <;> exact h
    · exact h

theorem soundFrom_pollSession {w : World} (h : Sound w.db w.historySeq) (p : PollRun) :
    SoundFrom w.historySeq (pollSession cfg p w).state := by
  have hcleanup : ∀ job ∈ cleanupJobs cfg p w.db.jobs, ∀ s, SoundFrom w.historySeq s →
      SoundFrom w.historySeq (cleanupJob p job s).state := by
    intro job _ s hs
    rw [cleanupJob]
    split
    · exact hs
    · exact hs
    · split <;> exact hs
  have hstart : SoundFrom w.historySeq (Session.start w) := ⟨h, le_refl _⟩
  exact pollSession_keeps (fun _ _ hs => hs) (Raising.each_keeps hcleanup hstart)
    (fun _ _ _ _ hs => hs) fun b _ statuses _ job s _ hs => soundFrom_processJob hs _ _ _ _

theorem flushed_of_pollCommit {p : PollRun} {w : World} {db : Tables}
    (h : pollCommit cfg p w = some db) : db = (pollSession cfg p w).state.flushed := by
  rw [pollCommit] at h
  split at h
  · cases h
  · rename_i s hs
    split at h
    · rw [hs]
      exact (Option.some.inj h).symm
    · cases h

theorem newJob_status (now : ℤ) (id : String) (profile : Profile) (payload : JobPayload)
    (accepted : CoreAcceptedJob) :
    (newJob cfg now id profile payload accepted).status = normalizeStatus accepted.status := rfl

theorem insertJobs_eq_some {commits : Bool} {added : List Job} {w w' : World}
    (h : w.insertJobs commits added = some w') :
    w' = { w with db := { w.db with jobs := w.db.jobs ++ added } } ∧ w'.db.Valid := by
  simp only [World.insertJobs] at h
  split at h
  · rename_i hcond
    obtain rfl := Option.some.inj h
    exact ⟨rfl, of_decide_eq_true (Bool.and_eq_true_iff.mp hcond).2⟩
  · cases h

theorem triggerProfile_cases (t : TriggerCall) (w : World) :
    (triggerProfile cfg t w).1 = w ∨
      ∃ profile payload accepted, t.request = .ok accepted ∧
        w.insertJobs t.commits [newJob cfg t.now t.newId profile payload accepted] =
          some (triggerProfile cfg t w).1 := by
  rw [triggerProfile]
  split
  · exact .inl rfl
  · rename_i profile _
    split
    · exact .inl rfl
    · rename_i payload _
      split
      · exact .inl rfl
      · exact .inl rfl
      · rename_i accepted hrequest
        dsimp only
        split
        · rename_i w' hinsert
          exact .inr ⟨profile, payload, accepted, hrequest, hinsert⟩
        · exact .inl rfl

theorem dispatchDueProfiles_cases (d : DispatchRun) (w : World) :
    (dispatchDueProfiles cfg d w).1 = w ∨
      ∃ s w', dispatchBatches cfg d.now w.profiles d.batches { profiles := w.profiles } = .done s ∧
        w.insertJobs d.commits s.added = some w' ∧
          (dispatchDueProfiles cfg d w).1 = { w' with profiles := s.profiles } := by
  rw [dispatchDueProfiles]
  split
  · exact .inl rfl
  · split
    · exact .inl rfl
    · rename_i s hs
      split
      · rename_i w' hinsert
        exact .inr ⟨s, w', hs, hinsert, rfl⟩
      · exact .inl rfl

theorem sound_step {w w' : World} {a : Step} (h : Sound w.db w.historySeq)
    (hstep : step cfg w a = some w') : Sound w'.db w'.historySeq := by
  cases a with
  | editProfiles profiles =>
    obtain rfl := Option.some.inj hstep
    exact h
  | trigger t =>
    obtain rfl := Option.some.inj hstep
    rcases @triggerProfile_cases cfg t w with hsame | ⟨_, _, _, _, hinsert⟩
    · rw [hsame]
      exact h
    · rw [(insertJobs_eq_some hinsert).1]
      exact h.withJobs _
  | dispatch d =>
    obtain rfl := Option.some.inj hstep
    rcases @dispatchDueProfiles_cases cfg d w with hsame | ⟨s, w', _, hinsert, hw⟩
    · rw [hsame]
      exact h
    · rw [hw, (insertJobs_eq_some hinsert).1]
      exact h.withJobs _
  | poll p =>
    obtain rfl := Option.some.inj hstep
    have hsession : SoundFrom w.historySeq (pollSession cfg p w).state := soundFrom_pollSession h p
    rw [pollPendingJobs]
    split
    · exact h
    · split
      · rename_i db hcommit
        rw [flushed_of_pollCommit hcommit]
        exact hsession.1.withJobs _
      · exact h.mono hsession.2

/-- **Rows and signals.**  In every run a job has at most one row of history, and the signal of a
row is enqueued once. -/
theorem rowsAndSignals_run {profiles : List Profile} {steps : List Step} {w : World}
    (hrun : StepSystem.run (step cfg) { profiles := profiles } steps = some w) :
    RowsAndSignals w.db := by
  have hstart : Sound ({ profiles := profiles } : World).db 0 := by
    refine ⟨⟨List.nodup_nil, ?_⟩, ?_, ?_, ?_⟩ <;> exact fun _ h => absurd h List.not_mem_nil
  exact (StepSystem.run_invariant (step cfg) (I := fun w => Sound w.db w.historySeq)
    (fun _ _ _ => sound_step) hstart hrun).toRowsAndSignals

/-! ## What a session keeps under the conditions -/

/-- Jobs have identifiers of their own, a completed job has a row of history, the row of a job has
the result of its job of the core, and every row is one of a job. -/
structure JobsKept (jobs : List Job) (history : List History)
    (fetched : List (String × ResultJson)) : Prop where
  ids : (jobs.map Job.id).Nodup
  completed : ∀ j ∈ jobs, j.status = .completed → ∃ h ∈ history, h.tradeJobId = j.id
  results : ∀ j ∈ jobs, ∀ h ∈ history, h.tradeJobId = j.id →
    (j.coreJobId, h.analysisData) ∈ fetched
  owned : ∀ h ∈ history, ∃ j ∈ jobs, j.id = h.tradeJobId

namespace JobsKept

variable {jobs : List Job} {history : List History} {fetched fetched' : List (String × ResultJson)}

theorem mono (h : JobsKept jobs history fetched) (hsub : fetched ⊆ fetched') :
    JobsKept jobs history fetched' where
  ids := h.ids
  completed := h.completed
  results := fun j hj r hr hid => hsub (h.results j hj r hr hid)
  owned := h.owned

theorem hasRow (h : JobsKept jobs history fetched) {j : Job} (hj : j ∈ jobs)
    (hrow : ∃ r ∈ history, r.tradeJobId = j.id) : HasRow jobs history fetched j.coreJobId := by
  obtain ⟨r, hr, hid⟩ := hrow
  exact ⟨j, hj, rfl, r, hr, hid, h.results j hj r hr hid⟩

theorem setJob (h : JobsKept jobs history fetched) {job : Job}
    (hcompleted : job.status = .completed → ∃ r ∈ history, r.tradeJobId = job.id)
    (hresults : ∀ r ∈ history, r.tradeJobId = job.id →
      (job.coreJobId, r.analysisData) ∈ fetched) :
    JobsKept (jobs.map fun j => if j.id = job.id then job else j) history fetched where
  ids := by
    have hsame : Job.id ∘ (fun j => if j.id = job.id then job else j) = Job.id := by
      funext j
      rw [Function.comp_apply]
      split
      · next hid => exact hid.symm
      · rfl
    rw [List.map_map, hsame]
    exact h.ids
  completed := by
    intro j hj hstatus
    obtain ⟨i, hi, rfl⟩ := List.mem_map.mp hj
    split at hstatus <;> rename_i hid
    · rw [if_pos hid]
      exact hcompleted hstatus
    · rw [if_neg hid]
      exact h.completed i hi hstatus
  results := by
    intro j hj r hr
    obtain ⟨i, hi, rfl⟩ := List.mem_map.mp hj
    split
    · exact hresults r hr
    · exact h.results i hi r hr
  owned := by
    intro r hr
    obtain ⟨i, hi, hid⟩ := h.owned r hr
    refine ⟨_, List.mem_map_of_mem hi, ?_⟩
    by_cases hsame : i.id = job.id
    · rw [if_pos hsame, ← hsame]
      exact hid
    · rw [if_neg hsame]
      exact hid

theorem append (h : JobsKept jobs history fetched) {added : List Job}
    (hnodup : ((jobs ++ added).map Job.id).Nodup)
    (hstatus : ∀ j ∈ added, j.status ≠ .completed) :
    JobsKept (jobs ++ added) history fetched where
  ids := hnodup
  completed := by
    intro j hj hc
    rcases List.mem_append.mp hj with hold | hnew
    · exact h.completed j hold hc
    · exact absurd hc (hstatus j hnew)
  results := by
    intro j hj r hr hid
    rcases List.mem_append.mp hj with hold | hnew
    · exact h.results j hold r hr hid
    · obtain ⟨i, hi, hrow⟩ := h.owned r hr
      rw [List.map_append] at hnodup
      have hdisjoint := List.disjoint_of_nodup_append hnodup
      refine absurd (List.mem_map_of_mem hnew) (hdisjoint ?_)
      rw [← hid, ← hrow]
      exact List.mem_map_of_mem hi
  owned := by
    intro r hr
    obtain ⟨i, hi, hid⟩ := h.owned r hr
    exact ⟨i, List.mem_append_left _ hi, hid⟩

end JobsKept

/-- What a poll's session keeps. -/
structure SessionKept (w : World) (p : PollRun) (s : Session) : Prop where
  jobs : JobsKept s.jobs s.db.history s.fetched
  covered : ∀ c ∈ s.deleteCalls, HasRow s.jobs s.db.history s.fetched c
  handed : ∀ q ∈ s.fetched, HandedOut w p q.1
  grown : w.fetched ⊆ s.fetched
  /-- where the batches delete nothing, the committed rows have what was deleted -/
  uncut : (∀ b ∈ p.batches, ∀ id c, ¬ b.Deletes id c) →
    ∀ c ∈ s.deleteCalls, HasRow w.db.jobs w.db.history s.fetched c

section

variable {jobs jobs' : List Job} {history history' : List History}
  {fetched fetched' : List (String × ResultJson)} {c : String}

theorem HasRow.mono (h : HasRow jobs history fetched c) (hjobs : jobs ⊆ jobs')
    (hhistory : history ⊆ history') (hfetched : fetched ⊆ fetched') :
    HasRow jobs' history' fetched' c := by
  obtain ⟨j, hj, hcore, r, hr, hid, hc⟩ := h
  exact ⟨j, hjobs hj, hcore, r, hhistory hr, hid, hfetched hc⟩

theorem HasRow.setJob (h : HasRow jobs history fetched c) {job : Job}
    (hsame : ∀ j ∈ jobs, j.id = job.id → (∃ r ∈ history, r.tradeJobId = job.id) →
      job.coreJobId = j.coreJobId) :
    HasRow (jobs.map fun j => if j.id = job.id then job else j) history fetched c := by
  obtain ⟨j, hj, hcore, r, hr, hid, hc⟩ := h
  refine ⟨_, List.mem_map_of_mem hj, ?_, r, hr, ?_, hc⟩ <;> split <;> rename_i heq
  · rw [hsame j hj heq ⟨r, hr, hid.trans heq⟩]
    exact hcore
  · exact hcore
  · exact hid.trans heq
  · exact hid

end

namespace SessionKept

variable {w : World} {p : PollRun} {s : Session}

theorem setStats (h : SessionKept w p s) (stats : PollStats) :
    SessionKept w p { s with stats := stats } :=
  ⟨h.jobs, h.covered, h.handed, h.grown, h.uncut⟩

theorem setJob (h : SessionKept w p s) {job : Job}
    (hcompleted : job.status = .completed → ∃ r ∈ s.db.history, r.tradeJobId = job.id)
    (hresults : ∀ r ∈ s.db.history, r.tradeJobId = job.id →
      (job.coreJobId, r.analysisData) ∈ s.fetched)
    (hsame : ∀ j ∈ s.jobs, j.id = job.id → (∃ r ∈ s.db.history, r.tradeJobId = job.id) →
      job.coreJobId = j.coreJobId) : SessionKept w p (s.setJob job) :=
  ⟨h.jobs.setJob hcompleted hresults, fun c hc => (h.covered c hc).setJob hsame, h.handed, h.grown,
    h.uncut⟩

theorem changeJob (h : SessionKept w p s) {job job' : Job} (hjob : job ∈ s.jobs)
    (hid : job'.id = job.id) (hcore : job'.coreJobId = job.coreJobId)
    (hstatus : job'.status = .completed → job.status = .completed) :
    SessionKept w p (s.setJob job') := by
  refine h.setJob (fun hc => ?_) (fun r hr hrow => ?_) fun j hj hjid _ => ?_
  · rw [hid]
    exact h.jobs.completed job hjob (hstatus hc)
  · rw [hcore]
    exact h.jobs.results job hjob r hr (hrow.trans hid)
  · rw [hcore, List.inj_on_of_nodup_map h.jobs.ids hj hjob (hjid.trans hid)]

theorem handOut (h : SessionKept w p s) {c : String} (hc : HandedOut w p c) (report : ResultJson) :
    SessionKept w p { s with fetched := (c, report) :: s.fetched } where
  jobs := h.jobs.mono (List.subset_cons_self ..)
  covered := fun d hd =>
    (h.covered d hd).mono (List.Subset.refl _) (List.Subset.refl _) (List.subset_cons_self ..)
  handed := by
    intro q hq
    rcases List.mem_cons.mp hq with rfl | hold
    · exact hc
    · exact h.handed q hold
  grown := fun q hq => List.mem_cons_of_mem _ (h.grown hq)
  uncut := fun hnone d hd =>
    (h.uncut hnone d hd).mono (List.Subset.refl _) (List.Subset.refl _) (List.subset_cons_self ..)

end SessionKept

theorem markTransientError_id (now : ℤ) (error : String) (job : Job) :
    (markTransientError cfg now error job).id = job.id := by
  simp only [markTransientError]
  split
  · rfl
  · split <;> rfl

theorem markTransientError_coreJobId (now : ℤ) (error : String) (job : Job) :
    (markTransientError cfg now error job).coreJobId = job.coreJobId := by
  simp only [markTransientError]
  split
  · rfl
  · split <;> rfl

theorem markTransientError_status (now : ℤ) (error : String) (job : Job) :
    (markTransientError cfg now error job).status ≠ .completed := by
  simp only [markTransientError]
  split
  · exact JobStatus.noConfusion
  · split <;> exact JobStatus.noConfusion

namespace SessionKept

variable {w : World} {p : PollRun} {s : Session}

theorem transientError (h : SessionKept w p s) {job : Job} (hjob : job ∈ s.jobs) (now : ℤ)
    (error : String) : SessionKept w p (s.setJob (markTransientError cfg now error job)) :=
  h.changeJob hjob (markTransientError_id ..) (markTransientError_coreJobId ..)
    fun hc => absurd hc (markTransientError_status now error job)

theorem persistHistory (h : SessionKept w p s) {job : Job} (hjob : job ∈ s.jobs)
    {report : ResultJson} (hreport : (job.coreJobId, report) ∈ s.fetched) (configs : List ℕ)
    (completedAt : Option ℤ) :
    SessionKept w p (s.persistHistory configs completedAt report job).state ∧
      ∀ s', s.persistHistory configs completedAt report job = .done s' →
        job ∈ s'.jobs ∧ ∃ r ∈ s'.db.history, r.tradeJobId = job.id := by
  rw [Session.persistHistory]
  split
  · rename_i hany
    refine ⟨h, fun s' hs' => ?_⟩
    obtain ⟨r, hr, hid⟩ := List.any_eq_true.mp hany
    cases hs'
    exact ⟨hjob, r, hr, of_decide_eq_true hid⟩
  · dsimp only
    split
    · constructor
      · refine ⟨⟨h.jobs.ids, ?_, ?_, ?_⟩, ?_, h.handed, h.grown, h.uncut⟩
        · intro j hj hc
          obtain ⟨r, hr, hid⟩ := h.jobs.completed j hj hc
          exact ⟨r, List.mem_append_left _ hr, hid⟩
        · intro j hj r hr hid
          rcases List.mem_append.mp hr with hold | hnew
          · exact h.jobs.results j hj r hold hid
          · -- the identifiers are unique, so that the new row is one of this job alone
            obtain rfl := List.mem_singleton.mp hnew
            have hsame : job = j := List.inj_on_of_nodup_map h.jobs.ids hjob hj hid
            subst hsame
            exact hreport
        · intro r hr
          rcases List.mem_append.mp hr with hold | hnew
          · exact h.jobs.owned r hold
          · obtain rfl := List.mem_singleton.mp hnew
            exact ⟨job, hjob, rfl⟩
        · exact fun c hc =>
            (h.covered c hc).mono (List.Subset.refl _) (List.subset_append_left ..)
              (List.Subset.refl _)
      · intro s' hs'
        cases hs'
        exact ⟨hjob, _, List.mem_append_right _ (List.mem_singleton_self _), rfl⟩
    · exact ⟨h, fun s' hs' => by cases hs'⟩

theorem completeJob (h : SessionKept w p s) {job : Job} (hjob : job ∈ s.jobs)
    (hrow : ∃ r ∈ s.db.history, r.tradeJobId = job.id)
    (hdeletes : ¬ ∀ b ∈ p.batches, ∀ id c, ¬ b.Deletes id c) (now completedAt : ℤ)
    (delete : Answer Bool) :
    SessionKept w p (s.completeJob cfg now completedAt delete job).state := by
  have hset : ∀ job' : Job, job'.id = job.id → job'.coreJobId = job.coreJobId →
      ∀ t : Session, t.db = s.db → t.fetched = s.fetched →
        (∀ j ∈ t.jobs, j.id = job.id → j.coreJobId = job.coreJobId) → SessionKept w p t →
          SessionKept w p (t.setJob job') := by
    intro job' hid hcore t hdb hfetched hsame ht
    refine ht.setJob (fun _ => ?_) (fun r hr hrow => ?_) fun j hj hjid _ => ?_
    · rw [hdb, hid]
      exact hrow
    · rw [hcore, hfetched]
      rw [hdb] at hr
      exact h.jobs.results job hjob r hr (hrow.trans hid)
    · rw [hcore, hsame j hj (hjid.trans hid)]
  have hown : ∀ j ∈ s.jobs, j.id = job.id → j.coreJobId = job.coreJobId := fun j hj hid => by
    rw [List.inj_on_of_nodup_map h.jobs.ids hj hjob hid]
  have hcall : SessionKept w p (s.callDelete job.coreJobId) := by
    refine ⟨h.jobs, fun c hc => ?_, h.handed, h.grown, fun hnone => absurd hnone hdeletes⟩
    rcases List.mem_cons.mp hc with rfl | hold
    · exact h.jobs.hasRow hjob hrow
    · exact h.covered c hold
  have hfirst := hset (job.complete cfg now completedAt) rfl rfl (s.callDelete job.coreJobId)
    rfl rfl hown hcall
  have hkept : ∀ j ∈ ((s.callDelete job.coreJobId).setJob (job.complete cfg now completedAt)).jobs,
      j.id = job.id → j.coreJobId = job.coreJobId := by
    intro j hj hid
    obtain ⟨i, hi, rfl⟩ := List.mem_map.mp hj
    by_cases hsame : i.id = (job.complete cfg now completedAt).id
    · rw [if_pos hsame]
      rfl
    · rw [if_neg hsame] at hid ⊢
      exact hown i hi hid
  have hlast : ∀ deletedAt stats,
      SessionKept w p
        { Session.setJob { job.complete cfg now completedAt with coreDeletedAt := deletedAt }
            ((s.callDelete job.coreJobId).setJob (job.complete cfg now completedAt)) with
          stats := stats } :=
    fun deletedAt stats => (hset
      { job.complete cfg now completedAt with coreDeletedAt := deletedAt } rfl rfl
      ((s.callDelete job.coreJobId).setJob (job.complete cfg now completedAt)) rfl rfl hkept
        hfirst).setStats stats
  simp only [Session.completeJob]
  split
  · exact hfirst
  · exact hlast none _
  · split
    · exact hlast (some now) _
    · exact hlast none _

theorem processCompletedJob (h : SessionKept w p s) {job : Job} (hjob : job ∈ s.jobs)
    {b : PollBatch} (hb : b ∈ p.batches) (now : ℤ) (coreStatus : CoreJobStatus) :
    SessionKept w p (processCompletedJob cfg now b coreStatus job s).state := by
  rw [Analysis.processCompletedJob]
  split
  · exact h
  · exact (h.transientError hjob now _).setStats _
  · rename_i result hfetch
    split
    · exact (h.transientError hjob now _).setStats _
    · rename_i report hreport
      have hsome : (b.report job.id job.coreJobId).isSome := by
        rw [PollBatch.report, hfetch]
        show result.report.isSome
        rw [hreport]
        rfl
      have hhanded := h.handOut (.inr ⟨b, hb, job.id, hsome⟩) report
      have hpersist := hhanded.persistHistory hjob (List.mem_cons_self ..) (b.configs job.id)
        result.completedAt
      dsimp only
      cases hend : Session.persistHistory (b.configs job.id) result.completedAt report job
          { s with fetched := (job.coreJobId, report) :: s.fetched } with
      | raised s' =>
        rw [hend] at hpersist
        exact hpersist.1
      | done s' =>
        rw [hend] at hpersist
        obtain ⟨hjob', hrow⟩ := hpersist.2 s' rfl
        show SessionKept w p (ite _ _ _ : Raising Session).state
        split
        · exact hpersist.1
        · rename_i hbreaks
          refine hpersist.1.completeJob hjob' hrow (fun hnone => ?_) _ _ _
          exact hnone b hb job.id job.coreJobId ⟨hsome, by simpa using hbreaks⟩

theorem processFailedJob (h : SessionKept w p s) (hp : p.Harmless cfg w) {job : Job}
    (hjob : job ∈ s.jobs) {b : PollBatch} (hb : b ∈ p.batches)
    (hfailed : b.ReportsFailed job.coreJobId) (now : ℤ) (error : String) :
    SessionKept w p (processFailedJob cfg now b error job s).state := by
  rw [Analysis.processFailedJob]
  split
  · have hset : SessionKept w p (s.setJob
        { job with status := .failed, error := some error, completedAt := some now }) :=
      h.changeJob hjob rfl rfl fun hc => JobStatus.noConfusion hc
    exact hset.setStats _
  · split
    · exact h
    · exact (h.transientError hjob now _).setStats _
    · rename_i accepted hrequest
      -- a job that has a row is not asked for again
      have hnone : ¬∃ r ∈ s.db.history, r.tradeJobId = job.id := by
        rintro ⟨r, hr, hid⟩
        have hhanded := h.handed _ (h.jobs.results job hjob r hr hid)
        have hfinal := hp.final b hb job.id job.coreJobId hhanded hfailed
        rw [hrequest] at hfinal
        exact hfinal trivial
      refine (h.setJob (fun hc => ?_) (fun r hr hid => ?_) fun _ _ _ hrow => ?_).setStats _
      · have hpending := hp.pending b hb job.id job.coreJobId
        rw [hrequest] at hpending
        have hstatus : normalizeStatus accepted.status = .completed := hc
        exact absurd hstatus hpending
      · exact absurd ⟨r, hr, hid⟩ hnone
      · exact absurd hrow hnone

theorem processJob (h : SessionKept w p s) (hp : p.Harmless cfg w) {job : Job}
    (hjob : job ∈ s.jobs) {b : PollBatch} (hb : b ∈ p.batches) {statuses : List CoreJobStatus}
    (hstatuses : b.statuses = .ok statuses) (now : ℤ) :
    SessionKept w p (processJob cfg now b statuses job s).state := by
  rw [Analysis.processJob]
  split
  · exact h.changeJob hjob rfl rfl id
  · rename_i coreStatus hcore
    split
    · exact h.processCompletedJob hjob hb now coreStatus
    · rename_i hfailed
      exact h.processFailedJob hp hjob hb ⟨statuses, coreStatus, hstatuses, hcore, hfailed⟩ now _
    · rename_i status hne _
      exact h.changeJob hjob rfl rfl fun hc => absurd hc hne

end SessionKept

/-! ## The cleanup -/

theorem sessionKept_cleanup {w : World} (hjobs : JobsKept w.db.jobs w.db.history w.fetched)
    (hlost : NothingLost w) (p : PollRun) :
    SessionKept w p
      (Raising.each (cleanupJob p) (cleanupJobs cfg p w.db.jobs) (Session.start w)).state := by
  have hstart : SessionKept w p (Session.start w) :=
    ⟨hjobs, hlost, fun q hq => .inl ⟨q.2, hq⟩, List.Subset.refl _, fun _ => hlost⟩
  -- the cleanup changes no identifier
  refine (Raising.each_keeps
    (I := fun s => SessionKept w p s ∧ s.db = w.db ∧
      s.jobs.map (fun j => (j.id, j.coreJobId)) = w.db.jobs.map fun j => (j.id, j.coreJobId))
    (fun job hjob s hs => ?_) ⟨hstart, rfl, rfl⟩).1
  obtain ⟨hkept, hdb, hnames⟩ := hs
  have hselected := List.mem_filter.mp
    ((List.mem_insertionSort _).mp (List.mem_of_mem_take hjob))
  have hmem : job ∈ w.db.jobs := hselected.1
  have hcompleted : job.status = .completed := by
    have hwhere := hselected.2
    simp only [Bool.and_eq_true, decide_eq_true_eq] at hwhere
    exact hwhere.1.1
  have hrow := hjobs.completed job hmem hcompleted
  have hcommitted : HasRow w.db.jobs w.db.history s.fetched job.coreJobId :=
    (hjobs.hasRow hmem hrow).mono (List.Subset.refl _) (List.Subset.refl _) hkept.grown
  have hsame : ∀ j ∈ s.jobs, j.id = job.id → j.coreJobId = job.coreJobId := by
    intro j hj hid
    obtain ⟨i, hi, heq⟩ := List.mem_map.mp (hnames ▸ List.mem_map_of_mem hj)
    obtain ⟨hiid, hicore⟩ := Prod.mk.inj heq
    rw [← hicore, List.inj_on_of_nodup_map hjobs.ids hi hmem (hiid.trans hid)]
  have hcall : SessionKept w p (s.callDelete job.coreJobId) := by
    refine ⟨hkept.jobs, fun c hc => ?_, hkept.handed, hkept.grown, fun hnone c hc => ?_⟩
    · rcases List.mem_cons.mp hc with rfl | hold
      · obtain ⟨i, hi, heq⟩ := List.mem_map.mp
          (hnames.symm ▸ List.mem_map_of_mem (f := fun j : Job => (j.id, j.coreJobId)) hmem)
        obtain ⟨hid, hcore⟩ := Prod.mk.inj heq
        rw [← hcore]
        refine hkept.jobs.hasRow hi ?_
        rw [hdb, hid]
        exact hrow
      · exact hkept.covered c hold
    · rcases List.mem_cons.mp hc with rfl | hold
      · exact hcommitted
      · exact hkept.uncut hnone c hold
  rw [cleanupJob]
  split
  · exact ⟨hcall, hdb, hnames⟩
  · exact ⟨hcall.setStats _, hdb, hnames⟩
  · split
    · refine ⟨hcall.setJob (fun _ => ?_) (fun r hr hid => ?_)
        fun j hj hid _ => (hsame j hj hid).symm, hdb, ?_⟩
      · show ∃ r ∈ s.db.history, r.tradeJobId = job.id
        rw [hdb]
        exact hrow
      · have hr' : r ∈ w.db.history := by
          rw [← hdb]
          exact hr
        exact hkept.grown (hjobs.results job hmem r hr' hid)
      · refine Eq.trans (List.map_map.trans (List.map_congr_left fun j hj => ?_)) hnames
        rw [Function.comp_apply]
        split
        · next hid => rw [hsame j hj hid, hid]
        · rfl
    · exact ⟨hcall.setStats _, hdb, hnames⟩

/-! ## Runs -/

/-- What the commits of a run keep. -/
structure Kept (w : World) : Prop where
  jobs : JobsKept w.db.jobs w.db.history w.fetched
  nothingLost : NothingLost w

theorem Kept.insertJobs {w w' : World} (h : Kept w) {commits : Bool} {added : List Job}
    (hstatus : ∀ j ∈ added, j.status ≠ .completed)
    (hinsert : w.insertJobs commits added = some w') : Kept w' := by
  obtain ⟨rfl, hvalid⟩ := insertJobs_eq_some hinsert
  exact ⟨h.jobs.append hvalid.1 hstatus, fun c hc => (h.nothingLost c hc).mono
    (List.subset_append_left ..) (List.Subset.refl _) (List.Subset.refl _)⟩

theorem dispatchBatches_added {now : ℤ} {committed : List Profile} {batches : List DispatchBatch}
    (hpending : ∀ b ∈ batches, ∀ id, ¬ (b.request id).CompletedAtOnce) {s : DispatchSession}
    (hs : ∀ j ∈ s.added, j.status ≠ .completed) :
    ∀ j ∈ (dispatchBatches cfg now committed batches s).state.added, j.status ≠ .completed := by
  induction batches generalizing s with
  | nil => exact hs
  | cons b batches ih =>
    rw [dispatchBatches]
    split
    · exact hs
    · refine Raising.andThen_keeps
        (I := fun s : DispatchSession => ∀ j ∈ s.added, j.status ≠ .completed) ?_ fun s' hs' => ?_
      · refine Raising.each_keeps
          (I := fun s : DispatchSession => ∀ j ∈ s.added, j.status ≠ .completed)
          (fun profile _ s hs => ?_) hs
        rw [dispatchProfile]
        split
        · exact hs
        · split
          · exact hs
          · exact hs
          · rename_i accepted hrequest
            have hb := hpending b (List.mem_cons_self ..) profile.id
            rw [hrequest] at hb
            intro j hj
            rcases List.mem_append.mp hj with hold | hnew
            · exact hs j hold
            · rw [List.mem_singleton.mp hnew]
              exact hb
      · split
        · exact hs'
        · exact ih (fun b' hb' => hpending b' (List.mem_cons_of_mem _ hb')) hs'

theorem Kept.poll {w : World} (h : Kept w) {p : PollRun} (hp : p.Harmless cfg w) :
    Kept (pollPendingJobs cfg p w).1 := by
  have hsession : SessionKept w p (pollSession cfg p w).state :=
    pollSession_keeps (fun s stats hs => hs.setStats stats)
      (sessionKept_cleanup h.jobs h.nothingLost p)
      (fun message job s hjob hs => (hs.transientError hjob p.now message).setStats _)
      fun b hb statuses hstatuses job s hjob hs => hs.processJob hp hjob hb hstatuses p.now
  rw [pollPendingJobs]
  split
  · exact h
  · split
    · rename_i db hcommit
      rw [flushed_of_pollCommit hcommit]
      exact ⟨hsession.jobs, hsession.covered⟩
    · rename_i hcommit
      have hnone : ∀ b ∈ p.batches, ∀ id c, ¬ b.Deletes id c := by
        refine hp.survives.resolve_left ?_
        rw [hcommit]
        exact Bool.noConfusion
      exact ⟨h.jobs.mono hsession.grown, hsession.uncut hnone⟩

theorem Kept.step {w w' : World} {a : Step} (h : Kept w) (ha : Harmless cfg w a)
    (hstep : step cfg w a = some w') : Kept w' := by
  cases a with
  | editProfiles profiles =>
    obtain rfl := Option.some.inj hstep
    exact ⟨h.jobs, h.nothingLost⟩
  | trigger t =>
    obtain rfl := Option.some.inj hstep
    rcases @triggerProfile_cases cfg t w with hsame | ⟨_, _, accepted, hrequest, hinsert⟩
    · rw [hsame]
      exact h
    · refine h.insertJobs (fun j hj => ?_) hinsert
      have hpending : ¬ t.request.CompletedAtOnce := ha
      rw [hrequest] at hpending
      rw [List.mem_singleton.mp hj]
      exact hpending
  | dispatch d =>
    obtain rfl := Option.some.inj hstep
    rcases @dispatchDueProfiles_cases cfg d w with hsame | ⟨s, w', hs, hinsert, hw⟩
    · rw [hsame]
      exact h
    · have hadded : ∀ j ∈ (dispatchBatches cfg d.now w.profiles d.batches
          { profiles := w.profiles }).state.added, j.status ≠ .completed :=
        dispatchBatches_added ha fun j hj => absurd hj List.not_mem_nil
      rw [hs] at hadded
      have hkept := h.insertJobs hadded hinsert
      rw [hw]
      exact ⟨hkept.jobs, hkept.nothingLost⟩
  | poll p =>
    obtain rfl := Option.some.inj hstep
    exact h.poll ha

/-- **Analyses are kept.**  In every run a job has at most one row of history, whose signal is
enqueued once.  If the steps of the run meet the conditions, what the core was asked to delete is in
the committed row of its job. -/
theorem analysis_kept {profiles : List Profile} {steps : List Step} {w : World}
    (hrun : StepSystem.run (step cfg) { profiles := profiles } steps = some w) :
    RowsAndSignals w.db ∧
      (StepSystem.AlongRun (step cfg) (Harmless cfg) { profiles := profiles } steps →
        NothingLost w) := by
  refine ⟨rowsAndSignals_run hrun, fun hharmless => ?_⟩
  have hstart : Kept { profiles := profiles } := by
    refine ⟨⟨List.nodup_nil, ?_, ?_, ?_⟩, ?_⟩ <;> exact fun _ h => absurd h List.not_mem_nil
  exact (StepSystem.invariant_of_alongRun (step cfg) (I := Kept)
    (fun _ _ _ h ha hstep => h.step ha hstep) hstart hharmless hrun).nothingLost

end

/-! ## A core at work -/

def idleProfile : Profile where
  id := 1
  userId := 1
  isActive := false
  intervalMinutes := 60
  nextRunAt := 0

/-- A trigger whose request is answered with a status. -/
def triggered (id coreJobId status : String) : Step :=
  .trigger {
    now := 0
    userId := 1
    profileId := 1
    payload := some ⟨"BTCUSDT"⟩
    request := .ok ⟨coreJobId, status⟩
    newId := id
    commits := true }

/-- The answers of a core that hands out all results and deletes what it is asked to. -/
def reported (statuses : List CoreJobStatus) (request : Answer CoreAcceptedJob) : PollBatch where
  locked _ := false
  statuses := .ok statuses
  fetch _ c := .ok { status := "completed", resultJson := some c }
  configs _ := [7]
  breaks _ := false
  delete _ _ := .ok true
  request _ _ := request

def polled (now : ℤ) (batches : List PollBatch) (commits : Bool) : Step :=
  .poll {
    now := now
    updatedAt _ := 0
    locked _ := false
    delete _ _ := .ok true
    batches := batches
    commits := commits }

/-- A job is completed, stored and deleted. -/
theorem analysis_kept_completed :
    ∃ w, StepSystem.run (step {}) { profiles := [idleProfile] }
        [triggered "a" "core-a" "pending",
          polled 60 [reported [⟨"core-a", "completed", none, none⟩] (.providerError "busy")] true] =
          some w ∧
      w.deleteCalls = ["core-a"] ∧ RowsAndSignals w.db ∧ NothingLost w := by
  have hkept := @analysis_kept {} [idleProfile]
    [triggered "a" "core-a" "pending",
      polled 60 [reported [⟨"core-a", "completed", none, none⟩] (.providerError "busy")] true] _ rfl
  refine ⟨_, rfl, by decide +kernel, hkept.1, hkept.2 ?_⟩
  refine (StepSystem.alongRun_cons _ rfl).mpr
    ⟨?_, (StepSystem.alongRun_cons _ rfl).mpr ⟨?_, trivial⟩⟩
  · show ¬ normalizeStatus "pending" = .completed
    decide +kernel
  · refine ⟨fun b hb _ _ h => ?_, fun b hb _ _ _ _ h => ?_, .inl (by decide +kernel)⟩
    · rw [List.mem_singleton.mp hb] at h
      exact h
    · rw [List.mem_singleton.mp hb] at h
      exact h

/-- A result is lost when the core answers the request with `completed`, when a poll is rolled back
behind a deletion, and when a job is asked for again behind its row: in a full batch the poll
selects a job again that it has just completed. -/
theorem analysis_lost :
    (∀ w ∈ StepSystem.run (step {}) { profiles := [idleProfile] }
        [triggered "a" "core-a" "completed", polled 60 [reported [] .raises] true],
      ¬ NothingLost w) ∧
    (∀ w ∈ StepSystem.run (step {}) { profiles := [idleProfile] }
        [triggered "a" "core-a" "pending",
          polled 60 [reported [⟨"core-a", "completed", none, none⟩] .raises] false],
      ¬ NothingLost w) ∧
    (∀ w ∈ StepSystem.run (step { statusBatchSize := 2 }) { profiles := [idleProfile] }
        [triggered "a" "core-a" "pending", triggered "b" "core-b" "pending",
          polled 60
            [reported [⟨"core-a", "completed", none, none⟩, ⟨"core-b", "pending", none, none⟩]
                .raises,
              reported [⟨"core-a", "failed", none, none⟩, ⟨"core-b", "completed", none, none⟩]
                (.ok ⟨"core-c", "pending"⟩),
              reported [] .raises] true,
          polled 120 [reported [⟨"core-c", "completed", none, none⟩] .raises] true],
      ¬ NothingLost w) := by
  refine ⟨?_, ?_, ?_⟩ <;> rintro w ⟨⟩ <;> decide +kernel

end Analysis

end AdviserConstructor
