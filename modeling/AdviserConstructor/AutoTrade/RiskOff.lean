import AdviserConstructor.AutoTrade.ConfigStore
import AdviserConstructor.Library.StepSystem
import AdviserConstructor.Ws.Hydration

/-!
# The risk-off latch of the kill-switch

`kill_switch_close_position` closes a position on the market, pauses the strategy and latches it
until somebody starts it again.  The close is committed by the flatten before the pause and the
latch are written, and a worker that has locked the configuration before the pause goes on with the
signals in its hands.

Sessions do not expire what they have loaded, and a row that a session has loaded is not read again
when it is locked.  The kill-switch decides about the pause on the row that it has loaded before the
flatten, and a bulk start writes the columns in which the started row differs from the one that it
has listed.  Only the changed columns are written by a commit.

The state is the committed row of one strategy with its lock, the sessions that have loaded it, and
what has happened on the exchange: whether the kill-switch has closed a position since the last
start, and whether an entry order has been placed since then.

* `RiskOffRun.riskOff_of_guarded`: along runs whose steps are guarded, no reached state is latched
  and running, and no entry follows a close of the kill-switch before a start.
* `RiskOffRun.disturbed_not_riskOff`: a bulk start that has listed the strategy before the latch,
  and a signal that is processed between the close and the pause.
-/

namespace AdviserConstructor

open StepSystem ConfigStore

/-! ## What a session commits -/

/-- The commit of a session that has loaded `loaded` and made `written` of it: the changed columns
are written. -/
def AutoTradeConfig.commit (loaded written stored : AutoTradeConfig) : AutoTradeConfig :=
  { stored with
    enabled := Row.column loaded.enabled written.enabled stored.enabled
    isRunning := Row.column loaded.isRunning written.isRunning stored.isRunning
    lastStartedAt := Row.column loaded.lastStartedAt written.lastStartedAt stored.lastStartedAt
    lastStoppedAt := Row.column loaded.lastStoppedAt written.lastStoppedAt stored.lastStoppedAt
    riskOffLatched := Row.column loaded.riskOffLatched written.riskOffLatched stored.riskOffLatched
    riskOffReason := Row.column loaded.riskOffReason written.riskOffReason stored.riskOffReason
    riskOffAt := Row.column loaded.riskOffAt written.riskOffAt stored.riskOffAt }

/-! ## The parties -/

/-- Who holds the lock of the row. -/
inductive LockHolder where
  | killSwitch | worker
  deriving DecidableEq

/-- How the flatten of the kill-switch ends on the exchange. -/
inductive FlattenOutcome where
  | marketClosed | alreadyFlat | closeFailed
  deriving DecidableEq

/-- The kill-switch in its flow, with the row that it has loaded. -/
inductive KillPhase where
  | idle
  | loaded (config : AutoTradeConfig)
  /-- The flatten has been at the exchange. -/
  | flattened (config : AutoTradeConfig)
  | committed (config : AutoTradeConfig)
  /-- The row is locked, the pause and the latch are written and not committed. -/
  | paused (config written : AutoTradeConfig)
  deriving DecidableEq

/-- A worker of the signal queue: it holds the lock of a row that it has loaded. -/
inductive WorkerPhase where
  | idle
  | holding (config written : AutoTradeConfig)
  deriving DecidableEq

/-- The state of one strategy. -/
structure RiskOffState where
  config : AutoTradeConfig
  lock : Option LockHolder := none
  kill : KillPhase := .idle
  worker : WorkerPhase := .idle
  /-- The rows that sessions have loaded without a lock. -/
  loads : List AutoTradeConfig := []
  /-- The kill-switch has closed a position, and nobody has started the strategy since. -/
  closedByKill : Bool := false
  /-- An entry order was placed behind a close of the kill-switch, before a start. -/
  lateEntry : Bool := false
  deriving DecidableEq

/-- A step of one of the parties. -/
inductive RiskOffOp where
  | killLoad
  | killFlatten (outcome : FlattenOutcome)
  | killCommitClose
  | killPause (reason : String) (now : ℕ)
  | killCommit
  /-- The flow raises; its session is discarded. -/
  | killFail
  /-- A worker takes a signal of the strategy and locks its row. -/
  | workerBegin
  /-- The signal is processed without an open position and goes through all gates. -/
  | workerEntry
  /-- The pause of the KPI guard behind a close. -/
  | workerPause (now : ℕ)
  | workerCommit
  | workerFail
  /-- A session loads the row without locking it. -/
  | load
  /-- `set_running` on a row that the bulk operation has listed. -/
  | bulkSetRunning (session : ℕ) (isRunning accountIsDemo : Bool) (now : ℕ)
  /-- The pause of the KPI guard in a session that has loaded the row. -/
  | guardPause (session now : ℕ)
  | setRunning (isRunning accountIsDemo : Bool) (now : ℕ)
  | upsert (payload : UpsertRequest) (now : ℕ)
  | promote
  | demote (now : ℕ)

/-- The gate of a start: the strategy is enabled, and live or on a demo account. -/
def startAllowed (row : AutoTradeConfig) (isRunning accountIsDemo : Bool) : Prop :=
  isRunning = true → row.enabled = true ∧ (row.lifecycleStage = .live ∨ accountIsDemo = true)

instance (row : AutoTradeConfig) (isRunning accountIsDemo : Bool) :
    Decidable (startAllowed row isRunning accountIsDemo) :=
  inferInstanceAs (Decidable (_ → _))

namespace RiskOffState

/-- A committed write of a session that finds the row unlocked. -/
def write (s : RiskOffState) (row : AutoTradeConfig) : Option RiskOffState :=
  if s.lock = none then some { s with config := row } else none

/-- A committed `set_running`: a start ends what the kill-switch has begun. -/
def writeRunning (s : RiskOffState) (row : AutoTradeConfig) (isRunning : Bool) :
    Option RiskOffState :=
  if s.lock = none then
    some { s with config := row, closedByKill := s.closedByKill && !isRunning }
  else none

def step (s : RiskOffState) : RiskOffOp → Option RiskOffState
  | .killLoad =>
      match s.kill with
      | .idle => some { s with kill := .loaded s.config }
      | _ => none
  | .killFlatten outcome =>
      match s.kill with
      | .loaded config =>
          some
            { s with
              kill := .flattened config
              closedByKill := s.closedByKill || outcome = .marketClosed }
      | _ => none
  | .killCommitClose =>
      match s.kill with
      | .flattened config => some { s with kill := .committed config }
      | _ => none
  | .killPause reason now =>
      match s.kill with
      | .committed config =>
          if s.lock = none then
            some
              { s with
                kill := .paused config (latchedConfig (pausedConfig config now) reason now)
                lock := some .killSwitch }
          else none
      | _ => none
  | .killCommit =>
      match s.kill with
      | .paused config written =>
          some { s with config := config.commit written s.config, kill := .idle, lock := none }
      | _ => none
  | .killFail =>
      match s.kill with
      | .idle => none
      | .paused _ _ => some { s with kill := .idle, lock := none }
      | _ => some { s with kill := .idle }
  | .workerBegin =>
      if s.worker = .idle ∧ s.lock = none then
        some { s with worker := .holding s.config s.config, lock := some .worker }
      else none
  | .workerEntry =>
      match s.worker with
      | .holding _ written =>
          if written.enabled ∧ written.isRunning then
            some { s with lateEntry := s.lateEntry || s.closedByKill }
          else none
      | .idle => none
  | .workerPause now =>
      match s.worker with
      | .holding config written =>
          some { s with worker := .holding config (pausedConfig written now) }
      | .idle => none
  | .workerCommit =>
      match s.worker with
      | .holding config written =>
          some { s with config := config.commit written s.config, worker := .idle, lock := none }
      | .idle => none
  | .workerFail =>
      match s.worker with
      | .holding _ _ => some { s with worker := .idle, lock := none }
      | .idle => none
  | .load => some { s with loads := s.loads ++ [s.config] }
  | .bulkSetRunning session isRunning accountIsDemo now =>
      match s.loads[session]? with
      | none => none
      | some listed =>
          if listed.isRunning = isRunning ∨ ¬startAllowed listed isRunning accountIsDemo then none
          else
            s.writeRunning (listed.commit (runningConfig listed isRunning now) s.config) isRunning
  | .guardPause session now =>
      match s.loads[session]? with
      | none => none
      | some loaded => s.write (loaded.commit (pausedConfig loaded now) s.config)
  | .setRunning isRunning accountIsDemo now =>
      if startAllowed s.config isRunning accountIsDemo then
        s.writeRunning (runningConfig s.config isRunning now) isRunning
      else none
  | .upsert payload now => s.write (updatedConfig s.config payload now)
  | .promote =>
      if s.config.lifecycleStage = .sandbox then
        s.write { s.config with lifecycleStage := .live, sandboxEnteredAt := none }
      else none
  | .demote now =>
      match s.config.lifecycleStage.applyTransition .demote with
      | none => none
      | some stage => s.write (demotedConfig s.config stage now)

/-! ## The promise -/

/-- The strategy is latched and runs. -/
def LatchedAndRunning (s : RiskOffState) : Prop :=
  s.config.riskOffLatched = true ∧ s.config.isRunning = true

instance (s : RiskOffState) : Decidable s.LatchedAndRunning :=
  inferInstanceAs (Decidable (_ ∧ _))

/-- What the kill-switch promises: nobody runs latched, and nobody enters behind its close before a
start. -/
def RiskOffHolds (s : RiskOffState) : Prop := ¬s.LatchedAndRunning ∧ s.lateEntry = false

instance (s : RiskOffState) : Decidable s.RiskOffHolds :=
  inferInstanceAs (Decidable (_ ∧ _))

/-- The kill-switch has been at the exchange and has not locked the row. -/
def inWindow (s : RiskOffState) : Bool :=
  match s.kill with
  | .flattened _ | .committed _ => true
  | _ => false

/-- The row of a kill-switch that is about to pause. -/
def pausing? (s : RiskOffState) : Option AutoTradeConfig :=
  match s.kill with
  | .committed config => some config
  | _ => none

/-- **The guarded steps.**

* No entry order is placed between a close of the kill-switch and its pause.
* The flow does not fail behind its close while the strategy runs.
* The pause finds the strategy running only if the kill-switch has loaded it so; or it was latched
  when it was loaded, and has been started behind the close.
* A bulk start does not find the strategy latched that it has listed without the latch. -/
def Guarded (s : RiskOffState) : RiskOffOp → Prop
  | .workerEntry => ¬(s.inWindow = true ∧ s.closedByKill = true)
  | .killFail => s.closedByKill = true → s.config.isRunning = false
  | .killPause _ _ =>
      ∀ config ∈ s.pausing?, s.config.isRunning = true →
        config.isRunning = true ∨ config.riskOffLatched = true ∧ s.closedByKill = false
  | .bulkSetRunning session isRunning _ _ =>
      isRunning = true → s.config.riskOffLatched = true →
        ∀ listed ∈ s.loads[session]?, listed.riskOffLatched = true
  | _ => True

instance (s : RiskOffState) : ∀ op : RiskOffOp, Decidable (s.Guarded op)
  | .workerEntry => inferInstanceAs (Decidable (¬(_ ∧ _)))
  | .killFail => inferInstanceAs (Decidable (_ → _))
  | .killPause _ _ => inferInstanceAs (Decidable (∀ config ∈ s.pausing?, _ → _))
  | .bulkSetRunning _ _ _ _ => inferInstanceAs (Decidable (_ → _ → ∀ listed ∈ s.loads[_]?, _))
  | .killLoad | .killFlatten _ | .killCommitClose | .killCommit | .workerBegin | .workerPause _
  | .workerCommit | .workerFail | .load | .guardPause _ _ | .setRunning _ _ _ | .upsert _ _
  | .promote | .demote _ => .isTrue trivial

end RiskOffState

/-! ## The columns of a commit -/

namespace AutoTradeConfig

theorem isRunning_commit_pausedConfig (loaded stored : AutoTradeConfig) (now : ℕ) :
    (loaded.commit (pausedConfig loaded now) stored).isRunning =
      (!loaded.isRunning && stored.isRunning) := by
  show Row.column loaded.isRunning (pausedConfig loaded now).isRunning stored.isRunning = _
  rw [isRunning_pausedConfig]
  cases loaded.isRunning <;> rfl

@[simp] theorem riskOffLatched_pausedConfig (row : AutoTradeConfig) (now : ℕ) :
    (pausedConfig row now).riskOffLatched = row.riskOffLatched := by
  rw [pausedConfig]
  split_ifs <;> rfl

theorem riskOffLatched_commit_pausedConfig (loaded stored : AutoTradeConfig) (now : ℕ) :
    (loaded.commit (pausedConfig loaded now) stored).riskOffLatched = stored.riskOffLatched := by
  show Row.column loaded.riskOffLatched (pausedConfig loaded now).riskOffLatched _ = _
  rw [riskOffLatched_pausedConfig, Row.column, if_pos rfl]

theorem isRunning_commit_latchedConfig (loaded stored : AutoTradeConfig) (reason : String)
    (now : ℕ) :
    (loaded.commit (latchedConfig (pausedConfig loaded now) reason now) stored).isRunning =
      (!loaded.isRunning && stored.isRunning) :=
  isRunning_commit_pausedConfig loaded stored now

theorem riskOffLatched_commit_latchedConfig (loaded stored : AutoTradeConfig) (reason : String)
    (now : ℕ) :
    (loaded.commit (latchedConfig (pausedConfig loaded now) reason now) stored).riskOffLatched =
      (!loaded.riskOffLatched || stored.riskOffLatched) := by
  show Row.column loaded.riskOffLatched true stored.riskOffLatched = _
  cases loaded.riskOffLatched <;> rfl

theorem riskOffLatched_commit_runningConfig (loaded stored : AutoTradeConfig) (isRunning : Bool)
    (now : ℕ) :
    (loaded.commit (runningConfig loaded isRunning now) stored).riskOffLatched =
      (stored.riskOffLatched && !(isRunning && loaded.riskOffLatched)) := by
  cases isRunning with
  | false =>
    show Row.column loaded.riskOffLatched loaded.riskOffLatched _ = _
    simp [Row.column]
  | true =>
    show Row.column loaded.riskOffLatched false _ = _
    rw [Row.column]
    cases loaded.riskOffLatched <;> simp

theorem isRunning_commit_runningConfig {loaded : AutoTradeConfig} {isRunning : Bool}
    (hchange : loaded.isRunning ≠ isRunning) (stored : AutoTradeConfig) (now : ℕ) :
    (loaded.commit (runningConfig loaded isRunning now) stored).isRunning = isRunning := by
  have hrow : (runningConfig loaded isRunning now).isRunning = isRunning := by
    cases isRunning <;> rfl
  show Row.column loaded.isRunning (runningConfig loaded isRunning now).isRunning _ = _
  rw [hrow, Row.column, if_neg hchange.symm]

end AutoTradeConfig

/-! ## What the guarded steps preserve -/

/-- The row that the kill-switch has loaded. -/
def KillPhase.config? : KillPhase → Option AutoTradeConfig
  | .idle => none
  | .loaded config | .flattened config | .committed config | .paused config _ => some config

namespace RiskOffState

/-- What holds along guarded runs.  Behind a close of the kill-switch the strategy is stopped, or
the kill-switch is about to stop it. -/
structure Invariant (s : RiskOffState) : Prop where
  unlatched : s.config.riskOffLatched = true → s.config.isRunning = false
  noLateEntry : s.lateEntry = false
  closed : s.closedByKill = true → s.config.isRunning = true →
    s.inWindow = true ∨ ∃ config written, s.kill = .paused config written
  loaded : ∀ config ∈ s.kill.config?, config.riskOffLatched = true → config.isRunning = false
  killLock : s.lock = some .killSwitch ↔ ∃ config written, s.kill = .paused config written
  paused : ∀ config written, s.kill = .paused config written →
    (∃ reason now, written = latchedConfig (pausedConfig config now) reason now) ∧
      (s.config.isRunning = true → config.isRunning = true ∨
        config.riskOffLatched = true ∧ s.closedByKill = false)
  workerLock : s.lock = some .worker ↔ ∃ config written, s.worker = .holding config written
  holding : ∀ config written, s.worker = .holding config written →
    config = s.config ∧ (written.isRunning = true → config.isRunning = true) ∧
      written.riskOffLatched = config.riskOffLatched

variable {s s' : RiskOffState}

theorem Invariant.riskOffHolds (h : s.Invariant) : s.RiskOffHolds := by
  refine ⟨?_, h.noLateEntry⟩
  rintro ⟨hlatched, hrunning⟩
  rw [h.unlatched hlatched] at hrunning
  exact absurd hrunning (by decide)

variable {config row : AutoTradeConfig}

theorem Invariant.write (h : s.Invariant) (hlock : s.lock = none) {closedByKill : Bool}
    (hunlatched : row.riskOffLatched = true → row.isRunning = false)
    (hclosed : closedByKill = true → s.closedByKill = true)
    (hstopped : closedByKill = true → row.isRunning = true → s.config.isRunning = true) :
    Invariant { s with config := row, closedByKill := closedByKill } where
  unlatched := hunlatched
  noLateEntry := h.noLateEntry
  closed hkill hrunning := h.closed (hclosed hkill) (hstopped hkill hrunning)
  loaded := h.loaded
  killLock := h.killLock
  paused config written hpaused := by
    have hlocked := h.killLock.mpr ⟨config, written, hpaused⟩
    rw [hlock] at hlocked
    cases hlocked
  workerLock := h.workerLock
  holding config written hholding := by
    have hlocked := h.workerLock.mpr ⟨config, written, hholding⟩
    rw [hlock] at hlocked
    cases hlocked

theorem Invariant.write_stopping (h : s.Invariant) (hstep : s.write row = some s')
    (hlatched : row.riskOffLatched = s.config.riskOffLatched)
    (hstopped : row.isRunning = true → s.config.isRunning = true) : s'.Invariant := by
  rw [RiskOffState.write] at hstep
  split_ifs at hstep with hlock
  rw [← Option.some.inj hstep]
  refine h.write hlock (fun hrow => ?_) id fun _ => hstopped
  by_contra hrunning
  rw [hlatched] at hrow
  rw [Bool.not_eq_false] at hrunning
  rw [h.unlatched hrow] at hstopped
  exact absurd (hstopped hrunning) (by decide)

theorem Invariant.writeRunning {isRunning : Bool} (h : s.Invariant)
    (hstep : s.writeRunning row isRunning = some s') (hrunning : row.isRunning = isRunning)
    (hunlatched : isRunning = true → row.riskOffLatched = false) : s'.Invariant := by
  rw [RiskOffState.writeRunning] at hstep
  split_ifs at hstep with hlock
  rw [← Option.some.inj hstep]
  cases isRunning with
  | true =>
    refine h.write hlock (fun hrow => ?_) (by simp) (by simp)
    rw [hunlatched rfl] at hrow
    cases hrow
  | false =>
    refine h.write hlock (fun _ => hrunning) (by simp) fun _ hrow => ?_
    rw [hrunning] at hrow
    cases hrow

theorem Invariant.moveKill (h : s.Invariant) {kill : KillPhase} {closedByKill : Bool}
    (hbefore : ∀ config written, s.kill ≠ .paused config written)
    (hafter : ∀ config written, kill ≠ .paused config written)
    (hloaded : ∀ config ∈ kill.config?, config.riskOffLatched = true → config.isRunning = false)
    (hclosed : closedByKill = true → s.config.isRunning = true →
      { s with kill := kill }.inWindow = true) :
    Invariant { s with kill := kill, closedByKill := closedByKill } where
  unlatched := h.unlatched
  noLateEntry := h.noLateEntry
  closed hkill hrunning := Or.inl (hclosed hkill hrunning)
  loaded := hloaded
  killLock := by
    refine iff_of_false (fun hlock => ?_) fun ⟨config, written, hpaused⟩ =>
      hafter config written hpaused
    obtain ⟨config, written, hpaused⟩ := h.killLock.mp hlock
    exact hbefore config written hpaused
  paused config written hpaused := absurd hpaused (hafter config written)
  workerLock := h.workerLock
  holding := h.holding

theorem Invariant.killPause (h : s.Invariant) (hkill : s.kill = .committed config)
    (hlock : s.lock = none) (reason : String) (now : ℕ) (hguard : s.config.isRunning = true →
      config.isRunning = true ∨ config.riskOffLatched = true ∧ s.closedByKill = false) :
    Invariant
      { s with
        kill := .paused config (latchedConfig (pausedConfig config now) reason now)
        lock := some .killSwitch } where
  unlatched := h.unlatched
  noLateEntry := h.noLateEntry
  closed _ _ := Or.inr ⟨_, _, rfl⟩
  loaded := by
    have hloaded := h.loaded
    rw [hkill] at hloaded
    exact hloaded
  killLock := iff_of_true rfl ⟨_, _, rfl⟩
  paused := by
    rintro _ _ ⟨⟩
    exact ⟨⟨reason, now, rfl⟩, hguard⟩
  workerLock := by
    refine iff_of_false (by simp) fun hholding => ?_
    rw [← h.workerLock, hlock] at hholding
    cases hholding
  holding := h.holding

/-- The commit of the kill-switch leaves a strategy that is latched, or left alone, and one that is
stopped if a position has been closed. -/
theorem Invariant.killCommit (h : s.Invariant) {written : AutoTradeConfig}
    (hkill : s.kill = .paused config written) :
    Invariant
      { s with config := config.commit written s.config, kill := .idle, lock := none } := by
  obtain ⟨⟨reason, now, rfl⟩, hguard⟩ := h.paused config written hkill
  have hlock : s.lock = some .killSwitch := h.killLock.mpr ⟨_, _, hkill⟩
  have hnot : ∀ config written, s.worker ≠ .holding config written := by
    intro config' written' hholding
    have hworker := h.workerLock.mpr ⟨config', written', hholding⟩
    rw [hlock] at hworker
    cases hworker
  constructor
  · show (config.commit _ s.config).riskOffLatched = true →
      (config.commit _ s.config).isRunning = false
    rw [AutoTradeConfig.isRunning_commit_latchedConfig,
      AutoTradeConfig.riskOffLatched_commit_latchedConfig]
    intro hlatched
    cases hrunning : s.config.isRunning with
    | false => rw [Bool.and_false]
    | true =>
      rcases hguard hrunning with hconfig | ⟨hconfig, -⟩
      · rw [hconfig]
        rfl
      · -- The latch that was loaded has been cleared since.
        rw [hconfig, Bool.not_true] at hlatched
        rw [h.unlatched hlatched] at hrunning
        cases hrunning
  · exact h.noLateEntry
  · show s.closedByKill = true → (config.commit _ s.config).isRunning = true → _
    rw [AutoTradeConfig.isRunning_commit_latchedConfig]
    intro hclosed hrunning
    rw [Bool.and_eq_true] at hrunning
    rcases hguard hrunning.2 with hconfig | ⟨-, hopen⟩
    · rw [hconfig] at hrunning
      exact absurd hrunning.1 (by decide)
    · rw [hopen] at hclosed
      cases hclosed
  · rintro _ ⟨⟩
  · exact iff_of_false (by simp) (by simp)
  · rintro _ _ ⟨⟩
  · exact iff_of_false (by simp) fun ⟨config', written', hholding⟩ => hnot config' written' hholding
  · exact fun config' written' hholding => absurd hholding (hnot config' written')

theorem Invariant.killFail (h : s.Invariant) {lock : Option LockHolder}
    (hlock : lock = some .killSwitch → False)
    (hworker : lock = some .worker ↔ ∃ config written, s.worker = .holding config written)
    (hguard : s.closedByKill = true → s.config.isRunning = false) :
    Invariant { s with kill := .idle, lock := lock } where
  unlatched := h.unlatched
  noLateEntry := h.noLateEntry
  closed hclosed hrunning := by
    rw [hguard hclosed] at hrunning
    cases hrunning
  loaded := by rintro _ ⟨⟩
  killLock := iff_of_false hlock (by simp)
  paused := by rintro _ _ ⟨⟩
  workerLock := hworker
  holding := h.holding

theorem Invariant.workerEnd (h : s.Invariant) {written : AutoTradeConfig}
    (hholding : s.worker = .holding config written)
    (hlatched : row.riskOffLatched = s.config.riskOffLatched)
    (hstopped : row.isRunning = true → s.config.isRunning = true) :
    Invariant { s with config := row, worker := .idle, lock := none } := by
  have hlock : s.lock = some .worker := h.workerLock.mpr ⟨_, _, hholding⟩
  have hnot : ∀ config written, s.kill ≠ .paused config written := by
    intro config' written' hpaused
    have hkill := h.killLock.mpr ⟨config', written', hpaused⟩
    rw [hlock] at hkill
    cases hkill
  constructor
  · intro hrow
    show row.isRunning = false
    rw [← Bool.not_eq_true]
    intro hrunning
    have hunlatched := h.unlatched (hlatched ▸ hrow)
    rw [hstopped hrunning] at hunlatched
    cases hunlatched
  · exact h.noLateEntry
  · exact fun hclosed hrunning => h.closed hclosed (hstopped hrunning)
  · exact h.loaded
  · exact iff_of_false (by simp) fun ⟨config', written', hpaused⟩ => hnot config' written' hpaused
  · exact fun config' written' hpaused => absurd hpaused (hnot config' written')
  · exact iff_of_false (by simp) (by simp)
  · rintro _ _ ⟨⟩

/-- **One step.**  Every guarded step keeps the invariant. -/
theorem Invariant.step {op : RiskOffOp} (h : s.Invariant) (hguard : s.Guarded op)
    (hstep : s.step op = some s') : s'.Invariant := by
  cases op with
  | killLoad =>
    rw [RiskOffState.step] at hstep
    cases hkill : s.kill with
    | idle =>
      simp only [hkill, Option.some.injEq] at hstep
      rw [← hstep]
      refine h.moveKill (by simp [hkill]) (by simp) ?_ fun hclosed hrunning => ?_
      · rintro config ⟨⟩
        exact h.unlatched
      · rcases h.closed hclosed hrunning with hwindow | ⟨config, written, hpaused⟩
        · simp [inWindow, hkill] at hwindow
        · simp [hkill] at hpaused
    | _ => simp [hkill] at hstep
  | killFlatten outcome =>
    rw [RiskOffState.step] at hstep
    cases hkill : s.kill with
    | loaded config =>
      simp only [hkill, Option.some.injEq] at hstep
      rw [← hstep]
      have hloaded := h.loaded
      rw [hkill] at hloaded
      exact h.moveKill (by simp [hkill]) (by simp) hloaded fun _ _ => rfl
    | _ => simp [hkill] at hstep
  | killCommitClose =>
    rw [RiskOffState.step] at hstep
    cases hkill : s.kill with
    | flattened config =>
      simp only [hkill, Option.some.injEq] at hstep
      rw [← hstep]
      have hloaded := h.loaded
      rw [hkill] at hloaded
      exact h.moveKill (by simp [hkill]) (by simp) hloaded fun _ _ => rfl
    | _ => simp [hkill] at hstep
  | killPause reason now =>
    rw [RiskOffState.step] at hstep
    cases hkill : s.kill with
    | committed config =>
      simp only [hkill] at hstep
      split_ifs at hstep with hlock
      rw [← Option.some.inj hstep]
      exact h.killPause hkill hlock reason now (hguard config (by rw [pausing?, hkill]; rfl))
    | _ => simp [hkill] at hstep
  | killCommit =>
    rw [RiskOffState.step] at hstep
    cases hkill : s.kill with
    | paused config written =>
      simp only [hkill, Option.some.injEq] at hstep
      rw [← hstep]
      exact h.killCommit hkill
    | _ => simp [hkill] at hstep
  | killFail =>
    have hunpaused : (∀ config written, s.kill ≠ .paused config written) →
        s.lock ≠ some .killSwitch :=
      fun hnot hlock => by
        obtain ⟨config, written, hpaused⟩ := h.killLock.mp hlock
        exact hnot config written hpaused
    rw [RiskOffState.step] at hstep
    cases hkill : s.kill with
    | idle => simp [hkill] at hstep
    | paused config written =>
      simp only [hkill, Option.some.injEq] at hstep
      rw [← hstep]
      refine h.killFail (by simp) ?_ hguard
      rw [← h.workerLock, h.killLock.mpr ⟨config, written, hkill⟩]
      simp
    | _ =>
      simp only [hkill, Option.some.injEq] at hstep
      rw [← hstep]
      exact h.killFail (hunpaused (by simp [hkill])) h.workerLock hguard
  | workerBegin =>
    rw [RiskOffState.step] at hstep
    split_ifs at hstep with hfree
    rw [← Option.some.inj hstep]
    obtain ⟨hidle, hlock⟩ := hfree
    have hnot : ∀ config written, s.kill ≠ .paused config written := by
      intro config written hpaused
      have hkill := h.killLock.mpr ⟨config, written, hpaused⟩
      rw [hlock] at hkill
      cases hkill
    refine ⟨h.unlatched, h.noLateEntry, h.closed, h.loaded, ?_, h.paused, ?_, ?_⟩
    · exact iff_of_false (by simp) fun ⟨config, written, hpaused⟩ => hnot config written hpaused
    · exact iff_of_true rfl ⟨_, _, rfl⟩
    · rintro _ _ ⟨⟩
      exact ⟨rfl, id, rfl⟩
  | workerEntry =>
    rw [RiskOffState.step] at hstep
    cases hworker : s.worker with
    | idle => simp [hworker] at hstep
    | holding config written =>
      simp only [hworker] at hstep
      split_ifs at hstep with hactive
      rw [← Option.some.inj hstep]
      obtain ⟨rfl, hrunning, -⟩ := h.holding config written hworker
      -- An active worker keeps the lock of a running strategy.
      have hopen : s.closedByKill = false := by
        by_contra hclosed
        rw [Bool.not_eq_false] at hclosed
        rcases h.closed hclosed (hrunning hactive.2) with hwindow | hpaused
        · exact hguard ⟨hwindow, hclosed⟩
        · have hkill := h.killLock.mpr hpaused
          rw [h.workerLock.mpr ⟨_, _, hworker⟩] at hkill
          cases hkill
      have hlocked := h.workerLock
      have hholding := h.holding
      rw [hworker] at hlocked hholding
      refine ⟨h.unlatched, ?_, h.closed, h.loaded, h.killLock, h.paused, hlocked, hholding⟩
      rw [h.noLateEntry, hopen]
      rfl
  | workerPause now =>
    rw [RiskOffState.step] at hstep
    cases hworker : s.worker with
    | idle => simp [hworker] at hstep
    | holding config written =>
      simp only [hworker, Option.some.injEq] at hstep
      rw [← hstep]
      obtain ⟨hsame, -, hlatched⟩ := h.holding config written hworker
      refine ⟨h.unlatched, h.noLateEntry, h.closed, h.loaded, h.killLock, h.paused, ?_, ?_⟩
      · rw [h.workerLock, hworker]
        simp
      · rintro _ _ ⟨⟩
        refine ⟨hsame, fun hrunning => ?_, ?_⟩
        · rw [isRunning_pausedConfig] at hrunning
          cases hrunning
        · rw [AutoTradeConfig.riskOffLatched_pausedConfig, hlatched]
  | workerCommit =>
    rw [RiskOffState.step] at hstep
    cases hworker : s.worker with
    | idle => simp [hworker] at hstep
    | holding config written =>
      simp only [hworker, Option.some.injEq] at hstep
      rw [← hstep]
      obtain ⟨rfl, hrunning, hlatched⟩ := h.holding config written hworker
      refine h.workerEnd hworker ?_ fun hafter => ?_
      · show Row.column s.config.riskOffLatched written.riskOffLatched _ = _
        rw [hlatched, Row.column, if_pos rfl]
      · have hcolumn : Row.column s.config.isRunning written.isRunning s.config.isRunning = true :=
          hafter
        rw [Row.column] at hcolumn
        split_ifs at hcolumn with hsame
        · exact hcolumn
        · exact hrunning hcolumn
  | workerFail =>
    rw [RiskOffState.step] at hstep
    cases hworker : s.worker with
    | idle => simp [hworker] at hstep
    | holding config written =>
      simp only [hworker, Option.some.injEq] at hstep
      rw [← hstep]
      exact h.workerEnd hworker rfl id
  | load =>
    rw [← Option.some.inj hstep]
    exact ⟨h.unlatched, h.noLateEntry, h.closed, h.loaded, h.killLock, h.paused, h.workerLock,
      h.holding⟩
  | bulkSetRunning session isRunning accountIsDemo now =>
    rw [RiskOffState.step] at hstep
    cases hlisted : s.loads[session]? with
    | none => simp [hlisted] at hstep
    | some listed =>
      simp only [hlisted] at hstep
      split_ifs at hstep with hskip
      have hchange : listed.isRunning ≠ isRunning := fun hsame => hskip (Or.inl hsame)
      refine h.writeRunning hstep (AutoTradeConfig.isRunning_commit_runningConfig hchange _ _)
        fun hstart => ?_
      rw [AutoTradeConfig.riskOffLatched_commit_runningConfig, hstart]
      cases hlatched : s.config.riskOffLatched with
      | false => rfl
      | true => rw [hguard hstart hlatched listed hlisted]; rfl
  | guardPause session now =>
    rw [RiskOffState.step] at hstep
    cases hloaded : s.loads[session]? with
    | none => simp [hloaded] at hstep
    | some loaded =>
      simp only [hloaded] at hstep
      refine h.write_stopping hstep
        (AutoTradeConfig.riskOffLatched_commit_pausedConfig loaded s.config now) fun hrunning => ?_
      rw [AutoTradeConfig.isRunning_commit_pausedConfig, Bool.and_eq_true] at hrunning
      exact hrunning.2
  | setRunning isRunning accountIsDemo now =>
    rw [RiskOffState.step] at hstep
    split_ifs at hstep
    refine h.writeRunning hstep (by cases isRunning <;> rfl) ?_
    rintro rfl
    rfl
  | upsert payload now =>
    refine h.write_stopping hstep rfl fun hrunning => ?_
    simp only [updatedConfig] at hrunning
    split_ifs at hrunning
    exact hrunning
  | promote =>
    rw [RiskOffState.step] at hstep
    split_ifs at hstep
    exact h.write_stopping hstep rfl id
  | demote now =>
    rw [RiskOffState.step] at hstep
    cases hstage : s.config.lifecycleStage.applyTransition .demote with
    | none => simp [hstage] at hstep
    | some stage =>
      simp only [hstage] at hstep
      exact h.write_stopping hstep rfl (by simp [demotedConfig])

end RiskOffState

/-! ## Runs -/

namespace RiskOffRun

open RiskOffState

/-- **The risk-off latch.**  A strategy that is not latched and running at first is in no state of a
guarded run, and no entry order is placed behind a close of the kill-switch before the strategy is
started. -/
theorem riskOff_of_guarded {config : AutoTradeConfig}
    (hunlatched : config.riskOffLatched = true → config.isRunning = false) {ops : List RiskOffOp}
    (hguarded : AlongRun RiskOffState.step Guarded { config := config } ops) :
    ∀ bs u, bs <+: ops → run RiskOffState.step { config := config } bs = some u →
      u.RiskOffHolds := by
  have hstart : Invariant { config := config } := by
    constructor <;> simp_all [KillPhase.config?]
  intro bs u hprefix hrun
  exact (forall_prefix_of_alongRun RiskOffState.step
    (fun s op s' hs hop hstep => hs.step hop hstep) hstart hguarded bs u hprefix hrun).riskOffHolds

/-- A strategy that runs on a demo account. -/
def runningStrategy : AutoTradeConfig := { id := 1, enabled := true, isRunning := true }

/-- The kill-switch closes, pauses and latches, a signal behind it is skipped; the strategy is
started, and the next signal enters. -/
theorem riskOff_undisturbed :
    (run RiskOffState.step { config := runningStrategy } [.killLoad, .killFlatten .marketClosed,
        .killCommitClose, .killPause "price_move" 20, .killCommit, .workerBegin, .workerCommit,
        .setRunning true true 30, .workerBegin, .workerEntry, .workerCommit]).isSome = true ∧
      ∀ bs u, bs <+: [RiskOffOp.killLoad, .killFlatten .marketClosed, .killCommitClose,
          .killPause "price_move" 20, .killCommit, .workerBegin, .workerCommit,
          .setRunning true true 30, .workerBegin, .workerEntry, .workerCommit] →
        run RiskOffState.step { config := runningStrategy } bs = some u → u.RiskOffHolds :=
  ⟨by decide +kernel, riskOff_of_guarded (by decide) (by decide +kernel)⟩

/-- A start that was listed before the latch leaves the strategy latched and running, and a signal
that is processed between the close and the pause enters again. -/
theorem disturbed_not_riskOff :
    (¬∀ (ops : List RiskOffOp) (config : AutoTradeConfig) (u : RiskOffState),
      (config.riskOffLatched = true → config.isRunning = false) →
      run RiskOffState.step { config := config } ops = some u → ¬u.LatchedAndRunning) ∧
    ¬∀ (ops : List RiskOffOp) (config : AutoTradeConfig) (u : RiskOffState),
      (config.riskOffLatched = true → config.isRunning = false) →
      run RiskOffState.step { config := config } ops = some u → u.lateEntry = false := by
  constructor
  · intro h
    have hbroken : (run RiskOffState.step { config := { runningStrategy with isRunning := false } }
        [.load, .killLoad, .killFlatten .marketClosed, .killCommitClose, .killPause "price_move" 20,
          .killCommit, .bulkSetRunning 0 true true 21]).map (fun u => decide u.LatchedAndRunning) =
        some true := by decide +kernel
    obtain ⟨u, hrun, hu⟩ := Option.map_eq_some_iff.mp hbroken
    exact h _ _ u (by decide) hrun (of_decide_eq_true hu)
  · intro h
    have hbroken : (run RiskOffState.step { config := runningStrategy }
        [.killLoad, .killFlatten .marketClosed, .killCommitClose, .workerBegin, .workerEntry,
          .workerCommit, .killPause "price_move" 20, .killCommit]).map RiskOffState.lateEntry =
        some true := by decide +kernel
    obtain ⟨u, hrun, hu⟩ := Option.map_eq_some_iff.mp hbroken
    rw [h _ runningStrategy u (by decide) hrun] at hu
    cases hu

end RiskOffRun

end AdviserConstructor
