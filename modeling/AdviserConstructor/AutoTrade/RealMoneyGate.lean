import AdviserConstructor.AutoTrade.ConfigStore
import AdviserConstructor.Library.StepSystem

/-!
# The real-money gate

A strategy that is not live may only run on a demo account: it collects its record there and has to
pass the KPI gate before it trades real money.  The rule ties a row of the configurations to a row
of the accounts.

Every operation on the configurations keeps it (`GovernanceOp.keepsGate`): a row that starts to run
has been checked, a row that is created or demoted is stopped, and none of the others starts a row,
moves it to another account or takes it back from live while it runs.  The update of an exchange
account writes the mode and looks at no configuration.

* `GovernanceRun.realMoneyGate_iff`: along a run of operations the rule holds in every state exactly
  if no account is switched to real while a strategy that is not live runs on it.
* `GovernanceRun.switchedAccount_not_gated`: a sandbox strategy runs on a demo account, and the
  account is made a real one.
-/

namespace AdviserConstructor

open StepSystem

variable {Hash : Type}

namespace ConfigStore

/-! ## The rule -/

/-- A strategy that runs and is not live. -/
def RunsUnproven (c : AutoTradeConfig) : Prop := c.isRunning = true ∧ c.lifecycleStage ≠ .live

instance (c : AutoTradeConfig) : Decidable (RunsUnproven c) :=
  inferInstanceAs (Decidable (_ ∧ _))

/-- The real-money gate: a strategy that runs and is not live has a demo account. -/
def RealMoneyGate (s : ConfigStore Hash) : Prop :=
  ∀ c ∈ s.configs, RunsUnproven c → s.accountMode c.accountId = some .demo

instance (s : ConfigStore Hash) : Decidable s.RealMoneyGate :=
  inferInstanceAs (Decidable (∀ c ∈ s.configs, _ → _))

/-- What keeps the gate closed: the accounts stay as they are, and whoever runs unproven afterwards
is on a demo account, or on one where somebody ran unproven before. -/
structure KeepsGate (s s' : ConfigStore Hash) : Prop where
  accounts : s'.accounts = s.accounts
  configs : ∀ c' ∈ s'.configs, RunsUnproven c' →
    s.accountMode c'.accountId = some .demo ∨
      ∃ c ∈ s.configs, RunsUnproven c ∧ c.accountId = c'.accountId

variable {s s' : ConfigStore Hash}

theorem accountMode_congr (h : s'.accounts = s.accounts) (accountId : ℕ) :
    s'.accountMode accountId = s.accountMode accountId := by
  rw [accountMode, accountMode, h]

theorem KeepsGate.refl (s : ConfigStore Hash) : KeepsGate s s :=
  ⟨rfl, fun c hc hruns => Or.inr ⟨c, hc, hruns, rfl⟩⟩

theorem KeepsGate.trans {t u : ConfigStore Hash} (hst : KeepsGate s t) (htu : KeepsGate t u) :
    KeepsGate s u := by
  refine ⟨htu.accounts.trans hst.accounts, fun c'' hc'' hruns'' => ?_⟩
  rcases htu.configs c'' hc'' hruns'' with hdemo | ⟨c', hc', hruns', hsame⟩
  · exact Or.inl (by rwa [accountMode_congr hst.accounts] at hdemo)
  · rw [← hsame]
    exact hst.configs c' hc' hruns'

theorem KeepsGate.realMoneyGate (h : KeepsGate s s') (hgate : s.RealMoneyGate) :
    s'.RealMoneyGate := by
  intro c' hc' hruns'
  rw [accountMode_congr h.accounts]
  rcases h.configs c' hc' hruns' with hdemo | ⟨c, hc, hruns, hsame⟩
  · exact hdemo
  · rw [← hsame]
    exact hgate c hc hruns

theorem KeepsGate.of_eq (haccounts : s'.accounts = s.accounts) (hconfigs : s'.configs = s.configs) :
    KeepsGate s s' :=
  ⟨haccounts, fun c hc hruns => Or.inr ⟨c, hconfigs ▸ hc, hruns, rfl⟩⟩

/-- Writing a row keeps the gate closed, if the row does not run unproven, or did so before on the
account that it has, or the account is a demo account. -/
theorem keepsGate_setConfig {row : AutoTradeConfig}
    (hrow : RunsUnproven row → s.accountMode row.accountId = some .demo ∨
      ∃ c ∈ s.configs, RunsUnproven c ∧ c.accountId = row.accountId) :
    KeepsGate s (s.setConfig row) := by
  refine ⟨rfl, fun c' hc' hruns' => ?_⟩
  rcases mem_setConfig hc' with rfl | hc
  · exact hrow hruns'
  · exact Or.inr ⟨c', hc, hruns', rfl⟩

theorem mem_of_config? {id : ℕ} {c : AutoTradeConfig} (h : s.config? id = some c) :
    c ∈ s.configs := List.mem_of_find?_eq_some h

/-! ## What keeps it -/

theorem keepsGate_upsertConfig [DecidableEq Hash] (digest : ContentSnapshot → Hash)
    (s : ConfigStore Hash) (userId : ℕ) (payload : UpsertRequest) (openPosition : Bool) (now : ℕ) :
    KeepsGate s (upsertConfig digest s userId payload openPosition now).store := by
  rcases upsertConfig_cases digest s userId payload openPosition now with
    ⟨failure, h⟩ | ⟨-, h⟩ | ⟨row, hrow, -, haccount, h⟩
  · rw [h]
    exact KeepsGate.refl s
  · rw [h]
    refine ⟨accounts_finishUpsert .., fun c hc hruns => ?_⟩
    rw [configs_finishUpsert, List.mem_append, List.mem_singleton] at hc
    rcases hc with hc | rfl
    · exact Or.inr ⟨c, hc, hruns, rfl⟩
    · -- A created row is stopped.
      exact absurd hruns.1 (by simp [newConfig])
  · rw [h]
    refine KeepsGate.trans (keepsGate_setConfig fun hruns => Or.inr ⟨row, hrow, ?_, haccount⟩)
      (KeepsGate.of_eq (accounts_finishUpsert ..) (configs_finishUpsert ..))
    -- An overwritten row keeps its stage, and runs only if it ran.
    obtain ⟨hrunning, hstage⟩ := hruns
    refine ⟨?_, hstage⟩
    simp only [updatedConfig] at hrunning
    split_ifs at hrunning
    exact hrunning

theorem keepsGate_rollbackConfig [DecidableEq Hash] (digest : ContentSnapshot → Hash)
    (s : ConfigStore Hash) (userId configId revisionId : ℕ) (openPosition : Bool) (now : ℕ) :
    KeepsGate s (rollbackConfig digest s userId configId revisionId openPosition now).store := by
  rcases rollbackConfig_cases digest s userId configId revisionId openPosition now with
    ⟨failure, h⟩ | ⟨config, revision, request, -, -, -, -, -, h⟩
  · rw [h]
    exact KeepsGate.refl s
  · rw [h]
    exact keepsGate_upsertConfig ..

theorem keepsGate_applyRiskConfigToAllStrategies (s : ConfigStore Hash) (userId : ℕ)
    (risk : RiskConfig) : KeepsGate s (s.applyRiskConfigToAllStrategies userId risk).store := by
  obtain ⟨risks, h⟩ := s.applyRiskConfigToAllStrategies_cases userId risk
  rw [h]
  exact KeepsGate.of_eq rfl rfl

theorem keepsGate_promoteStrategy (s : ConfigStore Hash) (userId configId : ℕ) (canPromote : Bool) :
    KeepsGate s (s.promoteStrategy userId configId canPromote).store := by
  rw [promoteStrategy]
  cases hconfig : s.config? configId with
  | none => exact KeepsGate.refl s
  | some config =>
    simp only
    split_ifs with huser hstage hgate
    · exact KeepsGate.refl s
    · exact KeepsGate.refl s
    · exact KeepsGate.refl s
    · rw [not_not.mp hstage]
      -- Nobody runs unproven who has been promoted.
      exact keepsGate_setConfig fun hruns => absurd rfl hruns.2

theorem keepsGate_demoteStrategy (s : ConfigStore Hash) (userId configId now : ℕ) :
    KeepsGate s (s.demoteStrategy userId configId now).store := by
  rw [demoteStrategy]
  cases hconfig : s.config? configId with
  | none => exact KeepsGate.refl s
  | some config =>
    by_cases huser : config.userId ≠ userId
    · simp only [if_pos huser]
      exact KeepsGate.refl s
    · simp only [if_neg huser]
      cases config.lifecycleStage.applyTransition .demote with
      | none => exact KeepsGate.refl s
      | some stage =>
        exact keepsGate_setConfig fun hruns => absurd hruns.1 (by simp [demotedConfig])

theorem keepsGate_setRunning (s : ConfigStore Hash) (userId : ℕ) (isRunning : Bool)
    (accountId : Option ℕ) (now : ℕ) :
    KeepsGate s (s.setRunning userId isRunning accountId now).store := by
  rw [setRunning]
  cases hscope : s.getConfigForScope userId accountId with
  | error failure => exact KeepsGate.refl s
  | ok found =>
    cases found with
    | none => exact KeepsGate.refl s
    | some row =>
      simp only
      split_ifs with hdisabled hunproven
      · exact KeepsGate.refl s
      · exact KeepsGate.refl s
      · refine keepsGate_setConfig fun hruns => Or.inl ?_
        cases isRunning with
        | false => exact absurd hruns.1 (by simp [runningConfig])
        | true =>
          -- The check has found a demo account.
          have hstage : row.lifecycleStage ≠ .live := hruns.2
          show s.accountMode row.accountId = some .demo
          by_contra hmode
          refine hunproven ⟨rfl, hstage, ?_⟩
          simpa [accountIsDemo] using hmode

theorem keepsGate_setRunningBulk (s : ConfigStore Hash) (userId : ℕ) (isRunning : Bool)
    (now : ℕ) : KeepsGate s (s.setRunningBulk userId isRunning now) := by
  have hone : ∀ (s : ConfigStore Hash) (configId : ℕ),
      KeepsGate s (setRunningOne userId isRunning now s configId) := by
    intro s configId
    rw [setRunningOne]
    cases s.config? configId with
    | none => exact KeepsGate.refl s
    | some config =>
      simp only
      split_ifs
      · exact KeepsGate.refl s
      · exact KeepsGate.refl s
      · exact keepsGate_setRunning ..
  rw [setRunningBulk]
  generalize (s.configs.filter (·.userId = userId)).map AutoTradeConfig.id = ids
  induction ids generalizing s with
  | nil => exact KeepsGate.refl s
  | cons configId ids ih => exact KeepsGate.trans (hone s configId) (ih _)

theorem keepsGate_autoPauseStrategy (s : ConfigStore Hash) (configId now : ℕ) :
    KeepsGate s (s.autoPauseStrategy configId now) := by
  rw [autoPauseStrategy]
  cases s.config? configId with
  | none => exact KeepsGate.refl s
  | some row => exact keepsGate_setConfig fun hruns => absurd hruns.1 (by simp)

theorem keepsGate_latchRiskOff (s : ConfigStore Hash) (configId : ℕ) (reason : String) (now : ℕ) :
    KeepsGate s (s.latchRiskOff configId reason now) := by
  rw [latchRiskOff]
  cases hrow : (s.autoPauseStrategy configId now).config? configId with
  | none => exact KeepsGate.refl s
  | some row =>
    refine KeepsGate.trans (keepsGate_autoPauseStrategy s configId now) (keepsGate_setConfig ?_)
    exact fun hruns => Or.inr ⟨row, mem_of_config? hrow, hruns, rfl⟩

/-! ## What does not keep it -/

/-- The update that `payload` asks for is committed, and leaves the account a real one. -/
def SwitchesToReal (s : ConfigStore Hash) (accountId userId : ℕ) (payload : AccountUpdate) : Prop :=
  (s.accountUpdate accountId userId payload).toOption.map ExchangeCredential.mode = some .real

instance (s : ConfigStore Hash) (accountId userId : ℕ) (payload : AccountUpdate) :
    Decidable (s.SwitchesToReal accountId userId payload) :=
  inferInstanceAs (Decidable (_ = _))

/-- Somebody runs unproven on an account. -/
def UnprovenOn (s : ConfigStore Hash) (accountId : ℕ) : Prop :=
  ∃ c ∈ s.configs, RunsUnproven c ∧ c.accountId = accountId

instance (s : ConfigStore Hash) (accountId : ℕ) : Decidable (s.UnprovenOn accountId) :=
  inferInstanceAs (Decidable (∃ c ∈ s.configs, _ ∧ _))

/-- **The account update.**  It keeps the gate closed exactly if it does not make a real account out
of one that somebody runs unproven on. -/
theorem realMoneyGate_updateAccount_iff (hgate : s.RealMoneyGate) (accountId userId : ℕ)
    (payload : AccountUpdate) :
    (s.updateAccount accountId userId payload).store.RealMoneyGate ↔
      ¬(s.SwitchesToReal accountId userId payload ∧ s.UnprovenOn accountId) := by
  rw [updateAccount, SwitchesToReal]
  cases hupdate : s.accountUpdate accountId userId payload with
  | error failure => exact iff_of_true hgate (by simp [Except.toOption])
  | ok row =>
    obtain ⟨rfl, hrow⟩ := accountUpdate_eq_ok hupdate
    have hmode := @accountMode_setAccount Hash s row hrow
    constructor
    · rintro hafter ⟨hreal, c, hc, hruns, hon⟩
      have hreal : row.mode = .real := by simpa [Except.toOption] using hreal
      have hdemo := hafter c hc hruns
      rw [hmode, if_pos hon, hreal] at hdemo
      exact absurd hdemo (by decide)
    · intro hnot c hc hruns
      show (s.setAccount row).accountMode c.accountId = some .demo
      rw [hmode]
      by_cases hon : c.accountId = row.id
      · rw [if_pos hon]
        cases hdemo : row.mode with
        | demo => rfl
        | real => exact absurd ⟨by simp [Except.toOption, hdemo], c, hc, hruns, hon⟩ hnot
      · rw [if_neg hon]
        exact hgate c hc hruns

end ConfigStore

/-! ## The steps -/

namespace GovernanceOp

open ConfigStore

variable [DecidableEq Hash] (digest : ContentSnapshot → Hash)

/-- An account update is only asked for if it does not make a real account out of one that somebody
runs unproven on. -/
def Careful (s : ConfigStore Hash) : GovernanceOp → Prop
  | .updateAccount accountId userId payload =>
      ¬(s.SwitchesToReal accountId userId payload ∧ s.UnprovenOn accountId)
  | _ => True

instance (s : ConfigStore Hash) : ∀ op : GovernanceOp, Decidable (op.Careful s)
  | .updateAccount _ _ _ => inferInstanceAs (Decidable (¬(_ ∧ _)))
  | .upsert .. | .rollback .. | .applyRiskToAll .. | .promote .. | .demote .. | .setRunning ..
  | .setRunningBulk .. | .autoPause .. | .latchRiskOff .. => .isTrue trivial

/-- **One step.**  Where the gate is closed, an operation keeps it closed exactly if it is
careful. -/
theorem realMoneyGate_apply_iff {s : ConfigStore Hash} (hgate : s.RealMoneyGate)
    (op : GovernanceOp) : (op.apply digest s).RealMoneyGate ↔ op.Careful s := by
  cases op with
  | updateAccount accountId userId payload =>
    exact realMoneyGate_updateAccount_iff hgate accountId userId payload
  | upsert userId payload openPosition now =>
    refine iff_of_true (KeepsGate.realMoneyGate ?_ hgate) trivial
    rw [apply]
    cases payload.validate with
    | error error => exact KeepsGate.refl s
    | ok payload => exact keepsGate_upsertConfig ..
  | rollback userId configId revisionId openPosition now =>
    exact iff_of_true ((keepsGate_rollbackConfig ..).realMoneyGate hgate) trivial
  | applyRiskToAll userId risk =>
    refine iff_of_true (KeepsGate.realMoneyGate ?_ hgate) trivial
    rw [apply]
    split_ifs
    · exact keepsGate_applyRiskConfigToAllStrategies ..
    · exact KeepsGate.refl s
  | promote userId configId canPromote =>
    exact iff_of_true ((keepsGate_promoteStrategy ..).realMoneyGate hgate) trivial
  | demote userId configId now =>
    exact iff_of_true ((keepsGate_demoteStrategy ..).realMoneyGate hgate) trivial
  | setRunning userId isRunning accountId now =>
    exact iff_of_true ((keepsGate_setRunning ..).realMoneyGate hgate) trivial
  | setRunningBulk userId isRunning now =>
    exact iff_of_true ((keepsGate_setRunningBulk ..).realMoneyGate hgate) trivial
  | autoPause configId now =>
    exact iff_of_true ((keepsGate_autoPauseStrategy ..).realMoneyGate hgate) trivial
  | latchRiskOff configId reason now =>
    exact iff_of_true ((keepsGate_latchRiskOff ..).realMoneyGate hgate) trivial

end GovernanceOp

/-! ## Runs -/

namespace GovernanceRun

open ConfigStore GovernanceOp

variable [DecidableEq Hash] (digest : ContentSnapshot → Hash)

/-- **The real-money gate.**  From tables without configurations, the gate is closed in every state
that a run of operations reaches exactly if all its account updates are careful. -/
theorem realMoneyGate_iff {s : ConfigStore Hash} (hempty : s.configs = [])
    (ops : List GovernanceOp) :
    (∀ bs u, bs <+: ops → run (step digest) s bs = some u → u.RealMoneyGate) ↔
      AlongRun (step digest) (fun s op => op.Careful s) s ops := by
  have hstart : s.RealMoneyGate := by
    intro c hc
    rw [hempty] at hc
    cases hc
  obtain ⟨t, hrun⟩ := exists_run_of_total (step digest) (fun s op => ⟨op.apply digest s, rfl⟩) s ops
  rw [forall_prefix_iff_alongRun, and_iff_right hstart]
  refine alongRun_iff_of_invariant (step digest) (fun s op s' _ hkeeps hstep => hkeeps s' hstep)
    (fun s op s' hgate _ => ?_) hstart hrun
  rw [← realMoneyGate_apply_iff digest hgate op]
  constructor
  · intro hkeeps
    exact hkeeps _ rfl
  · intro hkeeps s'' hstep''
    rw [← Option.some.inj hstep'']
    exact hkeeps

/-- The strategy is set up, started, paused by the KPI guard; only then the account becomes a real
one, on which the strategy is not started again. -/
theorem realMoneyGate_pausedFirst :
    (run (step id) freshUser [GovernanceOp.upsert 1 sandboxRequest false 10,
        .setRunning 1 true none 11, .autoPause 1 12,
        .updateAccount 1 1 { mode := some "real" }]).isSome = true ∧
      ∀ bs u, bs <+: [GovernanceOp.upsert 1 sandboxRequest false 10, .setRunning 1 true none 11,
          .autoPause 1 12, .updateAccount 1 1 { mode := some "real" },
          .setRunning 1 true none 13] →
        run (step id) freshUser bs = some u → u.RealMoneyGate :=
  ⟨by decide +kernel, (realMoneyGate_iff id rfl _).mpr (by decide +kernel)⟩

/-- A sandbox strategy runs on a demo account, and the account is made a real one. -/
theorem switchedAccount_not_gated :
    ¬∀ (ops : List GovernanceOp) (s u : ConfigStore ContentSnapshot), s.configs = [] →
      run (step id) s ops = some u → u.RealMoneyGate := by
  intro h
  have hbroken : (run (step id) freshUser
      [GovernanceOp.upsert 1 sandboxRequest false 10, .setRunning 1 true none 11,
        .updateAccount 1 1 { mode := some "real" }]).map (fun u => decide u.RealMoneyGate) =
      some false := by decide +kernel
  obtain ⟨u, hrun, hu⟩ := Option.map_eq_some_iff.mp hbroken
  exact of_decide_eq_false hu (h _ freshUser u rfl hrun)

end GovernanceRun

end AdviserConstructor
