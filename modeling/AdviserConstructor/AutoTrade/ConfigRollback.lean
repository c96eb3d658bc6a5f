import AdviserConstructor.AutoTrade.ConfigStore
import AdviserConstructor.Library.StepSystem

/-!
# Rolling a configuration back

A rollback replays the snapshot of a revision through `upsert_config`.  The replay finds the same
row, because a configuration never leaves its account, and writes every column of the snapshot as it
was, because the request that it builds is in normal form already.  Two parts of an upsert do not
fit the purpose: a missing risk block leaves the current risk row alone, and a disabled
configuration is stopped.

* `Consistent`: what the tables have in common along every run of operations
  (`GovernanceRun.consistent_run`).
* `rollbackConfig_eq`: what a rollback that succeeds leaves behind.
* `GovernanceRun.rollback_restores_iff`: it restores the content and leaves the runtime state alone
  exactly if it has no risk row to remove and no strategy to stop.
* `GovernanceRun.disabledRevision_not_restored`: a revision without limits, of a time when the
  strategy was disabled.
-/

namespace AdviserConstructor

open DecimalText StepSystem

variable {Hash : Type}

/-! ## What the tables have in common -/

/-- A configuration whose texts are in the form that validation gives them. -/
def AutoTradeConfig.NormalContent (c : AutoTradeConfig) : Prop :=
  (∃ raw ratio, parseRiskMode raw = .ok (c.riskMode, ratio)) ∧
    ∀ p ∈ c.strategyProfile, p.normalized = p

namespace ConfigStore

/-- The tables of a run: ids and scopes are keys, and a revision is a normal snapshot of its
configuration, on the account that the configuration still has. -/
structure Consistent (digest : ContentSnapshot → Hash) (s : ConfigStore Hash) : Prop where
  ids_lt : ∀ c ∈ s.configs, c.id < s.nextConfigId
  ids : ∀ c ∈ s.configs, ∀ d ∈ s.configs, c.id = d.id → c = d
  scopes : ∀ c ∈ s.configs, ∀ d ∈ s.configs, c.userId = d.userId → c.accountId = d.accountId → c = d
  normal : ∀ c ∈ s.configs, c.NormalContent
  hashes : ∀ r ∈ s.revisions, r.contentHash = digest r.snapshot
  snapshots : ∀ r ∈ s.revisions, (rollbackRequest r.snapshot).Normal
  revisionIds : ∀ r ∈ s.revisions, r.configId < s.nextConfigId
  accounts : ∀ r ∈ s.revisions, ∀ c ∈ s.configs, c.id = r.configId →
    r.snapshot.accountId = c.accountId

variable {digest : ContentSnapshot → Hash} {s : ConfigStore Hash}

variable {c row : AutoTradeConfig}

theorem Consistent.config? (h : Consistent digest s) (hc : c ∈ s.configs) :
    s.config? c.id = some c := by
  rw [ConfigStore.config?]
  cases hfind : s.configs.find? fun d => d.id = c.id with
  | none => exact absurd (decide_eq_true rfl) (List.find?_eq_none.mp hfind c hc)
  | some d =>
    have hid : d.id = c.id := by simpa using List.find?_some hfind
    rw [h.ids d (List.mem_of_find?_eq_some hfind) c hc hid]

theorem Consistent.of_eq {s' : ConfigStore Hash} (h : Consistent digest s)
    (hconfigs : s'.configs = s.configs) (hrevisions : s'.revisions = s.revisions)
    (hnext : s'.nextConfigId = s.nextConfigId) : Consistent digest s' where
  ids_lt := by rw [hconfigs, hnext]; exact h.ids_lt
  ids := by rw [hconfigs]; exact h.ids
  scopes := by rw [hconfigs]; exact h.scopes
  normal := by rw [hconfigs]; exact h.normal
  hashes := by rw [hrevisions]; exact h.hashes
  snapshots := by rw [hrevisions]; exact h.snapshots
  revisionIds := by rw [hrevisions, hnext]; exact h.revisionIds
  accounts := by rw [hrevisions, hconfigs]; exact h.accounts

theorem Consistent.setConfig (h : Consistent digest s) {row' : AutoTradeConfig}
    (hrow : row ∈ s.configs) (hid : row'.id = row.id) (huser : row'.userId = row.userId)
    (haccount : row'.accountId = row.accountId) (hnormal : row'.NormalContent) :
    Consistent digest (s.setConfig row') := by
  have hmem : ∀ {c}, c ∈ (s.setConfig row').configs → c = row' ∨ c ∈ s.configs ∧ c.id ≠ row.id := by
    intro c hc
    obtain ⟨d, hd, rfl⟩ := List.mem_map.mp hc
    by_cases hsame : d.id = row'.id
    · exact Or.inl (if_pos hsame)
    · rw [if_neg hsame]
      exact Or.inr ⟨hd, hid ▸ hsame⟩
  constructor
  · intro c hc
    rcases hmem hc with rfl | ⟨hc, -⟩
    · rw [hid]
      exact h.ids_lt row hrow
    · exact h.ids_lt c hc
  · intro c hc d hd hcd
    rcases hmem hc with rfl | ⟨hc', hcne⟩ <;> rcases hmem hd with rfl | ⟨hd', hdne⟩
    · rfl
    · exact absurd (hcd.symm.trans hid) hdne
    · exact absurd (hcd.trans hid) hcne
    · exact h.ids c hc' d hd' hcd
  · intro c hc d hd hcduser hcdaccount
    rcases hmem hc with rfl | ⟨hc', hcne⟩ <;> rcases hmem hd with rfl | ⟨hd', hdne⟩
    · rfl
    · have hsame := h.scopes row hrow d hd' (huser.symm.trans hcduser)
        (haccount.symm.trans hcdaccount)
      exact absurd (congrArg AutoTradeConfig.id hsame).symm hdne
    · have hsame := h.scopes c hc' row hrow (hcduser.trans huser) (hcdaccount.trans haccount)
      exact absurd (congrArg AutoTradeConfig.id hsame) hcne
    · exact h.scopes c hc' d hd' hcduser hcdaccount
  · intro c hc
    rcases hmem hc with rfl | ⟨hc, -⟩
    · exact hnormal
    · exact h.normal c hc
  · exact h.hashes
  · exact h.snapshots
  · exact h.revisionIds
  · intro r hr c hc hof
    rcases hmem hc with rfl | ⟨hc, -⟩
    · rw [haccount]
      exact h.accounts r hr row hrow (hid.symm.trans hof)
    · exact h.accounts r hr c hc hof

theorem Consistent.setRuntime (h : Consistent digest s) {row' : AutoTradeConfig}
    (hrow : row ∈ s.configs) (hid : row'.id = row.id) (huser : row'.userId = row.userId)
    (haccount : row'.accountId = row.accountId) (hmode : row'.riskMode = row.riskMode)
    (hprofile : row'.strategyProfile = row.strategyProfile) :
    Consistent digest (s.setConfig row') := by
  refine h.setConfig hrow hid huser haccount ?_
  rw [AutoTradeConfig.NormalContent, hmode, hprofile]
  exact h.normal row hrow

theorem Consistent.append (h : Consistent digest s) (hid : row.id = s.nextConfigId)
    (hnormal : row.NormalContent)
    (hscope : ∀ c ∈ s.configs, ¬(c.userId = row.userId ∧ c.accountId = row.accountId)) :
    Consistent digest
      { s with configs := s.configs ++ [row], nextConfigId := s.nextConfigId + 1 } := by
  have hmem : ∀ {c}, c ∈ s.configs ++ [row] → c = row ∨ c ∈ s.configs := by
    intro c hc
    rw [List.mem_append, List.mem_singleton] at hc
    exact hc.symm
  constructor
  · intro c hc
    rcases hmem hc with rfl | hc
    · exact hid ▸ Nat.lt_succ_self _
    · exact Nat.lt_succ_of_lt (h.ids_lt c hc)
  · intro c hc d hd hcd
    rcases hmem hc with rfl | hc' <;> rcases hmem hd with rfl | hd'
    · rfl
    · exact absurd (h.ids_lt d hd') (by omega)
    · exact absurd (h.ids_lt c hc') (by omega)
    · exact h.ids c hc' d hd' hcd
  · intro c hc d hd huser haccount
    rcases hmem hc with rfl | hc' <;> rcases hmem hd with rfl | hd'
    · rfl
    · exact absurd ⟨huser.symm, haccount.symm⟩ (hscope d hd')
    · exact absurd ⟨huser, haccount⟩ (hscope c hc')
    · exact h.scopes c hc' d hd' huser haccount
  · intro c hc
    rcases hmem hc with rfl | hc
    · exact hnormal
    · exact h.normal c hc
  · exact h.hashes
  · exact h.snapshots
  · exact fun r hr => Nat.lt_succ_of_lt (h.revisionIds r hr)
  · intro r hr c hc hof
    rcases hmem hc with rfl | hc
    · have hlt := h.revisionIds r hr
      exact absurd hof (by omega)
    · exact h.accounts r hr c hc hof

theorem normal_rollbackRequest (h : c.NormalContent) (risk : Option RiskConfig) :
    (rollbackRequest (c.contentSnapshot risk)).Normal := h

theorem Consistent.recordConfigRevision [DecidableEq Hash] (h : Consistent digest s)
    (hc : c ∈ s.configs) (actor : String) :
    Consistent digest (recordConfigRevision digest s c actor) := by
  rcases recordConfigRevision_cases digest s c actor with hsame | ⟨number, hnew⟩
  · rw [hsame]
    exact h
  rw [hnew]
  constructor
  · exact h.ids_lt
  · exact h.ids
  · exact h.scopes
  · exact h.normal
  · intro r hr
    rcases List.mem_append.mp hr with hr | hr
    · exact h.hashes r hr
    · rw [List.mem_singleton.mp hr]
  · intro r hr
    rcases List.mem_append.mp hr with hr | hr
    · exact h.snapshots r hr
    · rw [List.mem_singleton.mp hr]
      exact normal_rollbackRequest (h.normal c hc) _
  · intro r hr
    rcases List.mem_append.mp hr with hr | hr
    · exact h.revisionIds r hr
    · rw [List.mem_singleton.mp hr]
      exact h.ids_lt c hc
  · intro r hr d hd hof
    rcases List.mem_append.mp hr with hr | hr
    · exact h.accounts r hr d hd hof
    · rw [List.mem_singleton.mp hr] at hof ⊢
      rw [h.ids d hd c hc hof]
      rfl

theorem Consistent.finishUpsert [DecidableEq Hash] (h : Consistent digest s) (hc : c ∈ s.configs)
    (risk : Option RiskConfig) : Consistent digest (finishUpsert digest s c risk).store := by
  rcases finishUpsert_cases digest s c risk with ⟨failure, hfail⟩ | hok
  · rw [hfail]
    exact h
  · rw [hok]
    have hrisk : Consistent digest
        { s with risks := Function.update s.risks c.id (risk.or (s.risks c.id)) } :=
      h.of_eq rfl rfl rfl
    exact hrisk.recordConfigRevision hc "user"

theorem normalContent_updatedConfig {payload : UpsertRequest} (hpayload : payload.Normal)
    (hrow : row.NormalContent) (now : ℕ) : (updatedConfig row payload now).NormalContent := by
  refine ⟨hpayload.1, fun p hp => ?_⟩
  cases hset : payload.strategyProfile with
  | none =>
    simp only [updatedConfig, hset] at hp
    exact hrow.2 p hp
  | some profile =>
    simp only [updatedConfig, hset] at hp
    refine hpayload.2 p ?_
    rw [hset]
    exact hp

theorem Consistent.upsertConfig [DecidableEq Hash] (h : Consistent digest s)
    {payload : UpsertRequest} (hpayload : payload.Normal) (userId : ℕ) (openPosition : Bool)
    (now : ℕ) :
    Consistent digest (upsertConfig digest s userId payload openPosition now).store := by
  rcases upsertConfig_cases digest s userId payload openPosition now with
    ⟨failure, hcase⟩ | ⟨hnone, hcase⟩ | ⟨row, hrow, huser, haccount, hcase⟩
  · rw [hcase]
    exact h
  · rw [hcase]
    have happend : Consistent digest
        { s with
          configs := s.configs ++ [s.newConfig userId payload now]
          nextConfigId := s.nextConfigId + 1 } :=
      h.append rfl ⟨hpayload.1, hpayload.2⟩ hnone
    exact happend.finishUpsert (List.mem_append_right _ (List.mem_singleton_self _)) _
  · rw [hcase]
    have hset : Consistent digest (s.setConfig (updatedConfig row payload now)) :=
      h.setConfig hrow rfl rfl haccount.symm
        (normalContent_updatedConfig hpayload (h.normal row hrow) now)
    refine hset.finishUpsert (List.mem_map.mpr ⟨row, hrow, ?_⟩) _
    exact if_pos rfl

theorem Consistent.autoPauseStrategy (h : Consistent digest s) (configId now : ℕ) :
    Consistent digest (s.autoPauseStrategy configId now) := by
  rw [ConfigStore.autoPauseStrategy]
  cases hrow : s.config? configId with
  | none => exact h
  | some row =>
    simp only [pausedConfig]
    split_ifs
    · exact h.setRuntime (List.mem_of_find?_eq_some hrow) rfl rfl rfl rfl rfl
    · exact h.setRuntime (List.mem_of_find?_eq_some hrow) rfl rfl rfl rfl rfl

theorem Consistent.setRunning (h : Consistent digest s) (userId : ℕ) (isRunning : Bool)
    (accountId : Option ℕ) (now : ℕ) :
    Consistent digest (s.setRunning userId isRunning accountId now).store := by
  rw [ConfigStore.setRunning]
  cases hscope : s.getConfigForScope userId accountId with
  | error failure => exact h
  | ok found =>
    cases found with
    | none => exact h
    | some row =>
      have hrow : row ∈ s.configs := mem_of_getConfigForScope hscope
      simp only
      split_ifs
      · exact h
      · exact h
      · cases isRunning with
        | true => exact h.setRuntime hrow rfl rfl rfl rfl rfl
        | false => exact h.setRuntime hrow rfl rfl rfl rfl rfl

end ConfigStore

/-! ## A rollback that succeeds -/

namespace ConfigStore

variable [DecidableEq Hash] {digest : ContentSnapshot → Hash} {s : ConfigStore Hash}

/-- **The rollback.**  The row has the columns of the snapshot, the risk row is the one of the
snapshot, or the current one if the snapshot has none. -/
theorem rollbackConfig_eq (h : Consistent digest s) {userId configId revisionId now id : ℕ}
    {openPosition : Bool} {c : AutoTradeConfig} {r : ConfigRevision Hash}
    (hconfig : s.config? configId = some c)
    (hrevision : s.revisions.find? (·.id = revisionId) = some r)
    (hok : (rollbackConfig digest s userId configId revisionId openPosition now).result = .ok id) :
    (rollbackConfig digest s userId configId revisionId openPosition now).store.config? configId =
        some (updatedConfig c (rollbackRequest r.snapshot) now) ∧
      (rollbackConfig digest s userId configId revisionId openPosition now).store.risks configId =
        r.snapshot.risk.or (s.risks configId) := by
  have hc : c ∈ s.configs := List.mem_of_find?_eq_some hconfig
  have hcid : c.id = configId := by simpa using List.find?_some hconfig
  have hr : r ∈ s.revisions := List.mem_of_find?_eq_some hrevision
  rcases rollbackConfig_cases digest s userId configId revisionId openPosition now with
    ⟨failure, hcase⟩ | ⟨config, revision, request, hfound, huser, hfound', hof, hvalid, hcase⟩
  · rw [hcase] at hok
    cases hok
  obtain rfl : c = config := Option.some.inj (hconfig.symm.trans hfound)
  obtain rfl : r = revision := Option.some.inj (hrevision.symm.trans hfound')
  -- The request is in normal form, so that validation has not changed it.
  obtain rfl := UpsertRequest.validate_of_normal (h.snapshots r hr) hvalid
  rw [hcase] at hok ⊢
  have haccount : r.snapshot.accountId = c.accountId := h.accounts r hr c hc (hcid.trans hof.symm)
  rcases upsertConfig_cases digest s userId (rollbackRequest r.snapshot) openPosition now with
    ⟨failure, hupsert⟩ | ⟨hnone, -⟩ | ⟨row, hrow, hrowUser, hrowAccount, hupsert⟩
  · rw [hupsert] at hok
    cases hok
  · exact absurd ⟨huser, haccount.symm⟩ (hnone c hc)
  -- The row of the scope is the row of the id.
  obtain rfl : c = row :=
    h.scopes c hc row hrow (huser.trans hrowUser.symm) (haccount.symm.trans hrowAccount.symm)
  rw [hupsert] at hok ⊢
  have hset : Consistent digest
      (s.setConfig (updatedConfig c (rollbackRequest r.snapshot) now)) :=
    h.setConfig hc rfl rfl haccount
      (normalContent_updatedConfig (h.snapshots r hr) (h.normal c hc) now)
  have hmem : updatedConfig c (rollbackRequest r.snapshot) now ∈
      (s.setConfig (updatedConfig c (rollbackRequest r.snapshot) now)).configs :=
    List.mem_map.mpr ⟨c, hc, if_pos rfl⟩
  rcases finishUpsert_cases digest (s.setConfig (updatedConfig c (rollbackRequest r.snapshot) now))
      (updatedConfig c (rollbackRequest r.snapshot) now) (rollbackRequest r.snapshot).risk with
    ⟨failure, hfinish⟩ | hfinish
  · rw [hfinish] at hok
    cases hok
  rw [hfinish]
  constructor
  · have hfind := (hset.finishUpsert hmem (rollbackRequest r.snapshot).risk).config?
      (by rw [configs_finishUpsert]; exact hmem)
    rw [hfinish] at hfind
    rw [← hcid]
    exact hfind
  · rw [← hcid]
    show (recordConfigRevision digest _ _ _).risks c.id = _
    rw [risks_recordConfigRevision]
    exact Function.update_self ..

/-- What a rollback has to leave alone: the runtime state of a configuration. -/
def SameRuntime (c c' : AutoTradeConfig) : Prop :=
  c'.isRunning = c.isRunning ∧ c'.lifecycleStage = c.lifecycleStage ∧
    c'.lastStoppedAt = c.lastStoppedAt ∧ c'.riskOffLatched = c.riskOffLatched ∧
    c'.riskOffReason = c.riskOffReason ∧ c'.riskOffAt = c.riskOffAt

instance (c c' : AutoTradeConfig) : Decidable (SameRuntime c c') :=
  inferInstanceAs (Decidable (_ ∧ _))

/-- A snapshot that names limits, or whose configuration has none now; a current risk row is
harmless, too, if the digest does not tell it from none. -/
def RiskRestored (digest : ContentSnapshot → Hash) (snapshot : ContentSnapshot)
    (current : Option RiskConfig) : Prop :=
  snapshot.risk = none → current ≠ none →
    digest { snapshot with risk := current } = digest snapshot

instance (digest : ContentSnapshot → Hash) (snapshot : ContentSnapshot)
    (current : Option RiskConfig) : Decidable (RiskRestored digest snapshot current) :=
  inferInstanceAs (Decidable (_ → _ → _))

/-- A snapshot that is enabled, or whose configuration has just been stopped. -/
def RuntimeKept (snapshot : ContentSnapshot) (c : AutoTradeConfig) (now : ℕ) : Prop :=
  snapshot.enabled = true ∨ c.isRunning = false ∧ c.lastStoppedAt = some now

instance (snapshot : ContentSnapshot) (c : AutoTradeConfig) (now : ℕ) :
    Decidable (RuntimeKept snapshot c now) :=
  inferInstanceAs (Decidable (_ ∨ _))

theorem contentSnapshot_updatedConfig (c : AutoTradeConfig) (snapshot : ContentSnapshot) (now : ℕ)
    (risk : Option RiskConfig) :
    (updatedConfig c (rollbackRequest snapshot) now).contentSnapshot risk =
      { snapshot with risk := risk } := rfl

omit [DecidableEq Hash] in
theorem riskRestored_iff (snapshot : ContentSnapshot) (current : Option RiskConfig) :
    digest { snapshot with risk := snapshot.risk.or current } = digest snapshot ↔
      RiskRestored digest snapshot current := by
  rw [RiskRestored]
  cases hrisk : snapshot.risk with
  | some risk =>
    rw [Option.some_or, ← hrisk]
    exact iff_of_true rfl (fun hnone => absurd (hrisk.symm.trans hnone) (by simp))
  | none =>
    rw [Option.none_or]
    cases current with
    | none =>
      rw [← hrisk]
      exact iff_of_true rfl fun _ hcurrent => absurd rfl hcurrent
    | some risk => simp

theorem runtimeKept_iff (snapshot : ContentSnapshot) (c : AutoTradeConfig) (now : ℕ) :
    SameRuntime c (updatedConfig c (rollbackRequest snapshot) now) ↔
      RuntimeKept snapshot c now := by
  rw [RuntimeKept, SameRuntime, updatedConfig, rollbackRequest]
  cases snapshot.enabled with
  | true => simp
  | false =>
    constructor
    · rintro ⟨hrunning, -, hstopped, -⟩
      exact Or.inr ⟨hrunning.symm, hstopped.symm⟩
    · rintro (henabled | ⟨hrunning, hstopped⟩)
      · cases henabled
      · exact ⟨hrunning.symm, rfl, hstopped.symm, rfl, rfl, rfl⟩

end ConfigStore

/-! ## Along a run -/

namespace GovernanceRun

open ConfigStore GovernanceOp

variable [DecidableEq Hash] {digest : ContentSnapshot → Hash}

/-- **One step.**  Every operation keeps the tables consistent. -/
theorem consistent_apply {s : ConfigStore Hash} (h : Consistent digest s) (op : GovernanceOp) :
    Consistent digest (op.apply digest s) := by
  cases op with
  | upsert userId payload openPosition now =>
    rw [apply]
    cases hvalid : payload.validate with
    | error error => exact h
    | ok payload' => exact h.upsertConfig (UpsertRequest.normal_of_validate hvalid) ..
  | rollback userId configId revisionId openPosition now =>
    rw [apply]
    rcases rollbackConfig_cases digest s userId configId revisionId openPosition now with
      ⟨failure, hcase⟩ | ⟨config, revision, request, -, -, -, -, hvalid, hcase⟩
    · rw [hcase]
      exact h
    · rw [hcase]
      exact h.upsertConfig (UpsertRequest.normal_of_validate hvalid) ..
  | applyRiskToAll userId risk =>
    rw [apply]
    split_ifs
    · obtain ⟨risks, hcase⟩ := s.applyRiskConfigToAllStrategies_cases userId risk
      rw [hcase]
      exact h.of_eq rfl rfl rfl
    · exact h
  | promote userId configId canPromote =>
    rw [apply, promoteStrategy]
    cases hconfig : s.config? configId with
    | none => exact h
    | some config =>
      simp only
      split_ifs with huser hstage hgate
      · exact h
      · exact h
      · exact h
      · rw [not_not.mp hstage]
        exact h.setRuntime (List.mem_of_find?_eq_some hconfig) rfl rfl rfl rfl rfl
  | demote userId configId now =>
    rw [apply, demoteStrategy]
    cases hconfig : s.config? configId with
    | none => exact h
    | some config =>
      by_cases huser : config.userId ≠ userId
      · simp only [if_pos huser]
        exact h
      · simp only [if_neg huser]
        cases config.lifecycleStage.applyTransition .demote with
        | none => exact h
        | some stage => exact h.setRuntime (List.mem_of_find?_eq_some hconfig) rfl rfl rfl rfl rfl
  | setRunning userId isRunning accountId now => exact h.setRunning ..
  | setRunningBulk userId isRunning now =>
    have hone : ∀ (s : ConfigStore Hash) (configId : ℕ), Consistent digest s →
        Consistent digest (setRunningOne userId isRunning now s configId) := by
      intro s configId h
      rw [setRunningOne]
      cases s.config? configId with
      | none => exact h
      | some config =>
        simp only
        split_ifs
        · exact h
        · exact h
        · exact h.setRunning ..
    rw [apply, ConfigStore.setRunningBulk]
    generalize (s.configs.filter (·.userId = userId)).map AutoTradeConfig.id = ids
    induction ids generalizing s with
    | nil => exact h
    | cons configId ids ih => exact ih (hone s configId h)
  | autoPause configId now => exact h.autoPauseStrategy ..
  | latchRiskOff configId reason now =>
    rw [apply, ConfigStore.latchRiskOff]
    cases hrow : (s.autoPauseStrategy configId now).config? configId with
    | none => exact h
    | some row =>
      exact (h.autoPauseStrategy configId now).setRuntime (List.mem_of_find?_eq_some hrow)
        rfl rfl rfl rfl rfl
  | updateAccount accountId userId payload =>
    rw [apply, ConfigStore.updateAccount]
    cases s.accountUpdate accountId userId payload with
    | error failure => exact h
    | ok row => exact h.of_eq rfl rfl rfl

/-- **The run.**  The tables are consistent after every run of operations from tables without
configurations. -/
theorem consistent_run {s t : ConfigStore Hash} {ops : List GovernanceOp}
    (hconfigs : s.configs = []) (hrevisions : s.revisions = [])
    (hrun : run (step digest) s ops = some t) : Consistent digest t := by
  have hstart : Consistent digest s := by
    constructor <;> simp [hconfigs, hrevisions]
  refine run_invariant (step digest) (fun s op s' h hstep => ?_) hstart hrun
  rw [← Option.some.inj hstep]
  exact consistent_apply h op

/-- **Rollbacks.**  After every run of operations, a rollback that succeeds gives the configuration
the content of the revision and leaves its runtime state alone exactly if there is no risk row to
remove and no strategy to stop. -/
theorem rollback_restores_iff {s₀ s : ConfigStore Hash} {ops : List GovernanceOp}
    (hconfigs : s₀.configs = []) (hrevisions : s₀.revisions = [])
    (hrun : run (step digest) s₀ ops = some s) {userId configId revisionId now id : ℕ}
    {openPosition : Bool} {c : AutoTradeConfig} {r : ConfigRevision Hash}
    (hconfig : s.config? configId = some c)
    (hrevision : s.revisions.find? (·.id = revisionId) = some r)
    (hok : (rollbackConfig digest s userId configId revisionId openPosition now).result = .ok id) :
    (∃ c', (rollbackConfig digest s userId configId revisionId openPosition now).store.config?
          configId = some c' ∧
        digest (c'.contentSnapshot ((rollbackConfig digest s userId configId revisionId openPosition
          now).store.risks configId)) = r.contentHash ∧
        SameRuntime c c') ↔
      RiskRestored digest r.snapshot (s.risks configId) ∧ RuntimeKept r.snapshot c now := by
  have h := consistent_run hconfigs hrevisions hrun
  obtain ⟨hrow, hrisk⟩ := rollbackConfig_eq h hconfig hrevision hok
  have hhash : r.contentHash = digest r.snapshot :=
    h.hashes r (List.mem_of_find?_eq_some hrevision)
  rw [hrow, hrisk, hhash, ← riskRestored_iff, ← runtimeKept_iff]
  simp only [Option.some.injEq, exists_eq_left', contentSnapshot_updatedConfig]

/-- The strategy of a fresh user, set up, edited and started. -/
def editedStore : ConfigStore ContentSnapshot :=
  apply id (apply id (apply id freshUser (.upsert 1 sandboxRequest false 10))
    (.upsert 1 { sandboxRequest with leverage := 5 } false 11)) (.setRunning 1 true none 12)

/-- The strategy goes back to its first revision while it runs. -/
theorem rollback_restores_edited :
    ∃ c', (rollbackConfig id editedStore 1 1 1 false 20).store.config? 1 = some c' ∧
      id (c'.contentSnapshot ((rollbackConfig id editedStore 1 1 1 false 20).store.risks 1)) =
        ((editedStore.revisions.find? (·.id = 1)).get (by decide +kernel)).contentHash ∧
      SameRuntime ((editedStore.config? 1).get (by decide +kernel)) c' :=
  (@rollback_restores_iff ContentSnapshot _ id freshUser editedStore
    [.upsert 1 sandboxRequest false 10, .upsert 1 { sandboxRequest with leverage := 5 } false 11,
      .setRunning 1 true none 12] rfl rfl rfl 1 1 1 20 1 false _ _ (Option.some_get _).symm
    (Option.some_get _).symm (by decide +kernel)).mpr (by decide +kernel)

/-- The strategy of a fresh user, set up disabled and without limits, enabled with limits, and
started. -/
def enabledStore : ConfigStore ContentSnapshot :=
  apply id (apply id (apply id freshUser
    (.upsert 1 { sandboxRequest with enabled := false } false 10))
    (.upsert 1 { sandboxRequest with risk := some { maxOpenPositions := some 1 } } false 11))
    (.setRunning 1 true none 12)

/-- The strategy goes back to its first revision, is stopped by it and keeps the limits. -/
theorem disabledRevision_not_restored :
    ¬∀ (ops : List GovernanceOp) (s₀ s : ConfigStore ContentSnapshot), s₀.configs = [] →
      s₀.revisions = [] → run (step id) s₀ ops = some s →
      ∀ (userId configId revisionId now i : ℕ) (openPosition : Bool) (c : AutoTradeConfig)
        (r : ConfigRevision ContentSnapshot), s.config? configId = some c →
        s.revisions.find? (·.id = revisionId) = some r →
        (rollbackConfig id s userId configId revisionId openPosition now).result = .ok i →
        ∃ c', (rollbackConfig id s userId configId revisionId openPosition now).store.config?
            configId = some c' ∧
          id (c'.contentSnapshot ((rollbackConfig id s userId configId revisionId openPosition
            now).store.risks configId)) = r.contentHash ∧
          SameRuntime c c' := by
  intro h
  obtain ⟨c', hc', -, hruntime⟩ := h
    [.upsert 1 { sandboxRequest with enabled := false } false 10,
      .upsert 1 { sandboxRequest with risk := some { maxOpenPositions := some 1 } } false 11,
      .setRunning 1 true none 12] freshUser enabledStore rfl rfl rfl 1 1 1 20 1 false
    ((enabledStore.config? 1).get (by decide +kernel))
    ((enabledStore.revisions.find? (·.id = 1)).get (by decide +kernel)) (Option.some_get _).symm
    (Option.some_get _).symm (by decide +kernel)
  have hstopped : ((rollbackConfig id enabledStore 1 1 1 false 20).store.config? 1).map
      (fun c' => decide (SameRuntime ((enabledStore.config? 1).get (by decide +kernel)) c')) =
        some false := by decide +kernel
  rw [hc', Option.map_some, Option.some.injEq] at hstopped
  exact of_decide_eq_false hstopped hruntime

end GovernanceRun

end AdviserConstructor
