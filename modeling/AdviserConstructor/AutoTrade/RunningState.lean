import AdviserConstructor.AutoTrade.ConfigRollback

/-!
# Who starts and who stops a strategy

Every operation of the governance, read for the column `is_running` only.  A strategy is started by
`set_running` or its bulk variant, and stopped by an operation of its own user or by a pause of this
very strategy.  No operation takes a base of zero into a configuration.

* `Moves`: what a change of the tables does to the strategies that run, with the starts and the
  stops that it may make; it composes.
* `GovernanceOp.moves_apply`: **what an operation may do.**
* `ConfigStore.setRunningBulk_stops`: behind a bulk stop nothing of the user runs.
-/

namespace AdviserConstructor

open ConfigStore

variable {Hash : Type}

/-! ## Moves -/

/-- A strategy is told by its id and its user. -/
def AutoTradeConfig.key (c : AutoTradeConfig) : ℕ × ℕ := (c.id, c.userId)

/-- From one state of the tables to another, strategies are only started and stopped whose key is
among those given, and positive bases remain positive. -/
structure Moves (starts stops : ℕ × ℕ → Prop) (s s' : ConfigStore Hash) : Prop where
  started : ∀ c' ∈ s'.configs, c'.isRunning = true →
    (∃ c ∈ s.configs, c.key = c'.key ∧ c.isRunning = true) ∨ starts c'.key
  stopped : ∀ c ∈ s.configs, c.isRunning = true →
    (∃ c' ∈ s'.configs, c'.key = c.key ∧ c'.isRunning = true) ∨ stops c.key
  positive : (∀ c ∈ s.configs, 0 < c.positionSizeUsdt) → ∀ c' ∈ s'.configs, 0 < c'.positionSizeUsdt

section Moves

variable {starts stops : ℕ × ℕ → Prop} {s t u : ConfigStore Hash}

theorem Moves.refl (s : ConfigStore Hash) : Moves starts stops s s :=
  ⟨fun c hc h => .inl ⟨c, hc, rfl, h⟩, fun c hc h => .inl ⟨c, hc, rfl, h⟩, id⟩

theorem Moves.trans (hst : Moves starts stops s t) (htu : Moves starts stops t u) :
    Moves starts stops s u := by
  refine ⟨fun c'' hc'' hruns => ?_, fun c hc hruns => ?_, fun h => htu.positive (hst.positive h)⟩
  · rcases htu.started c'' hc'' hruns with ⟨c', hc', hkey, hruns'⟩ | hstart
    · rw [← hkey]
      exact hst.started c' hc' hruns'
    · exact .inr hstart
  · rcases hst.stopped c hc hruns with ⟨c', hc', hkey, hruns'⟩ | hstop
    · rw [← hkey]
      exact htu.stopped c' hc' hruns'
    · exact .inr hstop

theorem Moves.mono {starts' stops' : ℕ × ℕ → Prop} (h : Moves starts stops s t)
    (hstarts : ∀ k, starts k → starts' k) (hstops : ∀ k, stops k → stops' k) :
    Moves starts' stops' s t :=
  ⟨fun c hc hruns => (h.started c hc hruns).imp_right (hstarts _),
    fun c hc hruns => (h.stopped c hc hruns).imp_right (hstops _), h.positive⟩

theorem Moves.of_eq (h : t.configs = s.configs) : Moves starts stops s t :=
  ⟨fun c hc hruns => .inl ⟨c, h ▸ hc, rfl, hruns⟩,
    fun c hc hruns => .inl ⟨c, h.symm ▸ hc, rfl, hruns⟩, fun hpos => h.symm ▸ hpos⟩

theorem moves_setConfig (hids : ∀ c ∈ s.configs, ∀ d ∈ s.configs, c.id = d.id → c = d)
    {row row' : AutoTradeConfig} (hrow : row ∈ s.configs) (hkey : row'.key = row.key)
    (hstart : row'.isRunning = true → row.isRunning = true ∨ starts row.key)
    (hstop : row.isRunning = true → row'.isRunning = true ∨ stops row.key)
    (hpos : 0 < row.positionSizeUsdt → 0 < row'.positionSizeUsdt) :
    Moves starts stops s (s.setConfig row') := by
  have hid : row'.id = row.id := congrArg Prod.fst hkey
  have hmem : row' ∈ (s.setConfig row').configs :=
    List.mem_map.mpr ⟨row, hrow, if_pos hid.symm⟩
  refine ⟨fun c' hc' hruns => ?_, fun c hc hruns => ?_, fun h c' hc' => ?_⟩
  · rcases mem_setConfig hc' with rfl | hold
    · rw [hkey]
      exact (hstart hruns).imp_left fun hrun => ⟨row, hrow, rfl, hrun⟩
    · exact .inl ⟨c', hold, rfl, hruns⟩
  · by_cases hsame : c.id = row'.id
    · obtain rfl := hids c hc row hrow (hsame.trans hid)
      exact (hstop hruns).imp_left fun hrun => ⟨row', hmem, hkey, hrun⟩
    · exact .inl ⟨c, List.mem_map.mpr ⟨c, hc, if_neg hsame⟩, rfl, hruns⟩
  · rcases mem_setConfig hc' with rfl | hold
    · exact hpos (h row hrow)
    · exact h c' hold

theorem eq_of_mem_setConfig {row c : AutoTradeConfig} (hc : c ∈ (s.setConfig row).configs)
    (hid : c.id = row.id) : c = row := by
  obtain ⟨d, hd, rfl⟩ := List.mem_map.mp hc
  by_cases h : d.id = row.id
  · exact if_pos h
  · rw [if_neg h] at hid
    exact absurd hid h

theorem Moves.idle (h : Moves starts stops s t) {p : ℕ × ℕ → Prop} (hstarts : ∀ k, p k → ¬starts k)
    (hidle : ∀ c ∈ s.configs, p c.key → c.isRunning = false) :
    ∀ c ∈ t.configs, p c.key → c.isRunning = false := by
  intro c' hc' hp
  by_contra hruns
  rcases h.started c' hc' (Bool.eq_true_of_not_eq_false hruns) with ⟨c, hc, hkey, hrun⟩ | hstart
  · rw [hidle c hc (hkey.symm ▸ hp)] at hrun
    cases hrun
  · exact hstarts _ hp hstart

end Moves

/-! ## The operations -/

namespace ConfigStore

section

variable {digest : ContentSnapshot → Hash} {s : ConfigStore Hash}

theorem positionSizeUsdt_of_validate {r r' : UpsertRequest} (h : r.validate = .ok r') :
    0 < r'.positionSizeUsdt := by
  obtain ⟨normalized, ratio, -, hr'⟩ := UpsertRequest.validate_eq_ok h
  rw [UpsertRequest.validate] at h
  split_ifs at h with hfields
  have hnone := not_not.mp hfields
  simp only [UpsertRequest.fieldComplaints, List.append_eq_nil_iff, and_assoc] at hnone
  obtain ⟨-, -, hsize, -⟩ := hnone
  rw [hr']
  by_contra hneg
  rw [decide_eq_false hneg] at hsize
  exact absurd hsize (List.cons_ne_nil _ _)

theorem userId_of_getConfigForScope {userId : ℕ} {accountId : Option ℕ} {row : AutoTradeConfig}
    (h : s.getConfigForScope userId accountId = .ok (some row)) : row.userId = userId := by
  cases accountId with
  | some accountId =>
    have hfound : row.userId = userId ∧ row.accountId = accountId := by
      simpa using List.find?_some (Except.ok.inj h)
    exact hfound.1
  | none =>
    simp only [getConfigForScope] at h
    split at h
    · cases h
    · next only hfilter =>
      obtain rfl : only = row := by simpa using h
      have hmem : only ∈ s.configs.filter (·.userId = userId) :=
        hfilter ▸ List.mem_singleton_self only
      exact of_decide_eq_true (List.mem_filter.mp hmem).2
    · cases h

/-! ### Operations on one row -/

theorem moves_autoPauseStrategy (h : Consistent digest s) (configId now : ℕ) :
    Moves (fun _ => False) (fun k => k.1 = configId) s (s.autoPauseStrategy configId now) := by
  rw [autoPauseStrategy]
  cases hconfig : s.config? configId with
  | none => exact Moves.refl s
  | some row =>
    have hid : row.id = configId := by simpa [config?] using List.find?_some hconfig
    refine moves_setConfig h.ids (List.mem_of_find?_eq_some hconfig) ?_ ?_ (fun _ => .inr hid) ?_
    · rw [pausedConfig]
      split <;> rfl
    · rw [isRunning_pausedConfig]
      exact fun h => absurd h Bool.false_ne_true
    · rw [pausedConfig]
      split <;> exact id

theorem autoPauseStrategy_stops (h : Consistent digest s) {c : AutoTradeConfig}
    (hc : c ∈ s.configs) (now : ℕ) : ∀ c' ∈ (s.autoPauseStrategy c.id now).configs,
      c'.key = c.key → c'.isRunning = false := by
  intro c' hc' hkey
  have hid : (pausedConfig c now).id = c.id := by
    rw [pausedConfig]
    split <;> rfl
  rw [autoPauseStrategy, h.config? hc] at hc'
  rw [eq_of_mem_setConfig hc' ((congrArg Prod.fst hkey).trans hid.symm)]
  exact isRunning_pausedConfig c now

theorem moves_setRunning (h : Consistent digest s) (userId : ℕ) (isRunning : Bool)
    (accountId : Option ℕ) (now : ℕ) :
    Moves (fun k => isRunning = true ∧ k.2 = userId) (fun k => isRunning = false ∧ k.2 = userId) s
      (s.setRunning userId isRunning accountId now).store := by
  rw [setRunning]
  cases hscope : s.getConfigForScope userId accountId with
  | error failure => exact Moves.refl s
  | ok found =>
    cases found with
    | none => exact Moves.refl s
    | some row =>
      have hrow := mem_of_getConfigForScope hscope
      have huser := userId_of_getConfigForScope hscope
      simp only
      split_ifs
      · exact Moves.refl s
      · exact Moves.refl s
      · cases isRunning with
        | true =>
          exact moves_setConfig h.ids hrow rfl (fun _ => .inr ⟨rfl, huser⟩) (fun _ => .inl rfl) id
        | false =>
          exact moves_setConfig h.ids hrow rfl (fun h => absurd h Bool.false_ne_true)
            (fun _ => .inr ⟨rfl, huser⟩) id

theorem moves_upsertConfig [DecidableEq Hash] (h : Consistent digest s) {payload : UpsertRequest}
    (hpos : 0 < payload.positionSizeUsdt) (userId : ℕ) (openPosition : Bool) (now : ℕ) :
    Moves (fun _ => False) (fun k => k.2 = userId) s
      (upsertConfig digest s userId payload openPosition now).store := by
  rcases upsertConfig_cases digest s userId payload openPosition now with
    ⟨failure, hcase⟩ | ⟨-, hcase⟩ | ⟨row, hrow, huser, -, hcase⟩
  · rw [hcase]
    exact Moves.refl s
  · rw [hcase]
    refine Moves.trans (t := { s with
        configs := s.configs ++ [s.newConfig userId payload now]
        nextConfigId := s.nextConfigId + 1 }) ?_ (Moves.of_eq (configs_finishUpsert ..))
    refine ⟨fun c hc hruns => ?_, fun c hc hruns => ?_, fun hall c hc => ?_⟩
    · rcases List.mem_append.mp hc with hold | hnew
      · exact .inl ⟨c, hold, rfl, hruns⟩
      · rw [List.mem_singleton.mp hnew] at hruns
        cases hruns
    · exact .inl ⟨c, List.mem_append_left _ hc, rfl, hruns⟩
    · rcases List.mem_append.mp hc with hold | hnew
      · exact hall c hold
      · rw [List.mem_singleton.mp hnew]
        exact hpos
  · rw [hcase]
    have hwrite : Moves (fun _ => False) (fun k => k.2 = userId) s
        (s.setConfig (updatedConfig row payload now)) := by
      refine moves_setConfig h.ids hrow rfl (fun hruns => .inl ?_) (fun _ => .inr huser)
        fun _ => hpos
      -- an overwritten row runs only if it ran
      rw [updatedConfig] at hruns
      split at hruns
      · exact hruns
      · cases hruns
    exact hwrite.trans (Moves.of_eq (configs_finishUpsert ..))

theorem moves_latchRiskOff (h : Consistent digest s) (configId : ℕ) (reason : String) (now : ℕ) :
    Moves (fun _ => False) (fun k => k.1 = configId) s (s.latchRiskOff configId reason now) := by
  rw [latchRiskOff]
  cases hrow : (s.autoPauseStrategy configId now).config? configId with
  | none => exact Moves.refl s
  | some row =>
    exact (moves_autoPauseStrategy h configId now).trans
      (moves_setConfig (h.autoPauseStrategy configId now).ids (List.mem_of_find?_eq_some hrow) rfl
        Or.inl Or.inl id)

/-! ### Bulk operations -/

theorem Consistent.setRunningOne (h : Consistent digest s) (userId : ℕ) (isRunning : Bool)
    (now configId : ℕ) : Consistent digest (setRunningOne userId isRunning now s configId) := by
  rw [ConfigStore.setRunningOne]
  cases s.config? configId with
  | none => exact h
  | some config =>
    simp only
    split_ifs
    · exact h
    · exact h
    · exact h.setRunning ..

theorem moves_setRunningOne (h : Consistent digest s) (userId : ℕ) (isRunning : Bool)
    (now configId : ℕ) :
    Moves (fun k => isRunning = true ∧ k.2 = userId) (fun k => isRunning = false ∧ k.2 = userId) s
      (setRunningOne userId isRunning now s configId) := by
  rw [setRunningOne]
  cases s.config? configId with
  | none => exact Moves.refl s
  | some config =>
    simp only
    split_ifs
    · exact Moves.refl s
    · exact Moves.refl s
    · exact moves_setRunning h ..

theorem moves_foldl_setRunningOne (h : Consistent digest s) (userId : ℕ) (isRunning : Bool)
    (now : ℕ) (ids : List ℕ) :
    Consistent digest (ids.foldl (setRunningOne userId isRunning now) s) ∧
      Moves (fun k => isRunning = true ∧ k.2 = userId) (fun k => isRunning = false ∧ k.2 = userId) s
        (ids.foldl (setRunningOne userId isRunning now) s) := by
  induction ids generalizing s with
  | nil => exact ⟨h, Moves.refl s⟩
  | cons id ids ih =>
    obtain ⟨hconsistent, hmoves⟩ := ih (h.setRunningOne userId isRunning now id)
    exact ⟨hconsistent, (moves_setRunningOne h userId isRunning now id).trans hmoves⟩

theorem setRunningOne_stops (h : Consistent digest s) {c : AutoTradeConfig} (hc : c ∈ s.configs)
    (now : ℕ) : ∀ c' ∈ (setRunningOne c.userId false now s c.id).configs, c'.key = c.key →
      c'.isRunning = false := by
  intro c' hc' hkey
  have hid : c'.id = c.id := congrArg Prod.fst hkey
  rw [setRunningOne, h.config? hc] at hc'
  simp only [Bool.false_eq_true, false_and, if_false] at hc'
  split_ifs at hc' with hstopped
  · rw [h.ids c' hc' c hc hid]
    exact hstopped
  · -- the scope is the configuration itself
    have hscope : s.getConfigForScope c.userId (some c.accountId) = .ok (some c) := by
      rw [getConfigForScope]
      congr 1
      cases hfind : s.configs.find? fun d => d.userId = c.userId ∧ d.accountId = c.accountId with
      | none =>
        exact absurd (decide_eq_true (And.intro rfl rfl)) (List.find?_eq_none.mp hfind c hc)
      | some d =>
        have hsame : d.userId = c.userId ∧ d.accountId = c.accountId := by
          simpa using List.find?_some hfind
        rw [h.scopes d (List.mem_of_find?_eq_some hfind) c hc hsame.1 hsame.2]
    rw [setRunning, hscope] at hc'
    rw [eq_of_mem_setConfig hc' hid]
    rfl

/-- **Behind a bulk stop** nothing of the user runs. -/
theorem setRunningBulk_stops (h : Consistent digest s) (userId now : ℕ) :
    ∀ c ∈ (s.setRunningBulk userId false now).configs, c.userId = userId →
      c.isRunning = false := by
  -- what is stopped remains so, and every configuration that runs has its turn
  have hturns : ∀ (ids : List ℕ) (s : ConfigStore Hash), Consistent digest s →
      (∀ c ∈ s.configs, c.userId = userId → c.isRunning = true → c.id ∈ ids) →
      ∀ c ∈ (ids.foldl (setRunningOne userId false now) s).configs, c.userId = userId →
        c.isRunning = false := by
    intro ids
    induction ids with
    | nil =>
      intro s _ hids c hc huser
      by_contra hruns
      exact absurd (hids c hc huser (Bool.eq_true_of_not_eq_false hruns)) List.not_mem_nil
    | cons id ids ih =>
      intro s h hids
      refine ih _ (h.setRunningOne userId false now id) fun c hc huser hruns => ?_
      have hmoves := moves_setRunningOne h userId false now id
      rcases hmoves.started c hc hruns with ⟨d, hd, hkey, hrun⟩ | hstart
      · have hid : d.id = c.id := congrArg Prod.fst hkey
        have hduser : d.userId = userId := (congrArg Prod.snd hkey).trans huser
        rcases List.mem_cons.mp (hids d hd hduser hrun) with rfl | hlater
        · have hstopped := setRunningOne_stops h hd now c (hduser.symm ▸ hc) hkey.symm
          rw [hstopped] at hruns
          cases hruns
        · exact hid ▸ hlater
      · exact absurd hstart.1 Bool.false_ne_true
  refine hturns _ s h fun c hc huser _ => ?_
  exact List.mem_map.mpr ⟨c, List.mem_filter.mpr ⟨hc, decide_eq_true huser⟩, rfl⟩

end

end ConfigStore

namespace GovernanceOp

/-- The user whose strategies the operation may start. -/
def starts : GovernanceOp → ℕ × ℕ → Prop
  | .setRunning userId isRunning _ _, k => isRunning = true ∧ k.2 = userId
  | .setRunningBulk userId isRunning _, k => isRunning = true ∧ k.2 = userId
  | _, _ => False

/-- The strategies that the operation may stop: those of the user who asks, and the one that is
paused. -/
def stops : GovernanceOp → ℕ × ℕ → Prop
  | .upsert userId _ _ _, k => k.2 = userId
  | .rollback userId _ _ _ _, k => k.2 = userId
  | .demote userId configId _, k => k = (configId, userId)
  | .setRunning userId isRunning _ _, k => isRunning = false ∧ k.2 = userId
  | .setRunningBulk userId isRunning _, k => isRunning = false ∧ k.2 = userId
  | .autoPause configId _, k => k.1 = configId
  | .latchRiskOff configId _ _, k => k.1 = configId
  | .applyRiskToAll _ _, _ => False
  | .promote _ _ _, _ => False
  | .updateAccount _ _ _, _ => False

variable [DecidableEq Hash] {digest : ContentSnapshot → Hash} {s : ConfigStore Hash}

/-- **What an operation may do** to the strategies that run. -/
theorem moves_apply (h : Consistent digest s) (op : GovernanceOp) :
    Moves op.starts op.stops s (op.apply digest s) := by
  cases op with
  | upsert userId payload openPosition now =>
    rw [apply]
    cases hvalid : payload.validate with
    | error error => exact Moves.refl s
    | ok payload' => exact moves_upsertConfig h (positionSizeUsdt_of_validate hvalid) ..
  | rollback userId configId revisionId openPosition now =>
    rw [apply]
    rcases rollbackConfig_cases digest s userId configId revisionId openPosition now with
      ⟨failure, hcase⟩ | ⟨config, revision, request, -, -, -, -, hvalid, hcase⟩
    · rw [hcase]
      exact Moves.refl s
    · rw [hcase]
      exact moves_upsertConfig h (positionSizeUsdt_of_validate hvalid) ..
  | applyRiskToAll userId risk =>
    rw [apply]
    split_ifs
    · obtain ⟨risks, hcase⟩ := s.applyRiskConfigToAllStrategies_cases userId risk
      rw [hcase]
      exact Moves.of_eq rfl
    · exact Moves.refl s
  | promote userId configId canPromote =>
    rw [apply, promoteStrategy]
    cases hconfig : s.config? configId with
    | none => exact Moves.refl s
    | some config =>
      simp only
      split_ifs with huser hstage hgate
      · exact Moves.refl s
      · exact Moves.refl s
      · exact Moves.refl s
      · rw [not_not.mp hstage]
        exact moves_setConfig h.ids (List.mem_of_find?_eq_some hconfig) rfl Or.inl Or.inl id
  | demote userId configId now =>
    rw [apply, demoteStrategy]
    cases hconfig : s.config? configId with
    | none => exact Moves.refl s
    | some config =>
      have hid : config.id = configId := by simpa [config?] using List.find?_some hconfig
      by_cases huser : config.userId ≠ userId
      · simp only [if_pos huser]
        exact Moves.refl s
      · simp only [if_neg huser]
        cases config.lifecycleStage.applyTransition .demote with
        | none => exact Moves.refl s
        | some stage =>
          exact moves_setConfig h.ids (List.mem_of_find?_eq_some hconfig) rfl
            (fun h => absurd h Bool.false_ne_true)
            (fun _ => .inr (Prod.ext hid (not_not.mp huser))) id
  | setRunning userId isRunning accountId now => exact moves_setRunning h ..
  | setRunningBulk userId isRunning now => exact (moves_foldl_setRunningOne h ..).2
  | autoPause configId now => exact moves_autoPauseStrategy h ..
  | latchRiskOff configId reason now => exact moves_latchRiskOff h ..
  | updateAccount accountId userId payload =>
    rw [apply, ConfigStore.updateAccount]
    cases s.accountUpdate accountId userId payload with
    | error failure => exact Moves.refl s
    | ok row => exact Moves.of_eq rfl

end GovernanceOp

end AdviserConstructor
