import AdviserConstructor.AutoTrade.PortfolioDrawdown
import AdviserConstructor.AutoTrade.RunningState
import AdviserConstructor.Ledger.TodayPnl

/-!
# The guards that stop strategies

Two sweeps of `app/services/auto_trade/service.py` stop strategies by themselves.
`sweep_kpi_guards` judges every running strategy by the rules that its owner has set
(`evaluate_kpi_guard` of `app/services/auto_trade/risk/kpi_guard.py`), and the check behind a close
does so at once.  `sweep_portfolio_dd_guards` stops all strategies of a user whose portfolio has
fallen too far.  Each turn of a sweep may fail, and is rolled back then; the stops of a user are
committed one after the other, so that a turn which breaks off between them leaves the first ones
stopped.

A run is a sequence of turns of the guards and of operations of the governance, in any order, and
what a turn reads of the ledgers and of the exchange is an argument of it.

* `shouldPause_iff`: the decision of the KPI guard, rule by rule.
* `GuardRun.moves_step`: what a step may start and stop.
* `GuardRun.causes_of_run`: **no guard stops a strategy without a cause**, and none starts one.
* `GuardRun.pausedUntilStarted_of_run`: **what a guard has stopped** does not run until its user
  starts it.
-/

namespace AdviserConstructor

open ConfigStore StepSystem

/-! ## The KPI guard -/

/-- `GuardBreach`. -/
structure GuardBreach where
  rule : String
  actual : ℚ
  threshold : ℚ
  deriving DecidableEq

/-- `GuardDecision`. -/
structure GuardDecision where
  shouldPause : Bool
  breaches : List GuardBreach := []
  warning : Option String := none
  deriving DecidableEq

/-- The rule `daily_loss`. -/
def dailyLossBreach (cfg : RiskConfig) (realizedLoss : ℚ) : List GuardBreach :=
  match cfg.kpiGuardMaxDailyLossUsdt with
  | some limit => if limit ≤ realizedLoss then [⟨"daily_loss", realizedLoss, limit⟩] else []
  | none => []

/-- The warning of `evaluate_kpi_guard`. -/
def balanceUnavailable : String := "daily_loss_pct skipped: account balance unavailable"

/-- The rule `daily_loss_pct`, and the warning where it is skipped. -/
def dailyLossPctBreach (cfg : RiskConfig) (realizedLoss : ℚ) (accountBalanceUsdt : Option ℚ) :
    List GuardBreach × Option String :=
  match cfg.kpiGuardMaxDailyLossPct with
  | none => ([], none)
  | some limit =>
      if 0 < realizedLoss then
        match accountBalanceUsdt with
        | none => ([], some balanceUnavailable)
        | some balance =>
            if balance ≤ 0 then ([], some balanceUnavailable)
            else if limit ≤ realizedLoss / balance * 100 then
              ([⟨"daily_loss_pct", realizedLoss / balance * 100, limit⟩], none)
            else ([], none)
      else ([], none)

/-- The variable `reliable`. -/
def guardReliable (cfg : RiskConfig) (health : StrategyHealth) : Bool :=
  !health.insufficient && decide (healthMinTrades ≤ health.sampleSize) &&
    cfg.kpiGuardMinTrades.all fun minTrades => decide (minTrades ≤ (health.sampleSize : ℤ))

/-- The rules `max_dd` and `min_win_rate`. -/
def statisticalBreaches (cfg : RiskConfig) (health : StrategyHealth) : List GuardBreach :=
  if guardReliable cfg health then
    (match cfg.kpiGuardMaxDdPct with
      | some limit => if limit ≤ health.maxDdPct then [⟨"max_dd", health.maxDdPct, limit⟩] else []
      | none => []) ++
      (match cfg.kpiGuardMinWinRatePct with
        | some limit =>
            if health.winRatePct < limit then [⟨"min_win_rate", health.winRatePct, limit⟩] else []
        | none => [])
  else []

/-- `evaluate_kpi_guard`. -/
def evaluateKpiGuard (health : StrategyHealth) (riskCfg : Option RiskConfig)
    (todayRealizedPnlUsdt : ℚ) (accountBalanceUsdt : Option ℚ) : GuardDecision :=
  match riskCfg with
  | none => { shouldPause := false }
  | some cfg =>
      if cfg.kpiGuardEnabled then
        let realizedLoss := -todayRealizedPnlUsdt
        let pct := dailyLossPctBreach cfg realizedLoss accountBalanceUsdt
        let breaches :=
          dailyLossBreach cfg realizedLoss ++ pct.1 ++ statisticalBreaches cfg health
        { shouldPause := !breaches.isEmpty, breaches := breaches, warning := pct.2 }
      else { shouldPause := false }

/-- What a turn of the guard finds: the ledgers, the time, the balance of the sub-account if the
exchange tells it, and whether the turn fails before its commit. -/
structure GuardReading where
  history : PnlHistory
  now : ℕ
  balance : Option ℚ := none
  fails : Bool := false

/-- `_compute_guard_loss_inputs`: what no rule asks for is not computed. -/
def computeGuardLossInputs (r : GuardReading) (config : AutoTradeConfig)
    (riskCfg : Option RiskConfig) : ℚ × Option ℚ :=
  match riskCfg with
  | none => (0, none)
  | some cfg =>
      if cfg.kpiGuardEnabled ∧
          (cfg.kpiGuardMaxDailyLossUsdt.isSome ∨ cfg.kpiGuardMaxDailyLossPct.isSome) then
        let todayPnl := todayRealizedPnlUsdt r.history config.id r.now
        (todayPnl, if cfg.kpiGuardMaxDailyLossPct.isSome ∧ todayPnl < 0 then r.balance else none)
      else (0, none)

/-- The decision of `apply_kpi_guard`, on the health that the sweep has computed. -/
def kpiGuardDecision (r : GuardReading) (config : AutoTradeConfig) (riskCfg : Option RiskConfig) :
    GuardDecision :=
  let inputs := computeGuardLossInputs r config riskCfg
  evaluateKpiGuard (computeStrategyHealth r.history config r.now) riskCfg inputs.1 inputs.2

/-! ### What the guard decides -/

/-- The loss of the day reaches a limit, in USDT or as a share of a balance that is known. -/
def LostToday (r : GuardReading) (config : AutoTradeConfig) (cfg : RiskConfig) : Prop :=
  (∃ limit, cfg.kpiGuardMaxDailyLossUsdt = some limit ∧
      limit ≤ -todayRealizedPnlUsdt r.history config.id r.now) ∨
    ∃ limit balance, cfg.kpiGuardMaxDailyLossPct = some limit ∧ r.balance = some balance ∧
      0 < balance ∧ todayRealizedPnlUsdt r.history config.id r.now < 0 ∧
      limit ≤ -todayRealizedPnlUsdt r.history config.id r.now / balance * 100

/-- A sample that is large enough has fallen too far, or has won too little. -/
def PerformsBadly (r : GuardReading) (config : AutoTradeConfig) (cfg : RiskConfig) : Prop :=
  healthMinTrades ≤ (computeStrategyHealth r.history config r.now).sampleSize ∧
    (∀ minTrades, cfg.kpiGuardMinTrades = some minTrades →
      minTrades ≤ ((computeStrategyHealth r.history config r.now).sampleSize : ℤ)) ∧
    ((∃ limit, cfg.kpiGuardMaxDdPct = some limit ∧
        limit ≤ strategyDrawdownPct r.history config (r.now - healthWindow)) ∨
      ∃ limit, cfg.kpiGuardMinWinRatePct = some limit ∧
        (computeStrategyHealth r.history config r.now).winRatePct < limit)

/-- A rule is breached of a guard that is switched on. -/
def Breached (r : GuardReading) (config : AutoTradeConfig) (riskCfg : Option RiskConfig) : Prop :=
  ∃ cfg, riskCfg = some cfg ∧ cfg.kpiGuardEnabled = true ∧
    (LostToday r config cfg ∨ PerformsBadly r config cfg)

section Decision

variable {r : GuardReading} {config : AutoTradeConfig} {riskCfg : Option RiskConfig}
  {cfg : RiskConfig} {loss : ℚ}

theorem dailyLossBreach_ne_nil :
    dailyLossBreach cfg loss ≠ [] ↔ ∃ limit, cfg.kpiGuardMaxDailyLossUsdt = some limit ∧
      limit ≤ loss := by
  rw [dailyLossBreach]
  cases cfg.kpiGuardMaxDailyLossUsdt with
  | none => simp
  | some limit => simp

theorem dailyLossPctBreach_ne_nil {balance : Option ℚ} :
    (dailyLossPctBreach cfg loss balance).1 ≠ [] ↔ ∃ limit b,
      cfg.kpiGuardMaxDailyLossPct = some limit ∧ balance = some b ∧ 0 < b ∧ 0 < loss ∧
        limit ≤ loss / b * 100 := by
  rw [dailyLossPctBreach]
  cases cfg.kpiGuardMaxDailyLossPct with
  | none => simp
  | some limit =>
    by_cases hloss : 0 < loss
    · cases balance with
      | none => simp [hloss]
      | some b =>
        by_cases hb : b ≤ 0
        · simp [hloss, hb]
        · by_cases hlimit : limit ≤ loss / b * 100
          · simp [hloss, hb, hlimit, not_le.mp hb]
          · simp [hb, hlimit]
    · simp [hloss]

theorem statisticalBreaches_ne_nil {health : StrategyHealth} :
    statisticalBreaches cfg health ≠ [] ↔ guardReliable cfg health = true ∧
      ((∃ limit, cfg.kpiGuardMaxDdPct = some limit ∧ limit ≤ health.maxDdPct) ∨
        ∃ limit, cfg.kpiGuardMinWinRatePct = some limit ∧ health.winRatePct < limit) := by
  rw [statisticalBreaches]
  by_cases hreliable : guardReliable cfg health = true
  · rw [if_pos hreliable, ne_eq, List.append_eq_nil_iff, not_and_or]
    cases cfg.kpiGuardMaxDdPct <;> cases cfg.kpiGuardMinWinRatePct <;> simp [hreliable]
  · simp [hreliable]

theorem guardReliable_iff : guardReliable cfg (computeStrategyHealth r.history config r.now) =
    true ↔ healthMinTrades ≤ (computeStrategyHealth r.history config r.now).sampleSize ∧
      ∀ minTrades, cfg.kpiGuardMinTrades = some minTrades →
        minTrades ≤ ((computeStrategyHealth r.history config r.now).sampleSize : ℤ) := by
  have hclass : (computeStrategyHealth r.history config r.now).insufficient =
      !decide (healthMinTrades ≤ (computeStrategyHealth r.history config r.now).sampleSize) := by
    rw [computeStrategyHealth, healthFromTrades]
    split
    · next hfew => rw [decide_eq_false (not_le.mpr hfew)]; rfl
    · next henough => rw [decide_eq_true (not_lt.mp henough)]; rfl
  rw [guardReliable, hclass, Bool.not_not, Bool.and_self, Bool.and_eq_true]
  cases cfg.kpiGuardMinTrades <;> simp

theorem lostToday_iff (r : GuardReading) (config : AutoTradeConfig)
    (hon : cfg.kpiGuardEnabled = true) :
    (dailyLossBreach cfg (-(computeGuardLossInputs r config (some cfg)).1) ≠ [] ∨
      (dailyLossPctBreach cfg (-(computeGuardLossInputs r config (some cfg)).1)
        (computeGuardLossInputs r config (some cfg)).2).1 ≠ []) ↔ LostToday r config cfg := by
  rw [dailyLossBreach_ne_nil, dailyLossPctBreach_ne_nil, LostToday, computeGuardLossInputs]
  dsimp only
  by_cases hasked : cfg.kpiGuardMaxDailyLossUsdt.isSome ∨ cfg.kpiGuardMaxDailyLossPct.isSome
  · rw [if_pos ⟨hon, hasked⟩]
    refine or_congr Iff.rfl (exists_congr fun limit => exists_congr fun balance => ?_)
    constructor
    · rintro ⟨hlimit, hbalance, hpos, hloss, hle⟩
      have hlost := neg_pos.mp hloss
      rw [hlimit, if_pos ⟨rfl, hlost⟩] at hbalance
      exact ⟨hlimit, hbalance, hpos, hlost, hle⟩
    · rintro ⟨hlimit, hbalance, hpos, hlost, hle⟩
      refine ⟨hlimit, ?_, hpos, neg_pos.mpr hlost, hle⟩
      rw [hlimit, if_pos ⟨rfl, hlost⟩]
      exact hbalance
  · -- no limit is set
    obtain ⟨husdt, hpct⟩ := not_or.mp hasked
    rw [Option.not_isSome_iff_eq_none] at husdt hpct
    simp [husdt, hpct]

/-- **The decision**, rule by rule. -/
theorem shouldPause_iff :
    (kpiGuardDecision r config riskCfg).shouldPause = true ↔ Breached r config riskCfg := by
  rw [kpiGuardDecision, Breached]
  cases riskCfg with
  | none => simp [evaluateKpiGuard]
  | some cfg =>
    by_cases hon : cfg.kpiGuardEnabled = true
    · rw [evaluateKpiGuard]
      rw [if_pos hon, Bool.not_eq_true', List.isEmpty_eq_false_iff, ne_eq, List.append_eq_nil_iff,
        List.append_eq_nil_iff, not_and_or, not_and_or]
      have hlost := lostToday_iff r config hon
      have hbadly : statisticalBreaches cfg (computeStrategyHealth r.history config r.now) ≠ [] ↔
          PerformsBadly r config cfg := by
        rw [statisticalBreaches_ne_nil, guardReliable_iff, and_assoc]
        refine and_congr_right fun henough => ?_
        rw [maxDdPct_computeStrategyHealth henough]
      constructor
      · exact fun h => ⟨cfg, rfl, hon, h.imp hlost.mp hbadly.mp⟩
      · rintro ⟨cfg', hcfg, -, h⟩
        obtain rfl := Option.some.inj hcfg
        exact h.imp hlost.mpr hbadly.mpr
    · simp [evaluateKpiGuard, hon]

end Decision

/-! ## The turns of the sweeps -/

/-- The columns of `auto_trade_events` that tell what a guard has done. -/
structure GuardEvent where
  userId : ℕ
  configId : Option ℕ
  eventType : String
  deriving DecidableEq

/-- The tables, and the events that the guards have written. -/
structure Governed (Hash : Type) where
  store : ConfigStore Hash
  events : List GuardEvent := []

/-- The settings of the portfolio guard; a threshold is between zero and a hundred. -/
structure PortfolioDdSettings where
  haltEnabled : Bool
  haltThresholdPct : ℚ
  pos : 0 < haltThresholdPct
  le : haltThresholdPct ≤ 100

/-- What a turn of the portfolio guard finds: the ledgers, the time, and whether it fails before the
first stop.  It may break off behind some of the stops, and the event may fail. -/
structure HaltReading where
  history : PnlHistory
  now : ℕ
  fails : Bool := false
  breaksBehind : Option ℕ := none
  eventFails : Bool := false

namespace GuardRun

variable {Hash : Type}

/-- A turn of `sweep_kpi_guards`, or `_maybe_auto_pause_after_close`. -/
def kpiTurn (s : Governed Hash) (configId : ℕ) (r : GuardReading) : Governed Hash :=
  match s.store.config? configId with
  | none => s
  | some config =>
      if config.isRunning ∧ ¬r.fails then
        let decision := kpiGuardDecision r config (s.store.risks configId)
        let event := fun eventType => (⟨config.userId, some config.id, eventType⟩ : GuardEvent)
        { store :=
            if decision.shouldPause then s.store.autoPauseStrategy configId r.now else s.store
          events := s.events ++
            (if decision.warning.isSome then [event "risk_check_degraded"] else []) ++
            if decision.shouldPause then
              [event "kpi_guard_triggered", event "strategy_auto_paused"]
            else [] }
      else s

/-- The strategies that the portfolio guard looks at. -/
def runningOf (s : ConfigStore Hash) (userId : ℕ) : List AutoTradeConfig :=
  s.configs.filter fun c => c.userId = userId && c.enabled && c.isRunning

/-- The drawdown that the portfolio guard computes. -/
def portfolioDd (s : ConfigStore Hash) (userId : ℕ) (r : HaltReading) : ℚ :=
  computeMergedPortfolioDdPct r.history (runningOf s userId) (r.now - healthWindow)

/-- The events of the stops of a user's strategies. -/
def stopEvents (configs : List AutoTradeConfig) : List GuardEvent :=
  (configs.filter AutoTradeConfig.isRunning).map fun c => ⟨c.userId, some c.id, "auto_trade_stop"⟩

/-- A turn of `sweep_portfolio_dd_guards`. -/
def haltTurn (settings : PortfolioDdSettings) (s : Governed Hash) (userId : ℕ) (r : HaltReading) :
    Governed Hash :=
  if !settings.haltEnabled ∨ settings.haltThresholdPct ≤ 0 then s
  else if r.fails ∨ portfolioDd s.store userId r < settings.haltThresholdPct then s
  else
    let configs := s.store.configs.filter (·.userId = userId)
    match r.breaksBehind with
    | some k =>
        { store := ((configs.map AutoTradeConfig.id).take k).foldl
            (setRunningOne userId false r.now) s.store
          events := s.events ++ stopEvents (configs.take k) }
    | none =>
        { store := s.store.setRunningBulk userId false r.now
          events := s.events ++ stopEvents configs ++ [⟨userId, none, "bulk_stop_all_invoked"⟩] ++
            if stopEvents configs = [] ∨ r.eventFails then []
            else [⟨userId, none, "portfolio_dd_halt"⟩] }

/-- An operation of the governance, or a turn of a guard. -/
inductive GuardStep where
  | govern (op : GovernanceOp)
  | kpi (configId : ℕ) (r : GuardReading)
  | halt (userId : ℕ) (r : HaltReading)

/-- A step.  The pause of the KPI guard is part of its turn, and no operation of its own. -/
def step [DecidableEq Hash] (digest : ContentSnapshot → Hash) (settings : PortfolioDdSettings)
    (s : Governed Hash) : GuardStep → Option (Governed Hash)
  | .govern (.autoPause _ _) => none
  | .govern op => some { s with store := op.apply digest s.store }
  | .kpi configId r => some (kpiTurn s configId r)
  | .halt userId r => some (haltTurn settings s userId r)

/-! ## What a step may start and stop -/

/-- The strategies that the step may start. -/
def starts : GuardStep → ℕ × ℕ → Prop
  | .govern op => op.starts
  | _ => fun _ => False

/-- Why a step may stop a strategy: an operation of its user or of the kill-switch, a rule of its
guard that is breached, or a drawdown of the portfolio that a running strategy of the user has
alone. -/
def Cause (settings : PortfolioDdSettings) (s : Governed Hash) : GuardStep → ℕ × ℕ → Prop
  | .govern op, k => op.stops k
  | .kpi configId r, k => ∃ c ∈ s.store.configs, c.id = configId ∧ c.key = k ∧
      Breached r c (s.store.risks configId)
  | .halt userId r, k => k.2 = userId ∧
      settings.haltThresholdPct ≤ portfolioDd s.store userId r ∧
      ∃ c ∈ runningOf s.store userId,
        settings.haltThresholdPct ≤ strategyDrawdownPct r.history c (r.now - healthWindow)

/-- The tables are consistent, and every base is positive. -/
structure Sound (digest : ContentSnapshot → Hash) (s : Governed Hash) : Prop where
  consistent : Consistent digest s.store
  positive : ∀ c ∈ s.store.configs, 0 < c.positionSizeUsdt

section Steps

variable {digest : ContentSnapshot → Hash} {settings : PortfolioDdSettings}
  {s s' t : Governed Hash} {a : GuardStep}

theorem moves_kpiTurn (h : Consistent digest s.store) (configId : ℕ) (r : GuardReading) :
    Consistent digest (kpiTurn s configId r).store ∧
      Moves (fun _ => False) (Cause settings s (.kpi configId r)) s.store
        (kpiTurn s configId r).store := by
  rw [kpiTurn]
  cases hconfig : s.store.config? configId with
  | none => exact ⟨h, Moves.refl _⟩
  | some config =>
    have hmem := List.mem_of_find?_eq_some hconfig
    have hid : config.id = configId := by simpa [config?] using List.find?_some hconfig
    dsimp only
    split
    · split
      · next hpause =>
        refine ⟨h.autoPauseStrategy _ _, ?_⟩
        have hmoves := moves_autoPauseStrategy h configId r.now
        refine ⟨hmoves.started, fun c hc hruns => ?_, hmoves.positive⟩
        refine (hmoves.stopped c hc hruns).imp_right fun hstop => ?_
        obtain rfl := h.ids c hc config hmem (hstop.trans hid.symm)
        exact ⟨c, hc, hid, rfl, shouldPause_iff.mp hpause⟩
      · exact ⟨h, Moves.refl _⟩
    · exact ⟨h, Moves.refl _⟩

theorem moves_haltTurn (h : Sound digest s) (userId : ℕ) (r : HaltReading) :
    Consistent digest (haltTurn settings s userId r).store ∧
      Moves (fun _ => False) (Cause settings s (.halt userId r)) s.store
        (haltTurn settings s userId r).store := by
  rw [haltTurn]
  split
  · exact ⟨h.consistent, Moves.refl _⟩
  · split
    · exact ⟨h.consistent, Moves.refl _⟩
    · next hbreach =>
      obtain ⟨-, hbreach⟩ := not_or.mp hbreach
      have hreached := not_lt.mp hbreach
      -- a breach of the portfolio is one of a running strategy alone
      obtain ⟨c, hc, halone, -⟩ := worstStrategy_of_portfolioDd
        (fun c hc => h.positive c (List.mem_of_mem_filter hc)) settings.pos settings.le hreached
      have hstops : ∀ ids : List ℕ,
          Consistent digest (ids.foldl (setRunningOne userId false r.now) s.store) ∧
            Moves (fun _ => False) (Cause settings s (.halt userId r)) s.store
              (ids.foldl (setRunningOne userId false r.now) s.store) := by
        intro ids
        obtain ⟨hconsistent, hmoves⟩ :=
          moves_foldl_setRunningOne h.consistent userId false r.now ids
        refine ⟨hconsistent, hmoves.mono (fun _ hk => absurd hk.1 nofun) fun k hk => ?_⟩
        exact ⟨hk.2, hreached, c, hc, halone⟩
      cases r.breaksBehind with
      | some k => exact hstops _
      | none => exact hstops _

theorem sound_initial {s : Governed Hash} (hconfigs : s.store.configs = [])
    (hrevisions : s.store.revisions = []) : Sound digest s := by
  refine ⟨?_, ?_⟩
  · constructor <;> simp [hconfigs, hrevisions]
  · simp [hconfigs]

variable [DecidableEq Hash]

/-- **What a step may start and stop.** -/
theorem moves_step (h : Sound digest s) (hstep : step digest settings s a = some s') :
    Sound digest s' ∧ Moves (starts a) (Cause settings s a) s.store s'.store := by
  have hboth : Consistent digest s'.store ∧
      Moves (starts a) (Cause settings s a) s.store s'.store := by
    cases a with
    | govern op =>
      have hop : s' = { s with store := op.apply digest s.store } := by
        cases op <;> first | exact (Option.some.inj hstep).symm | cases hstep
      rw [hop]
      exact ⟨GovernanceRun.consistent_apply h.consistent op, op.moves_apply h.consistent⟩
    | kpi configId r => exact Option.some.inj hstep ▸ moves_kpiTurn h.consistent configId r
    | halt userId r => exact Option.some.inj hstep ▸ moves_haltTurn h userId r
  exact ⟨⟨hboth.1, hboth.2.positive h.positive⟩, hboth.2⟩

/-! ## Runs -/

/-- **No guard stops a strategy without a cause**, and no step starts one but the start of its
user. -/
theorem causes_of_run {as : List GuardStep} (hconfigs : s.store.configs = [])
    (hrevisions : s.store.revisions = []) :
    AlongRun (step digest settings) (fun s a => ∀ s', step digest settings s a = some s' →
      Moves (starts a) (Cause settings s a) s.store s'.store) s as := by
  refine AlongRun.of_invariant (step digest settings) (P := fun _ _ => True) (I := Sound digest)
    (fun u b u' hu _ hstep => (moves_step hu hstep).1) (fun u b hu _ u' hstep =>
      (moves_step hu hstep).2) (sound_initial hconfigs hrevisions) ?_
  exact alongRun_of_forall (step digest settings) (p := fun _ => True) fun _ _ => trivial

def fifthOff : PortfolioDdSettings := ⟨true, 20, by norm_num, by norm_num⟩

/-- The strategy of a user, with a limit of 40 on the loss of a day, is set up and started. -/
def startedSteps : List GuardStep :=
  [.govern (.upsert 1
      { GovernanceRun.sandboxRequest with
        risk := some { kpiGuardEnabled := true, kpiGuardMaxDailyLossUsdt := some 40 } } false 0),
    .govern (.setRunning 1 true (some 1) 1)]

def lossToday : GuardReading where
  history := { fills := [{ losingFill 1 (30 * 86400) with autoTradeConfigId := some 1 }] }
  now := 30 * 86400 + 60

/-- The KPI guard stops the strategy, and every step has its cause. -/
theorem causes_lossToday :
    (run (step id fifthOff) ⟨GovernanceRun.freshUser, []⟩ (startedSteps ++ [.kpi 1 lossToday])).map
        (fun s => s.events.map GuardEvent.eventType) =
          some ["kpi_guard_triggered", "strategy_auto_paused"] ∧
      AlongRun (step id fifthOff) (fun s a => ∀ s', step id fifthOff s a = some s' →
        Moves (starts a) (Cause fifthOff s a) s.store s'.store) ⟨GovernanceRun.freshUser, []⟩
          (startedSteps ++ [.kpi 1 lossToday]) :=
  ⟨by decide +kernel, causes_of_run rfl rfl⟩

theorem idle_of_run {p : ℕ × ℕ → Prop} {bs : List GuardStep} (h : Sound digest s)
    (hidle : ∀ c ∈ s.store.configs, p c.key → c.isRunning = false)
    (hrun : run (step digest settings) s bs = some t) (hstarts : ∀ b ∈ bs, ∀ k, p k → ¬starts b k) :
    ∀ c ∈ t.store.configs, p c.key → c.isRunning = false := by
  have hall := invariant_of_alongRun (step digest settings) (P := fun _ b => ∀ k, p k → ¬starts b k)
    (I := fun u => Sound digest u ∧ ∀ c ∈ u.store.configs, p c.key → c.isRunning = false)
    (fun u b u' hu hb hstep => by
      obtain ⟨hsound, hmoves⟩ := moves_step hu.1 hstep
      exact ⟨hsound, hmoves.idle hb hu.2⟩)
    ⟨h, hidle⟩ (alongRun_of_forall _ hstarts) hrun
  exact hall.2

/-- **What a guard has stopped** does not run until its user starts it: a strategy whose guard is
breached in a turn that does not fail, and all strategies of a user whose portfolio is in a turn
that neither fails nor breaks off. -/
theorem pausedUntilStarted_of_run {s₀ : Governed Hash} {as : List GuardStep}
    (hconfigs : s₀.store.configs = []) (hrevisions : s₀.store.revisions = [])
    (hrun : run (step digest settings) s₀ as = some s) (bs : List GuardStep) :
    (∀ (c : AutoTradeConfig) (r : GuardReading) (t : Governed Hash), c ∈ s.store.configs →
      r.fails = false → Breached r c (s.store.risks c.id) →
      run (step digest settings) s (.kpi c.id r :: bs) = some t → (∀ b ∈ bs, ¬starts b c.key) →
        ∀ c' ∈ t.store.configs, c'.key = c.key → c'.isRunning = false) ∧
      ∀ (userId : ℕ) (r : HaltReading) (t : Governed Hash), settings.haltEnabled = true →
        r.fails = false → r.breaksBehind = none →
        settings.haltThresholdPct ≤ portfolioDd s.store userId r →
        run (step digest settings) s (.halt userId r :: bs) = some t →
        (∀ b ∈ bs, ∀ configId, ¬starts b (configId, userId)) →
          ∀ c' ∈ t.store.configs, c'.userId = userId → c'.isRunning = false := by
  have hsound := run_invariant (step digest settings) (I := Sound digest)
    (fun u b u' hu hstep => (moves_step hu hstep).1) (sound_initial hconfigs hrevisions) hrun
  refine ⟨fun c r t hc hfails hbreached hrest hstarts => ?_,
    fun userId r t henabled hfails hwhole hreached hrest hstarts => ?_⟩
  · obtain ⟨s', hturn, hrest⟩ := (run_cons_eq_some _).mp hrest
    have hsound' := (moves_step hsound hturn).1
    refine idle_of_run (p := fun k => k = c.key) hsound' ?_ hrest fun b hb k hk => hk ▸ hstarts b hb
    obtain rfl := Option.some.inj hturn
    intro c' hc' hkey
    rw [kpiTurn, hsound.consistent.config? hc] at hc'
    dsimp only at hc'
    split at hc'
    · rw [if_pos (shouldPause_iff.mpr hbreached)] at hc'
      exact autoPauseStrategy_stops hsound.consistent hc r.now c' hc' hkey
    · next hnot =>
      have hsame := hsound.consistent.ids c' hc' c hc (congrArg Prod.fst hkey)
      rw [hsame]
      by_contra hruns
      exact hnot ⟨Bool.eq_true_of_not_eq_false hruns, by rw [hfails]; exact Bool.false_ne_true⟩
  · obtain ⟨s', hturn, hrest⟩ := (run_cons_eq_some _).mp hrest
    have hsound' := (moves_step hsound hturn).1
    have hnone : ∀ b ∈ bs, ∀ k : ℕ × ℕ, k.2 = userId → ¬starts b k := by
      rintro b hb ⟨configId, user⟩ rfl
      exact hstarts b hb configId
    refine fun c' hc' huser =>
      idle_of_run (p := fun k => k.2 = userId) hsound' ?_ hrest hnone c' hc' huser
    obtain rfl := Option.some.inj hturn
    intro c' hc' huser
    rw [haltTurn, if_neg, if_neg, hwhole] at hc'
    · exact setRunningBulk_stops hsound.consistent userId r.now c' hc' huser
    · rw [hfails]
      exact not_or.mpr ⟨Bool.false_ne_true, not_lt.mpr hreached⟩
    · rw [henabled]
      exact not_or.mpr ⟨Bool.false_ne_true, not_le.mpr settings.pos⟩

end Steps

/-- The guard stops the strategy, and saving its configuration anew does not start it. -/
theorem pausedUntilStarted_savedAnew :
    ∃ s t, run (step id fifthOff) ⟨GovernanceRun.freshUser, []⟩ startedSteps = some s ∧
      run (step id fifthOff) s
        [.kpi 1 lossToday, .govern (.upsert 1 GovernanceRun.sandboxRequest false 3)] = some t ∧
      ∀ c ∈ t.store.configs, c.key = (1, 1) → c.isRunning = false := by
  obtain ⟨s, hs⟩ := Option.isSome_iff_exists.mp (show
    (run (step id fifthOff) ⟨GovernanceRun.freshUser, []⟩ startedSteps).isSome by decide +kernel)
  have hfirst : (run (step id fifthOff) ⟨GovernanceRun.freshUser, []⟩ startedSteps).map (fun s =>
      s.store.configs.head?.map fun c =>
        (c.key, (kpiGuardDecision lossToday c (s.store.risks c.id)).shouldPause)) =
          some (some ((1, 1), true)) := by
    decide +kernel
  rw [hs, Option.map_some, Option.some.injEq, Option.map_eq_some_iff] at hfirst
  obtain ⟨c, hc, hfound⟩ := hfirst
  have hkey : c.key = (1, 1) := congrArg Prod.fst hfound
  have hid : c.id = 1 := congrArg Prod.fst hkey
  obtain ⟨t, ht⟩ : ∃ t, run (step id fifthOff) s
      [.kpi 1 lossToday, .govern (.upsert 1 GovernanceRun.sandboxRequest false 3)] = some t :=
    ⟨_, rfl⟩
  have hpaused := (pausedUntilStarted_of_run rfl rfl hs
    [.govern (.upsert 1 GovernanceRun.sandboxRequest false 3)]).1 c lossToday t
  refine ⟨s, t, hs, ht, hkey ▸ hpaused (List.mem_of_head? hc) rfl
    (shouldPause_iff.mp (congrArg Prod.snd hfound)) ?_ ?_⟩
  · rw [hid]
    exact ht
  · intro b hb hstarts
    rw [List.mem_singleton.mp hb] at hstarts
    exact hstarts

end GuardRun

end AdviserConstructor
