import AdviserConstructor.AutoTrade.ConfigRequest
import Mathlib.Logic.Function.Basic

/-!
# The governance of configurations

The tables that a user's strategies are configured in, and the operations that write them: the
upsert of a configuration with its risk row and its revisions, the rollback to a revision, promotion
and demotion, starting and stopping, the pauses of the KPI guard and of the kill-switch, and the
update of an exchange account.

An operation has an outcome: the tables as it leaves them, and what it returns or raises.  Where the
code commits before it raises, the outcome has both the written tables and the failure.

The digest of a content snapshot stands for the SHA-256 of its canonical JSON text and is a
parameter.  What an operation finds out from elsewhere is an argument: whether the position sync
found an open position, and the decision of the KPI gate.

* `ConfigStore.upsertConfig_cases`: what an upsert can do to the configurations.
* `ConfigStore.accountMode_setAccount`: whose mode an account update changes.
-/

namespace AdviserConstructor

open DecimalText

/-! ## Symbols -/

/-- `_KNOWN_QUOTES`. -/
def knownQuotes : List String := ["USDT", "USDC", "USD", "BTC", "ETH", "EUR", "BUSD"]

/-- The perpetual of a base and a quote asset. -/
def perpSymbol (base quote : List Char) : String :=
  String.ofList (base ++ '/' :: quote ++ ':' :: quote)

/-- `to_linear_perp_symbol`. -/
def toLinearPerpSymbol (symbol : String) : Except String String :=
  let raw := (uppered (stripped symbol)).toList
  if raw = [] then .error "symbol is required."
  else if '/' ∈ raw then
    let base := strip (raw.takeWhile (· ≠ '/'))
    let quote := strip (((raw.dropWhile (· ≠ '/')).drop 1).takeWhile (· ≠ ':'))
    if base = [] ∨ quote = [] then .error "symbol must include base and quote asset."
    else .ok (perpSymbol base quote)
  else
    let compact := raw.filter fun c => c.isUpper || c.isDigit
    match knownQuotes.find? fun q => q.toList.isSuffixOf compact && q.length < compact.length with
    | some quote => .ok (perpSymbol (compact.take (compact.length - quote.length)) quote.toList)
    | none =>
        if compact.all Char.isAlpha ∧ 2 ≤ compact.length ∧ compact.length ≤ 10 then
          .ok (perpSymbol compact "USDT".toList)
        else .error "symbol must include a supported quote asset."

/-! ## Lifecycle transitions -/

/-- `PromotionTrigger`. -/
inductive PromotionTrigger where
  | submitToSandbox | requestPromotion | gatePassed | gateFailed | demote | reject | archive
  deriving DecidableEq, Repr

namespace LifecycleStage

def value : LifecycleStage → String
  | .research => "research"
  | .sandbox => "sandbox"
  | .validation => "validation"
  | .live => "live"
  | .rejected => "rejected"
  | .archived => "archived"

/-- `VALID_TRANSITIONS`. -/
def validTransitions : LifecycleStage → List (PromotionTrigger × LifecycleStage)
  | .research => [(.submitToSandbox, .sandbox), (.reject, .rejected), (.archive, .archived)]
  | .sandbox => [(.requestPromotion, .validation), (.reject, .rejected), (.archive, .archived)]
  | .validation => [(.gatePassed, .live), (.gateFailed, .sandbox), (.archive, .archived)]
  | .live => [(.demote, .sandbox), (.archive, .archived)]
  | .rejected => []
  | .archived => []

/-- `apply_transition`; nothing where it raises. -/
def applyTransition (stage : LifecycleStage) (trigger : PromotionTrigger) :
    Option LifecycleStage :=
  stage.validTransitions.lookup trigger

end LifecycleStage

/-! ## The tables -/

/-- The modes of an exchange account. -/
inductive ExchangeMode where
  | demo | real
  deriving DecidableEq, Repr

/-- `ExchangeCredential`, without the encrypted keys. -/
structure ExchangeCredential where
  id : ℕ
  userId : ℕ
  exchangeName : String
  accountLabel : String
  mode : ExchangeMode
  apiKeyHash : Option String := none
  deriving DecidableEq

/-- `PersonalAnalysisProfile`, as far as a configuration reads it. -/
structure AnalysisProfile where
  id : ℕ
  userId : ℕ
  symbol : String
  deriving DecidableEq

/-- What a revision captures: `_config_content_snapshot`. -/
structure ContentSnapshot where
  enabled : Bool
  profileId : ℕ
  accountId : ℕ
  positionSizeUsdt : ℚ
  leverage : ℤ
  minConfidencePct : ℚ
  fastCloseConfidencePct : ℚ
  confirmReportsRequired : ℤ
  riskMode : String
  slPct : ℚ
  tpPct : ℚ
  strategyProfile : Option StrategyProfile
  strategyName : Option String
  attachedForecastId : Option String
  risk : Option RiskConfig
  deriving DecidableEq

/-- `AutoTradeConfigRevision`. -/
structure ConfigRevision (Hash : Type) where
  id : ℕ
  configId : ℕ
  revisionNumber : ℕ
  contentHash : Hash
  snapshot : ContentSnapshot
  actor : Option String

/-- `_config_content_snapshot`. -/
def AutoTradeConfig.contentSnapshot (config : AutoTradeConfig) (risk : Option RiskConfig) :
    ContentSnapshot where
  enabled := config.enabled
  profileId := config.profileId
  accountId := config.accountId
  positionSizeUsdt := config.positionSizeUsdt
  leverage := config.leverage
  minConfidencePct := config.minConfidencePct
  fastCloseConfidencePct := config.fastCloseConfidencePct
  confirmReportsRequired := config.confirmReportsRequired
  riskMode := config.riskMode
  slPct := config.slPct
  tpPct := config.tpPct
  strategyProfile := config.strategyProfile
  strategyName := config.strategyName
  attachedForecastId := config.attachedForecastId
  risk := risk

/-- The tables.  A risk row has the id of its configuration as its key. -/
structure ConfigStore (Hash : Type) where
  accounts : List ExchangeCredential
  profiles : List AnalysisProfile
  configs : List AutoTradeConfig := []
  risks : ℕ → Option RiskConfig := fun _ => none
  revisions : List (ConfigRevision Hash) := []
  nextConfigId : ℕ := 1
  nextRevisionId : ℕ := 1

/-- What an operation raises. -/
inductive ServiceFailure where
  | lookup (message : String)
  | value (message : String)
  | request (error : RequestError)
  | invalidPromotion (message : String)
  | promotionGate
  deriving DecidableEq

/-- What an operation leaves behind, and the id of the configuration that it returns. -/
structure Outcome (Hash : Type) where
  store : ConfigStore Hash
  result : Except ServiceFailure ℕ

namespace ConfigStore

variable {Hash : Type}

def config? (s : ConfigStore Hash) (id : ℕ) : Option AutoTradeConfig :=
  s.configs.find? (·.id = id)

/-- `get_account`. -/
def getAccount (s : ConfigStore Hash) (accountId userId : ℕ) : Option ExchangeCredential :=
  s.accounts.find? fun a => a.id = accountId ∧ a.userId = userId

/-- The mode of an account, if there is one with the id. -/
def accountMode (s : ConfigStore Hash) (accountId : ℕ) : Option ExchangeMode :=
  (s.accounts.find? (·.id = accountId)).map ExchangeCredential.mode

/-- `_account_is_demo`. -/
def accountIsDemo (s : ConfigStore Hash) (accountId : ℕ) : Bool :=
  s.accountMode accountId = some .demo

/-- Write a row of the configurations. -/
def setConfig (s : ConfigStore Hash) (row : AutoTradeConfig) : ConfigStore Hash :=
  { s with configs := s.configs.map fun c => if c.id = row.id then row else c }

def fail (s : ConfigStore Hash) (failure : ServiceFailure) : Outcome Hash := ⟨s, .error failure⟩

/-! ## Risk rows -/

/-- `_exchange_max_leverage`. -/
def exchangeMaxLeverage (exchangeName : String) : ℤ :=
  if lowered (stripped exchangeName) = "bybit" then 100 else 125

/-- `_assert_leverage_ceiling_within_exchange`, for a risk block that may have no ceiling. -/
def assertLeverageCeiling (exchangeName : String) (risk : RiskConfig) :
    Except ServiceFailure Unit :=
  match risk.leverageCeiling with
  | none => .ok ()
  | some ceiling =>
      if exchangeMaxLeverage exchangeName < ceiling then
        .error (.value ("leverage_ceiling " ++ toString ceiling ++ " exceeds the " ++
          (if exchangeName = "" then "exchange" else exchangeName) ++ " maximum leverage of " ++
          toString (exchangeMaxLeverage exchangeName) ++ "."))
      else .ok ()

/-- `_resolve_account_exchange_name`. -/
def resolveAccountExchangeName (s : ConfigStore Hash) (accountId : ℕ) : String :=
  ((s.accounts.find? (·.id = accountId)).map ExchangeCredential.exchangeName).getD ""

/-- The check of the ceiling against the venue of the configuration's own account. -/
def checkLeverageCeiling (s : ConfigStore Hash) (configId : ℕ) (risk : RiskConfig) :
    Except ServiceFailure Unit :=
  match s.config? configId with
  | none => .ok ()
  | some config => assertLeverageCeiling (s.resolveAccountExchangeName config.accountId) risk

/-- `_apply_risk_config`: a missing block changes nothing. -/
def applyRiskConfig (s : ConfigStore Hash) (configId : ℕ) (risk : Option RiskConfig) :
    Except ServiceFailure (ConfigStore Hash) :=
  match risk with
  | none => .ok s
  | some risk =>
      match s.checkLeverageCeiling configId risk with
      | .error failure => .error failure
      | .ok () => .ok { s with risks := Function.update s.risks configId (some risk) }

/-! ## Revisions -/

/-- The revision of a configuration with the highest number. -/
def latestRevision (s : ConfigStore Hash) (configId : ℕ) : Option (ConfigRevision Hash) :=
  (s.revisions.filter (·.configId = configId)).foldl
    (fun latest r =>
      match latest with
      | none => some r
      | some best => if best.revisionNumber < r.revisionNumber then some r else some best)
    none

variable [DecidableEq Hash] (digest : ContentSnapshot → Hash)

/-- `_record_config_revision`. -/
def recordConfigRevision (s : ConfigStore Hash) (config : AutoTradeConfig) (actor : String) :
    ConfigStore Hash :=
  let snapshot := config.contentSnapshot (s.risks config.id)
  let latest := s.latestRevision config.id
  if latest.map ConfigRevision.contentHash = some (digest snapshot) then s
  else
    { s with
      revisions := s.revisions ++
        [{ id := s.nextRevisionId
           configId := config.id
           revisionNumber := (latest.map ConfigRevision.revisionNumber).getD 0 + 1
           contentHash := digest snapshot
           snapshot := snapshot
           actor := some actor }]
      nextRevisionId := s.nextRevisionId + 1 }

/-! ## Upserts -/

/-- `_SUPPORTED_AUTO_TRADE_FUTURES_EXCHANGES`. -/
def supportedAutoTradeFuturesExchanges : List String := ["bybit", "binance"]

/-- What `upsert_config` checks before it writes anything. -/
def checkUpsert (s : ConfigStore Hash) (userId : ℕ) (payload : UpsertRequest) :
    Except ServiceFailure Unit :=
  match s.profiles.find? fun p => p.id = payload.profileId ∧ p.userId = userId with
  | none => .error (.lookup "Personal analysis profile not found.")
  | some profile =>
      match toLinearPerpSymbol profile.symbol with
      | .error _ =>
          .error (.value ("Unsupported profile symbol for linear futures: " ++ profile.symbol))
      | .ok _ =>
          match s.getAccount payload.accountId userId with
          | none => .error (.lookup "Exchange account not found.")
          | some account =>
              if account.exchangeName ∉ supportedAutoTradeFuturesExchanges then
                .error (.value "Auto-trade futures v1 supports Bybit and Binance USDT-M only.")
              else
                match payload.risk with
                | none => .ok ()
                | some risk => assertLeverageCeiling account.exchangeName risk

/-- The row that `upsert_config` creates: it is stopped, and in the sandbox. -/
def newConfig (s : ConfigStore Hash) (userId : ℕ) (payload : UpsertRequest) (now : ℕ) :
    AutoTradeConfig where
  id := s.nextConfigId
  userId := userId
  profileId := payload.profileId
  accountId := payload.accountId
  enabled := payload.enabled
  isRunning := false
  positionSizeUsdt := payload.positionSizeUsdt
  leverage := payload.leverage
  minConfidencePct := payload.minConfidencePct
  fastCloseConfidencePct := payload.fastCloseConfidencePct
  confirmReportsRequired := payload.confirmReportsRequired
  riskMode := payload.riskMode
  slPct := payload.slPct
  tpPct := payload.tpPct
  strategyProfile := payload.strategyProfile.join
  strategyName := payload.strategyName.join
  attachedForecastId := payload.attachedForecastId.join
  lastStartedAt := none
  lastStoppedAt := if payload.enabled then none else some now
  lifecycleStage := .sandbox
  sandboxEnteredAt := some now

/-- The row that `upsert_config` overwrites, as it leaves it. -/
def updatedConfig (row : AutoTradeConfig) (payload : UpsertRequest) (now : ℕ) : AutoTradeConfig :=
  { row with
    profileId := payload.profileId
    accountId := payload.accountId
    enabled := payload.enabled
    isRunning := if payload.enabled then row.isRunning else false
    lastStoppedAt := if payload.enabled then row.lastStoppedAt else some now
    positionSizeUsdt := payload.positionSizeUsdt
    leverage := payload.leverage
    minConfidencePct := payload.minConfidencePct
    fastCloseConfidencePct := payload.fastCloseConfidencePct
    confirmReportsRequired := payload.confirmReportsRequired
    riskMode := payload.riskMode
    slPct := payload.slPct
    tpPct := payload.tpPct
    strategyProfile := payload.strategyProfile.getD row.strategyProfile
    strategyName := payload.strategyName.getD row.strategyName
    attachedForecastId := payload.attachedForecastId.getD row.attachedForecastId }

/-- The end of `upsert_config`, once the row is committed: the risk row and the revision. -/
def finishUpsert (s : ConfigStore Hash) (row : AutoTradeConfig) (risk : Option RiskConfig) :
    Outcome Hash :=
  match s.applyRiskConfig row.id risk with
  | .error failure => s.fail failure
  | .ok s' => ⟨recordConfigRevision digest s' row "user", .ok row.id⟩

/-- `upsert_config`, over a validated request. -/
def upsertConfig (s : ConfigStore Hash) (userId : ℕ) (payload : UpsertRequest) (openPosition : Bool)
    (now : ℕ) : Outcome Hash :=
  match s.checkUpsert userId payload with
  | .error failure => s.fail failure
  | .ok () =>
      match s.configs.find? fun c => c.userId = userId ∧ c.accountId = payload.accountId with
      | none =>
          finishUpsert digest
            { s with
              configs := s.configs ++ [s.newConfig userId payload now]
              nextConfigId := s.nextConfigId + 1 }
            (s.newConfig userId payload now) payload.risk
      | some row =>
          if row.profileId ≠ payload.profileId ∨ row.accountId ≠ payload.accountId then
            if row.isRunning then
              s.fail (.value ("Cannot change profile_id/account_id while auto-trade is running. " ++
                "Stop auto-trade first."))
            else if openPosition then
              s.fail (.value ("Cannot change profile_id/account_id while an auto-trade position " ++
                "is open."))
            else
              finishUpsert digest (s.setConfig (updatedConfig row payload now))
                (updatedConfig row payload now) payload.risk
          else
            finishUpsert digest (s.setConfig (updatedConfig row payload now))
              (updatedConfig row payload now) payload.risk

/-- The request that `rollback_config` builds from a snapshot: every field is set. -/
def rollbackRequest (snap : ContentSnapshot) : UpsertRequest where
  enabled := snap.enabled
  profileId := snap.profileId
  accountId := snap.accountId
  positionSizeUsdt := snap.positionSizeUsdt
  leverage := snap.leverage
  minConfidencePct := snap.minConfidencePct
  fastCloseConfidencePct := snap.fastCloseConfidencePct
  confirmReportsRequired := snap.confirmReportsRequired
  riskMode := snap.riskMode
  slPct := snap.slPct
  tpPct := snap.tpPct
  strategyProfile := some snap.strategyProfile
  strategyName := some snap.strategyName
  attachedForecastId := some snap.attachedForecastId
  risk := snap.risk

/-- `rollback_config`. -/
def rollbackConfig (s : ConfigStore Hash) (userId configId revisionId : ℕ) (openPosition : Bool)
    (now : ℕ) : Outcome Hash :=
  match s.config? configId with
  | none => s.fail (.lookup "Auto-trade config not found.")
  | some config =>
      if config.userId ≠ userId then s.fail (.lookup "Auto-trade config not found.")
      else
        match s.revisions.find? (·.id = revisionId) with
        | none => s.fail (.lookup "Config revision not found for this strategy.")
        | some revision =>
            if revision.configId ≠ configId then
              s.fail (.lookup "Config revision not found for this strategy.")
            else
              match (rollbackRequest revision.snapshot).validate with
              | .error error => s.fail (.request error)
              | .ok request => upsertConfig digest s userId request openPosition now

omit [DecidableEq Hash]

/-- `apply_risk_config_to_all_strategies`: all rows in one transaction, or none. -/
def applyRiskConfigToAllStrategies (s : ConfigStore Hash) (userId : ℕ) (risk : RiskConfig) :
    Outcome Hash :=
  let configs := s.configs.filter (·.userId = userId)
  match configs.foldlM (fun s' config => applyRiskConfig s' config.id (some risk)) s with
  | .error failure => s.fail failure
  | .ok s' => ⟨s', .ok configs.length⟩

/-! ## Promotion and demotion -/

/-- `promote_strategy`, the KPI gate having decided `canPromote`. -/
def promoteStrategy (s : ConfigStore Hash) (userId configId : ℕ) (canPromote : Bool) :
    Outcome Hash :=
  match s.config? configId with
  | none => s.fail (.lookup "Auto-trade config not found.")
  | some config =>
      if config.userId ≠ userId then s.fail (.lookup "Auto-trade config not found.")
      else if config.lifecycleStage ≠ .sandbox then
        s.fail (.invalidPromotion ("Only sandbox strategies can be promoted (stage=" ++
          config.lifecycleStage.value ++ ")."))
      else if !canPromote then s.fail .promotionGate
      else
        match (config.lifecycleStage.applyTransition .requestPromotion).bind
          (·.applyTransition .gatePassed) with
        | none => s.fail (.invalidPromotion "")
        | some stage =>
            ⟨s.setConfig { config with lifecycleStage := stage, sandboxEnteredAt := none },
              .ok config.id⟩

/-- The row as `demote_strategy` leaves it: stopped, and in the sandbox anew. -/
def demotedConfig (row : AutoTradeConfig) (stage : LifecycleStage) (now : ℕ) : AutoTradeConfig :=
  { row with
    lifecycleStage := stage
    sandboxEnteredAt := some now
    isRunning := false
    lastStoppedAt := if row.isRunning then some now else row.lastStoppedAt }

/-- `demote_strategy`. -/
def demoteStrategy (s : ConfigStore Hash) (userId configId : ℕ) (now : ℕ) : Outcome Hash :=
  match s.config? configId with
  | none => s.fail (.lookup "Auto-trade config not found.")
  | some config =>
      if config.userId ≠ userId then s.fail (.lookup "Auto-trade config not found.")
      else
        match config.lifecycleStage.applyTransition .demote with
        | none =>
            s.fail (.invalidPromotion
              ("Cannot demote in stage " ++ config.lifecycleStage.value))
        | some stage =>
            ⟨s.setConfig (demotedConfig config stage now), .ok config.id⟩

/-! ## Starting and stopping -/

/-- `_get_config_for_scope`, failing where several configurations are meant. -/
def getConfigForScope (s : ConfigStore Hash) (userId : ℕ) (accountId : Option ℕ) :
    Except ServiceFailure (Option AutoTradeConfig) :=
  match accountId with
  | some accountId => .ok (s.configs.find? fun c => c.userId = userId ∧ c.accountId = accountId)
  | none =>
      match s.configs.filter (·.userId = userId) with
      | [] => .ok none
      | [row] => .ok (some row)
      | _ =>
          .error (.value ("Multiple auto-trade configs found. Provide account_id to select " ++
            "config scope."))

/-- The row as `set_running` leaves it: a start clears the latch of the kill-switch. -/
def runningConfig (row : AutoTradeConfig) (isRunning : Bool) (now : ℕ) : AutoTradeConfig :=
  if isRunning then
    { row with
      isRunning := true
      lastStartedAt := some now
      riskOffLatched := false
      riskOffReason := none
      riskOffAt := none }
  else { row with isRunning := false, lastStoppedAt := some now }

/-- `set_running`. -/
def setRunning (s : ConfigStore Hash) (userId : ℕ) (isRunning : Bool) (accountId : Option ℕ)
    (now : ℕ) : Outcome Hash :=
  match s.getConfigForScope userId accountId with
  | .error failure => s.fail failure
  | .ok none => s.fail (.lookup "Auto-trade config not found.")
  | .ok (some row) =>
      if isRunning ∧ ¬row.enabled then s.fail (.value "Auto-trade config is disabled.")
      else if isRunning ∧ row.lifecycleStage ≠ .live ∧ ¬s.accountIsDemo row.accountId then
        s.fail (.value ("A non-live strategy (stage=" ++ row.lifecycleStage.value ++
          ") may only run on a demo account; promote it through the KPI gate to run on a real " ++
          "account."))
      else ⟨s.setConfig (runningConfig row isRunning now), .ok row.id⟩

/-- What `set_running_bulk` does about one of the configurations. -/
def setRunningOne (userId : ℕ) (isRunning : Bool) (now : ℕ) (s : ConfigStore Hash)
    (configId : ℕ) : ConfigStore Hash :=
  match s.config? configId with
  | none => s
  | some config =>
      if isRunning ∧ ¬config.enabled then s
      else if config.isRunning = isRunning then s
      else (s.setRunning userId isRunning (some config.accountId) now).store

/-- `set_running_bulk`: a configuration that cannot be started does not keep the others back. -/
def setRunningBulk (s : ConfigStore Hash) (userId : ℕ) (isRunning : Bool) (now : ℕ) :
    ConfigStore Hash :=
  ((s.configs.filter (·.userId = userId)).map AutoTradeConfig.id).foldl
    (setRunningOne userId isRunning now) s

/-- The row as a pause leaves it: one that does not run is left as it is. -/
def pausedConfig (row : AutoTradeConfig) (now : ℕ) : AutoTradeConfig :=
  if row.isRunning then { row with isRunning := false, lastStoppedAt := some now } else row

/-- `_auto_pause_strategy`. -/
def autoPauseStrategy (s : ConfigStore Hash) (configId now : ℕ) : ConfigStore Hash :=
  match s.config? configId with
  | none => s
  | some row => s.setConfig (pausedConfig row now)

/-- The row with the latch of the kill-switch. -/
def latchedConfig (row : AutoTradeConfig) (reason : String) (now : ℕ) : AutoTradeConfig :=
  { row with riskOffLatched := true, riskOffReason := some reason, riskOffAt := some now }

/-- What `kill_switch_close_position` writes to the configuration: the pause, and the latch whether
or not the strategy was running. -/
def latchRiskOff (s : ConfigStore Hash) (configId : ℕ) (reason : String) (now : ℕ) :
    ConfigStore Hash :=
  match (s.autoPauseStrategy configId now).config? configId with
  | none => s
  | some row =>
      (s.autoPauseStrategy configId now).setConfig (latchedConfig row reason now)

/-! ## Exchange accounts -/

/-- `validate_mode`. -/
def validateMode (mode : String) : Except ServiceFailure ExchangeMode :=
  if lowered (stripped mode) = "demo" then .ok .demo
  else if lowered (stripped mode) = "real" then .ok .real
  else .error (.value "Unsupported trading mode.")

/-- `ExchangeAccountUpdate`: the fields that are set, and for a request that touches the keys the
hash of the key that the account is left with. -/
structure AccountUpdate where
  accountLabel : Option String := none
  mode : Option String := none
  apiKeyHash : Option String := none

/-- The row that `update_account` commits, if nothing speaks against it. -/
def accountUpdate (s : ConfigStore Hash) (accountId userId : ℕ) (payload : AccountUpdate) :
    Except ServiceFailure ExchangeCredential :=
  match s.getAccount accountId userId with
  | none => .error (.lookup "Exchange account not found.")
  | some row =>
      match payload.mode.elim (.ok row.mode) validateMode with
      | .error failure => .error failure
      | .ok mode =>
          let row' : ExchangeCredential :=
            { row with
              accountLabel := payload.accountLabel.getD row.accountLabel
              mode := mode
              apiKeyHash := payload.apiKeyHash.or row.apiKeyHash }
          let others := s.accounts.filter fun a => a.userId = userId ∧ a.id ≠ row.id
          match others.find? fun a =>
              row'.apiKeyHash ≠ row.apiKeyHash ∧ a.apiKeyHash = row'.apiKeyHash with
          | some existing =>
              .error (.value ("This API key is already registered under another account label ('" ++
                existing.accountLabel ++ "')."))
          | none =>
              if others.any fun a => a.exchangeName = row'.exchangeName ∧
                  a.accountLabel = row'.accountLabel then
                .error (.value "Account with the same exchange and label already exists.")
              else .ok row'

def setAccount (s : ConfigStore Hash) (row : ExchangeCredential) : ConfigStore Hash :=
  { s with accounts := s.accounts.map fun a => if a.id = row.id then row else a }

/-- `ExchangeCredentialsService.update_account`. -/
def updateAccount (s : ConfigStore Hash) (accountId userId : ℕ) (payload : AccountUpdate) :
    Outcome Hash :=
  match s.accountUpdate accountId userId payload with
  | .error failure => s.fail failure
  | .ok row => ⟨s.setAccount row, .ok row.id⟩

end ConfigStore

/-! ## The operations -/

/-- A request to the governance of configurations, or a step of its guards. -/
inductive GovernanceOp where
  /-- `upsert_config`, with the request before its validation. -/
  | upsert (userId : ℕ) (payload : UpsertRequest) (openPosition : Bool) (now : ℕ)
  | rollback (userId configId revisionId : ℕ) (openPosition : Bool) (now : ℕ)
  | applyRiskToAll (userId : ℕ) (risk : RiskConfig)
  | promote (userId configId : ℕ) (canPromote : Bool)
  | demote (userId configId now : ℕ)
  | setRunning (userId : ℕ) (isRunning : Bool) (accountId : Option ℕ) (now : ℕ)
  | setRunningBulk (userId : ℕ) (isRunning : Bool) (now : ℕ)
  | autoPause (configId now : ℕ)
  /-- The pause and the latch of the kill-switch. -/
  | latchRiskOff (configId : ℕ) (reason : String) (now : ℕ)
  | updateAccount (accountId userId : ℕ) (payload : ConfigStore.AccountUpdate)

namespace GovernanceOp

open ConfigStore

variable {Hash : Type} [DecidableEq Hash] (digest : ContentSnapshot → Hash)

/-- The tables as an operation leaves them, whether it returns or raises. -/
def apply (s : ConfigStore Hash) : GovernanceOp → ConfigStore Hash
  | .upsert userId payload openPosition now =>
      match payload.validate with
      | .error _ => s
      | .ok payload => (upsertConfig digest s userId payload openPosition now).store
  | .rollback userId configId revisionId openPosition now =>
      (rollbackConfig digest s userId configId revisionId openPosition now).store
  | .applyRiskToAll userId risk =>
      if risk.complaints = [] then (s.applyRiskConfigToAllStrategies userId risk).store else s
  | .promote userId configId canPromote => (s.promoteStrategy userId configId canPromote).store
  | .demote userId configId now => (s.demoteStrategy userId configId now).store
  | .setRunning userId isRunning accountId now =>
      (s.setRunning userId isRunning accountId now).store
  | .setRunningBulk userId isRunning now => s.setRunningBulk userId isRunning now
  | .autoPause configId now => s.autoPauseStrategy configId now
  | .latchRiskOff configId reason now => s.latchRiskOff configId reason now
  | .updateAccount accountId userId payload => (s.updateAccount accountId userId payload).store

/-- An operation as a step: every one of them can be asked for at any time. -/
def step (s : ConfigStore Hash) (op : GovernanceOp) : Option (ConfigStore Hash) :=
  some (op.apply digest s)

end GovernanceOp

namespace GovernanceRun

/-- A user with a demo account and an analysis profile. -/
def freshUser : ConfigStore ContentSnapshot where
  accounts :=
    [{ id := 1, userId := 1, exchangeName := "binance", accountLabel := "testnet", mode := .demo }]
  profiles := [{ id := 1, userId := 1, symbol := "BTCUSDT" }]

/-- The strategy that the user sets up on the account. -/
def sandboxRequest : UpsertRequest where
  enabled := true
  profileId := 1
  accountId := 1
  positionSizeUsdt := 100
  slPct := 1
  tpPct := 2

end GovernanceRun

namespace ConfigStore

variable {Hash : Type}

/-! ## What the operations leave alone -/

theorem mem_setConfig {s : ConfigStore Hash} {row c : AutoTradeConfig}
    (hc : c ∈ (s.setConfig row).configs) : c = row ∨ c ∈ s.configs := by
  obtain ⟨d, hd, rfl⟩ := List.mem_map.mp hc
  by_cases h : d.id = row.id
  · exact Or.inl (if_pos h)
  · rw [if_neg h]
    exact Or.inr hd

theorem mem_of_getConfigForScope {s : ConfigStore Hash} {userId : ℕ} {accountId : Option ℕ}
    {row : AutoTradeConfig} (h : s.getConfigForScope userId accountId = .ok (some row)) :
    row ∈ s.configs := by
  cases accountId with
  | some accountId => exact List.mem_of_find?_eq_some (Except.ok.inj h)
  | none =>
    simp only [getConfigForScope] at h
    split at h
    · simp at h
    · rename_i only hfilter
      obtain rfl : only = row := by simpa using h
      exact List.mem_of_mem_filter (hfilter ▸ List.mem_singleton_self _)
    · simp at h

@[simp] theorem isRunning_pausedConfig (row : AutoTradeConfig) (now : ℕ) :
    (pausedConfig row now).isRunning = false := by
  rw [pausedConfig]
  split_ifs with h
  · rfl
  · exact Bool.eq_false_of_not_eq_true h

theorem applyRiskConfig_eq_ok {s s' : ConfigStore Hash} {configId : ℕ} {risk : Option RiskConfig}
    (h : s.applyRiskConfig configId risk = .ok s') :
    s' = { s with risks := Function.update s.risks configId (risk.or (s.risks configId)) } := by
  cases risk with
  | none =>
    rw [Option.none_or, Function.update_eq_self]
    exact (Except.ok.inj h).symm
  | some risk =>
    simp only [applyRiskConfig] at h
    cases hcheck : s.checkLeverageCeiling configId risk with
    | error failure => simp [hcheck] at h
    | ok =>
      simp only [hcheck] at h
      exact (Except.ok.inj h).symm

theorem applyRiskConfigToAllStrategies_cases (s : ConfigStore Hash) (userId : ℕ)
    (risk : RiskConfig) :
    ∃ risks, (s.applyRiskConfigToAllStrategies userId risk).store = { s with risks := risks } := by
  have hfold : ∀ (configs : List AutoTradeConfig) (s s' : ConfigStore Hash),
      configs.foldlM (fun s' config => applyRiskConfig s' config.id (some risk)) s = .ok s' →
        ∃ risks, s' = { s with risks := risks } := by
    intro configs
    induction configs with
    | nil => exact fun s s' h => ⟨s.risks, (Except.ok.inj h).symm⟩
    | cons config configs ih =>
      intro s s' h
      rw [List.foldlM_cons] at h
      cases hfirst : applyRiskConfig s config.id (some risk) with
      | error failure => simp [hfirst, bind, Except.bind] at h
      | ok s₁ =>
        simp only [hfirst] at h
        obtain ⟨risks, hrest⟩ := ih s₁ s' h
        rw [hrest, applyRiskConfig_eq_ok hfirst]
        exact ⟨risks, rfl⟩
  rw [applyRiskConfigToAllStrategies]
  cases hall : (s.configs.filter (·.userId = userId)).foldlM
      (fun s' config => applyRiskConfig s' config.id (some risk)) s with
  | error failure => exact ⟨s.risks, rfl⟩
  | ok s' => exact hfold _ s s' hall

theorem recordConfigRevision_cases [DecidableEq Hash] (digest : ContentSnapshot → Hash)
    (s : ConfigStore Hash) (config : AutoTradeConfig) (actor : String) :
    recordConfigRevision digest s config actor = s ∨
      ∃ number, recordConfigRevision digest s config actor =
        { s with
          revisions := s.revisions ++
            [{ id := s.nextRevisionId
               configId := config.id
               revisionNumber := number
               contentHash := digest (config.contentSnapshot (s.risks config.id))
               snapshot := config.contentSnapshot (s.risks config.id)
               actor := some actor }]
          nextRevisionId := s.nextRevisionId + 1 } := by
  by_cases h : (s.latestRevision config.id).map ConfigRevision.contentHash =
      some (digest (config.contentSnapshot (s.risks config.id)))
  · exact Or.inl (if_pos h)
  · exact Or.inr ⟨_, if_neg h⟩

@[simp] theorem configs_recordConfigRevision [DecidableEq Hash] (digest : ContentSnapshot → Hash)
    (s : ConfigStore Hash) (config : AutoTradeConfig) (actor : String) :
    (recordConfigRevision digest s config actor).configs = s.configs := by
  rcases recordConfigRevision_cases digest s config actor with h | ⟨number, h⟩ <;> rw [h]

@[simp] theorem accounts_recordConfigRevision [DecidableEq Hash] (digest : ContentSnapshot → Hash)
    (s : ConfigStore Hash) (config : AutoTradeConfig) (actor : String) :
    (recordConfigRevision digest s config actor).accounts = s.accounts := by
  rcases recordConfigRevision_cases digest s config actor with h | ⟨number, h⟩ <;> rw [h]

@[simp] theorem risks_recordConfigRevision [DecidableEq Hash] (digest : ContentSnapshot → Hash)
    (s : ConfigStore Hash) (config : AutoTradeConfig) (actor : String) :
    (recordConfigRevision digest s config actor).risks = s.risks := by
  rcases recordConfigRevision_cases digest s config actor with h | ⟨number, h⟩ <;> rw [h]

theorem finishUpsert_cases [DecidableEq Hash] (digest : ContentSnapshot → Hash)
    (s : ConfigStore Hash) (row : AutoTradeConfig) (risk : Option RiskConfig) :
    (∃ failure, finishUpsert digest s row risk = s.fail failure) ∨
      finishUpsert digest s row risk =
        ⟨recordConfigRevision digest
          { s with risks := Function.update s.risks row.id (risk.or (s.risks row.id)) } row "user",
          .ok row.id⟩ := by
  rw [finishUpsert]
  cases hrisk : s.applyRiskConfig row.id risk with
  | error failure => exact Or.inl ⟨failure, rfl⟩
  | ok s' =>
    rw [applyRiskConfig_eq_ok hrisk]
    exact Or.inr rfl

@[simp] theorem configs_finishUpsert [DecidableEq Hash] (digest : ContentSnapshot → Hash)
    (s : ConfigStore Hash) (row : AutoTradeConfig) (risk : Option RiskConfig) :
    (finishUpsert digest s row risk).store.configs = s.configs := by
  rcases finishUpsert_cases digest s row risk with ⟨failure, h⟩ | h <;> rw [h]
  · rfl
  · exact configs_recordConfigRevision ..

@[simp] theorem accounts_finishUpsert [DecidableEq Hash] (digest : ContentSnapshot → Hash)
    (s : ConfigStore Hash) (row : AutoTradeConfig) (risk : Option RiskConfig) :
    (finishUpsert digest s row risk).store.accounts = s.accounts := by
  rcases finishUpsert_cases digest s row risk with ⟨failure, h⟩ | h <;> rw [h]
  · rfl
  · exact accounts_recordConfigRevision ..

/-- **What an upsert does.**  It fails before it writes anything, it creates a row, or it overwrites
the row of the user's account, whose profile only changes while it is stopped. -/
theorem upsertConfig_cases [DecidableEq Hash] (digest : ContentSnapshot → Hash)
    (s : ConfigStore Hash) (userId : ℕ) (payload : UpsertRequest) (openPosition : Bool) (now : ℕ) :
    (∃ failure, upsertConfig digest s userId payload openPosition now = s.fail failure) ∨
      ((∀ c ∈ s.configs, ¬(c.userId = userId ∧ c.accountId = payload.accountId)) ∧
        upsertConfig digest s userId payload openPosition now =
          finishUpsert digest
            { s with
              configs := s.configs ++ [s.newConfig userId payload now]
              nextConfigId := s.nextConfigId + 1 }
            (s.newConfig userId payload now) payload.risk) ∨
      ∃ row ∈ s.configs, row.userId = userId ∧ row.accountId = payload.accountId ∧
        upsertConfig digest s userId payload openPosition now =
          finishUpsert digest (s.setConfig (updatedConfig row payload now))
            (updatedConfig row payload now) payload.risk := by
  rw [upsertConfig]
  cases hcheck : s.checkUpsert userId payload with
  | error failure => exact Or.inl ⟨failure, rfl⟩
  | ok =>
    cases hfind : s.configs.find? fun c => c.userId = userId ∧ c.accountId = payload.accountId with
    | none =>
      refine Or.inr (Or.inl ⟨fun c hc => ?_, rfl⟩)
      simpa using List.find?_eq_none.mp hfind c hc
    | some row =>
      have hrow : row.userId = userId ∧ row.accountId = payload.accountId := by
        simpa using List.find?_some hfind
      by_cases hchange : row.profileId ≠ payload.profileId ∨ row.accountId ≠ payload.accountId
      · simp only [if_pos hchange]
        cases row.isRunning with
        | true => exact Or.inl ⟨_, rfl⟩
        | false =>
          cases openPosition with
          | true => exact Or.inl ⟨_, rfl⟩
          | false =>
            exact Or.inr (Or.inr ⟨row, List.mem_of_find?_eq_some hfind, hrow.1, hrow.2, rfl⟩)
      · simp only [if_neg hchange]
        exact Or.inr (Or.inr ⟨row, List.mem_of_find?_eq_some hfind, hrow.1, hrow.2, rfl⟩)

theorem rollbackConfig_cases [DecidableEq Hash] (digest : ContentSnapshot → Hash)
    (s : ConfigStore Hash) (userId configId revisionId : ℕ) (openPosition : Bool) (now : ℕ) :
    (∃ failure, rollbackConfig digest s userId configId revisionId openPosition now =
        s.fail failure) ∨
      ∃ config revision request, s.config? configId = some config ∧ config.userId = userId ∧
        s.revisions.find? (·.id = revisionId) = some revision ∧ revision.configId = configId ∧
        (rollbackRequest revision.snapshot).validate = .ok request ∧
        rollbackConfig digest s userId configId revisionId openPosition now =
          upsertConfig digest s userId request openPosition now := by
  rw [rollbackConfig]
  cases hconfig : s.config? configId with
  | none => exact Or.inl ⟨_, rfl⟩
  | some config =>
    by_cases huser : config.userId ≠ userId
    · exact Or.inl ⟨_, if_pos huser⟩
    · simp only [if_neg huser]
      cases hrevision : s.revisions.find? (·.id = revisionId) with
      | none => exact Or.inl ⟨_, rfl⟩
      | some revision =>
        by_cases hof : revision.configId ≠ configId
        · exact Or.inl ⟨_, if_pos hof⟩
        · simp only [if_neg hof]
          cases hvalid : (rollbackRequest revision.snapshot).validate with
          | error error => exact Or.inl ⟨_, rfl⟩
          | ok request =>
            exact Or.inr ⟨config, revision, request, rfl, not_not.mp huser, rfl, not_not.mp hof,
              hvalid, rfl⟩

/-! ## Account modes -/

theorem accountUpdate_eq_ok {s : ConfigStore Hash} {accountId userId : ℕ} {payload : AccountUpdate}
    {row' : ExchangeCredential} (h : s.accountUpdate accountId userId payload = .ok row') :
    row'.id = accountId ∧ ∃ row ∈ s.accounts, row.id = accountId := by
  rw [accountUpdate] at h
  cases hrow : s.getAccount accountId userId with
  | none => simp [hrow] at h
  | some row =>
    have hid : row.id = accountId ∧ row.userId = userId := by simpa using List.find?_some hrow
    simp only [hrow] at h
    cases hmode : payload.mode.elim (.ok row.mode) validateMode with
    | error failure => simp [hmode] at h
    | ok mode =>
      simp only [hmode] at h
      split at h
      · simp at h
      · split_ifs at h
        rw [← Except.ok.inj h]
        exact ⟨hid.1, row, List.mem_of_find?_eq_some hrow, hid.1⟩

theorem accountMode_setAccount {s : ConfigStore Hash} {row' : ExchangeCredential}
    (hrow : ∃ row ∈ s.accounts, row.id = row'.id) (accountId : ℕ) :
    (s.setAccount row').accountMode accountId =
      if accountId = row'.id then some row'.mode else s.accountMode accountId := by
  have hid : ((fun a : ExchangeCredential => decide (a.id = accountId)) ∘
      fun a => if a.id = row'.id then row' else a) = fun a => decide (a.id = accountId) := by
    funext a
    by_cases ha : a.id = row'.id <;> simp [ha]
  rw [accountMode, accountMode, setAccount, List.find?_map, hid]
  by_cases haccount : accountId = row'.id
  · rw [if_pos haccount]
    cases hfind : s.accounts.find? fun a => a.id = accountId with
    | none =>
      obtain ⟨row, hmem, hrow⟩ := hrow
      have hnot := List.find?_eq_none.mp hfind row hmem
      exact absurd (decide_eq_true (hrow.trans haccount.symm)) hnot
    | some a =>
      have ha : a.id = row'.id := by
        rw [← haccount]
        simpa using List.find?_some hfind
      simp [ha]
  · rw [if_neg haccount]
    cases hfind : s.accounts.find? fun a => a.id = accountId with
    | none => rfl
    | some a =>
      have ha : a.id ≠ row'.id := by
        rw [show a.id = accountId by simpa using List.find?_some hfind]
        exact haccount
      simp [ha]

end ConfigStore

end AdviserConstructor
