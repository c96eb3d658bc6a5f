import AdviserConstructor.AutoTrade.Config
import AdviserConstructor.Library.GeneralFormat
import Mathlib.Algebra.BigOperators.Group.List.Basic
import Mathlib.Data.List.Dedup

/-!
# The request that edits a configuration

`AutoTradeConfigUpsertRequest` with its validators.  Validation refuses a request or brings it into
its normal form: texts are stripped and changed to one case, the risk mode is written out again
from its ratio.  Each schema has the complaints about its fields, a complaint being the path of the
field and the text of the validator (none where the bound of the field itself is violated), and its
normal form.

A strategy profile, a name or a forecast that the request does not set is told apart from one that
it sets to nothing, by an outer option.

* `StrategyProfile.normalized_normalized`, `parseRiskMode_of_parseRiskMode`: the normal forms are
  normal.
* `UpsertRequest.validate_of_normal`: a validated request that is validated again is unchanged, if
  it is accepted at all.
-/

namespace AdviserConstructor

open DecimalText

/-! ## Complaints -/

/-- What a validator says about one field. -/
structure Complaint where
  path : String
  message : Option String := none
  deriving DecidableEq, Repr

/-- The complaint about a field out of its bounds. -/
def bounds (path : String) (within : Bool) : List Complaint :=
  if within then [] else [{ path }]

/-- The complaint about a limit that is set, and out of its bounds. -/
def optionalBounds {α : Type} (path : String) (value : Option α) (within : α → Bool) :
    List Complaint :=
  bounds path (value.all within)

/-- `_validate_inclusive_range`, the bounds with their texts. -/
def validateInclusiveRange (value : ℚ) (fieldName : String) (lower upper : ℚ × String) :
    List Complaint :=
  if lower.1 ≤ value ∧ value ≤ upper.1 then []
  else
    [{ path := fieldName
       message := some (fieldName ++ " must be between " ++ lower.2 ++ " and " ++ upper.2 ++ ".") }]

/-! ## Strategy profiles -/

/-- `_MOVE_SL_TO_TP_RE`: a level's name and its number, without zeros in front. -/
def isTpReference (text : List Char) : Bool :=
  match text with
  | 't' :: 'p' :: first :: rest => first.isDigit && first ≠ '0' && rest.all Char.isDigit
  | _ => false

/-- The normal form of `move_sl_to`. -/
def normalizeMoveSlTo (value : String) : String := lowered (stripped value)

/-- `validate_move_sl_to`. -/
def validateMoveSlTo (value : String) : List Complaint :=
  if normalizeMoveSlTo value = "breakeven" ∨ normalizeMoveSlTo value = "none" ∨
      isTpReference (normalizeMoveSlTo value).toList then []
  else
    [{ path := "move_sl_to"
       message := some ("move_sl_to must be null, 'breakeven', 'none' (explicit no-op), " ++
         "or a tp reference like 'tp1'.") }]

namespace ProfileTpLevel

def complaints (l : ProfileTpLevel) : List Complaint :=
  bounds "price_offset_pct" (0 < l.priceOffsetPct) ++
    bounds "close_pct" (0 < l.closePct ∧ l.closePct ≤ 100) ++
    (l.moveSlTo.elim [] validateMoveSlTo) ++
    optionalBounds "sl_lock_pct" l.slLockPct (fun pct => -100 ≤ pct ∧ pct ≤ 200)

def normalized (l : ProfileTpLevel) : ProfileTpLevel :=
  { l with moveSlTo := l.moveSlTo.map normalizeMoveSlTo }

end ProfileTpLevel

/-- A text field that may not be empty once it is stripped. -/
def nonEmptyText (path message value : String) (maxLength : ℕ) : List Complaint :=
  if ¬(1 ≤ value.length ∧ value.length ≤ maxLength) then [{ path }]
  else if stripped value = "" then [{ path, message := some message }]
  else []

namespace ProfileWatcher

def complaints (w : ProfileWatcher) : List Complaint :=
  nonEmptyText "indicator" "indicator cannot be empty." w.indicator 64 ++
    nonEmptyText "condition" "Value cannot be empty." w.condition 128 ++
    nonEmptyText "action" "Value cannot be empty." w.action 64

def normalized (w : ProfileWatcher) : ProfileWatcher :=
  { w with
    indicator := uppered (stripped w.indicator)
    condition := stripped w.condition
    action := stripped w.action }

end ProfileWatcher

/-- `STRATEGY_PROFILE_ADJUSTMENT_KEYS`. -/
def strategyProfileAdjustmentKeys : List String :=
  ["watcher", "trailing", "breakeven", "volatility"]

/-- The normal form of `adjustment_priority`. -/
def normalizePriority (value : List String) : List String := value.map fun s => lowered (stripped s)

/-- The entries of a list that stand in it before, too. -/
def repeated : List String → List String → List String
  | _, [] => []
  | before, s :: rest => (if s ∈ before then [s] else []) ++ repeated (before ++ [s]) rest

/-- `validate_adjustment_priority`. -/
def validateAdjustmentPriority (value : List String) : List Complaint :=
  let normalized := normalizePriority value
  let invalid := (normalized.filter (· ∉ strategyProfileAdjustmentKeys)).dedup.mergeSort
    fun a b => !textBefore b a
  let duplicates := repeated [] normalized
  if invalid ≠ [] then
    [{ path := "adjustment_priority"
       message := some ("adjustment_priority contains invalid keys: " ++ ", ".intercalate invalid ++
         ". Allowed: " ++ ", ".intercalate strategyProfileAdjustmentKeys ++ ".") }]
  else if duplicates ≠ [] then
    [{ path := "adjustment_priority"
       message := some ("adjustment_priority must not contain duplicates: " ++
         ", ".intercalate duplicates.reverse.dedup.reverse ++ ".") }]
  else []

/-- The complaints of one item of a list, under the path of the list. -/
def itemComplaints (path : String) (i : ℕ) (complaints : List Complaint) : List Complaint :=
  complaints.map fun c => { c with path := path ++ "." ++ toString i ++ "." ++ c.path }

namespace StrategyProfile

/-- The complaints about single fields. -/
def fieldComplaints (p : StrategyProfile) : List Complaint :=
  bounds "sl_value" (0 < p.slValue) ++
    optionalBounds "tp_value" p.tpValue (fun x => 0 < x) ++
    ((p.tpLevels.getD []).zipIdx.flatMap fun (l, i) => itemComplaints "tp_levels" i l.complaints) ++
    validateInclusiveRange p.trailingCallbackRate "trailing_callback_rate"
      (1 / 10, "0.1") (10, "10.0") ++
    validateInclusiveRange p.breakevenTriggerRr "breakeven_trigger_rr" (1 / 2, "0.5") (5, "5.0") ++
    bounds "volatility_atr_period" (1 ≤ p.volatilityAtrPeriod) ++
    validateInclusiveRange p.volatilityAtrMultiplier "volatility_atr_multiplier"
      (1 / 2, "0.5") (5, "5.0") ++
    (p.watchers.zipIdx.flatMap fun (w, i) => itemComplaints "watchers" i w.complaints) ++
    validateAdjustmentPriority p.adjustmentPriority ++
    bounds "max_position_pct" (0 < p.maxPositionPct ∧ p.maxPositionPct ≤ 100)

/-- The first level but the last that says nothing about the stop. -/
def undeclaredLevel (levels : List ProfileTpLevel) : Option ℕ :=
  (levels.dropLast.findIdx? fun l => l.slLockPct = none && l.moveSlTo = none).map (· + 1)

/-- `validate_tp_configuration`. -/
def validateTpConfiguration (p : StrategyProfile) : Option String :=
  match p.tpMode with
  | .single => if p.tpValue = none then some "tp_value is required when tp_mode='single'." else none
  | .multi =>
      let levels := p.tpLevels.getD []
      let totalClosePct := (levels.map ProfileTpLevel.closePct).sum
      if levels = [] then some "tp_levels is required when tp_mode='multi'."
      -- `math.isclose`, whose relative tolerance is `1e-9`.
      else if max (max |totalClosePct| 100 / 1000000000) (1 / 10) < |totalClosePct - 100| then
        some "tp_levels close_pct must sum to 100% (+/- 0.1) when tp_mode='multi'."
      else
        (undeclaredLevel levels).map fun index =>
          "Multi-TP level " ++ toString index ++ " must declare sl_lock_pct or " ++
            "move_sl_to (use 'none' to keep SL fixed)."

/-- The complaints about a profile: those about its fields, or the one about the whole. -/
def complaints (p : StrategyProfile) : List Complaint :=
  if p.fieldComplaints ≠ [] then p.fieldComplaints
  else (p.validateTpConfiguration).elim [] fun message => [{ path := "", message := some message }]

def normalized (p : StrategyProfile) : StrategyProfile :=
  { p with
    tpLevels := p.tpLevels.map fun levels => levels.map ProfileTpLevel.normalized
    watchers := p.watchers.map ProfileWatcher.normalized
    adjustmentPriority := normalizePriority p.adjustmentPriority }

/-- **The normal form of a profile is normal.** -/
theorem normalized_normalized (p : StrategyProfile) : p.normalized.normalized = p.normalized := by
  have htext : ∀ s, normalizeMoveSlTo (normalizeMoveSlTo s) = normalizeMoveSlTo s := fun s => by
    rw [normalizeMoveSlTo, normalizeMoveSlTo, stripped_lowered, stripped_stripped, lowered_lowered]
  have hlevel : ∀ l : ProfileTpLevel, l.normalized.normalized = l.normalized := fun l => by
    simp [ProfileTpLevel.normalized, Function.comp_def, htext]
  have hwatcher : ∀ w : ProfileWatcher, w.normalized.normalized = w.normalized := fun w => by
    simp [ProfileWatcher.normalized, stripped_uppered, stripped_stripped, uppered_uppered]
  have hpriority : ∀ value, normalizePriority (normalizePriority value) = normalizePriority value :=
    fun value => by
      simp [normalizePriority, stripped_lowered, stripped_stripped, lowered_lowered]
  simp [normalized, Function.comp_def, hlevel, hwatcher, hpriority]

end StrategyProfile

/-! ## Risk limits -/

/-- The complaints about the limits of a risk block. -/
def RiskConfig.complaints (r : RiskConfig) : List Complaint :=
  optionalBounds "daily_loss_limit_usdt" r.dailyLossLimitUsdt (fun x => 0 ≤ x) ++
    optionalBounds "daily_loss_limit_pct" r.dailyLossLimitPct (fun x => 0 < x ∧ x ≤ 100) ++
    optionalBounds "max_open_positions" r.maxOpenPositions (fun n => 1 ≤ n) ++
    optionalBounds "max_open_positions_per_symbol" r.maxOpenPositionsPerSymbol (fun n => 1 ≤ n) ++
    optionalBounds "exposure_cap_usdt" r.exposureCapUsdt (fun x => 0 < x) ++
    optionalBounds "leverage_ceiling" r.leverageCeiling (fun n => 1 ≤ n ∧ n ≤ 125) ++
    optionalBounds "kpi_guard_max_dd_pct" r.kpiGuardMaxDdPct (fun x => 0 < x ∧ x ≤ 100) ++
    optionalBounds "kpi_guard_max_daily_loss_usdt" r.kpiGuardMaxDailyLossUsdt (fun x => 0 ≤ x) ++
    optionalBounds "kpi_guard_max_daily_loss_pct" r.kpiGuardMaxDailyLossPct
      (fun x => 0 < x ∧ x ≤ 100) ++
    optionalBounds "kpi_guard_min_win_rate_pct" r.kpiGuardMinWinRatePct
      (fun x => 0 ≤ x ∧ x ≤ 100) ++
    optionalBounds "kpi_guard_min_trades" r.kpiGuardMinTrades (fun n => 1 ≤ n) ++
    optionalBounds "kill_switch_atr_spike_mult" r.killSwitchAtrSpikeMult (fun x => 1 < x) ++
    optionalBounds "kill_switch_atr_period" r.killSwitchAtrPeriod (fun n => 2 ≤ n) ++
    optionalBounds "kill_switch_price_move_pct" r.killSwitchPriceMovePct (fun x => 0 < x) ++
    optionalBounds "kill_switch_cooldown_seconds" r.killSwitchCooldownSeconds (fun n => 0 ≤ n) ++
    optionalBounds "anomaly_z_threshold" r.anomalyZThreshold (fun x => 0 < x ∧ x ≤ 20) ++
    optionalBounds "anomaly_window" r.anomalyWindow (fun n => 2 ≤ n ∧ n ≤ 1000) ++
    optionalBounds "promote_min_win_rate_pct" r.promoteMinWinRatePct (fun x => 0 ≤ x ∧ x ≤ 100) ++
    optionalBounds "promote_max_dd_pct" r.promoteMaxDdPct (fun x => 0 < x ∧ x ≤ 100) ++
    optionalBounds "promote_min_trades" r.promoteMinTrades (fun n => 1 ≤ n) ++
    optionalBounds "promote_min_sandbox_days" r.promoteMinSandboxDays (fun x => 0 ≤ x)

/-! ## The risk mode -/

/-- `_parse_risk_mode`: the risk mode written out again, and its ratio. -/
def parseRiskMode (riskMode : String) : Except String (String × ℚ) :=
  match strip riskMode.toList with
  | '1' :: ':' :: ratioRaw =>
      match plainValue ratioRaw with
      | none => .error "risk_mode must look like 1:2 or 1:2.5."
      | some ratio =>
          if ratio ≤ 0 then .error "risk_mode ratio must be a positive finite number."
          else .ok (String.ofList ('1' :: ':' :: formatGeneral 6 ratio), ratio)
  | _ => .error "risk_mode must look like 1:2 or 1:2.5."

example : (parseRiskMode " 1:2,50").toOption = some ("1:2.5", 5 / 2) := by decide +kernel

theorem parseRiskMode_eq_ok {riskMode text : String} {ratio : ℚ}
    (h : parseRiskMode riskMode = .ok (text, ratio)) :
    ∃ ratioRaw, strip riskMode.toList = '1' :: ':' :: ratioRaw ∧ plainValue ratioRaw = some ratio ∧
      0 < ratio ∧ text = String.ofList ('1' :: ':' :: formatGeneral 6 ratio) := by
  rw [parseRiskMode] at h
  split at h
  · rename_i ratioRaw hraw
    cases hvalue : plainValue ratioRaw with
    | none => simp [hvalue] at h
    | some value =>
      simp only [hvalue] at h
      by_cases hpos : value ≤ 0
      · simp [hpos] at h
      · rw [if_neg hpos, Except.ok.injEq] at h
        obtain ⟨rfl, rfl⟩ := h
        exact ⟨ratioRaw, hraw, hvalue, not_le.mp hpos, rfl⟩
  · simp at h

/-- **The normal form of a risk mode is normal.** -/
theorem parseRiskMode_of_parseRiskMode {riskMode text text' : String} {ratio ratio' : ℚ}
    (h : parseRiskMode riskMode = .ok (text, ratio))
    (h' : parseRiskMode text = .ok (text', ratio')) : text' = text := by
  obtain ⟨-, -, -, hpos, rfl⟩ := parseRiskMode_eq_ok h
  obtain ⟨ratioRaw, hraw, hvalue, -, rfl⟩ := parseRiskMode_eq_ok h'
  have hstrip : strip ('1' :: ':' :: formatGeneral 6 ratio) =
      '1' :: ':' :: formatGeneral 6 ratio := by
    refine strip_eq_self (by rintro c ⟨⟩; rfl) fun c hc => ?_
    rcases List.mem_of_mem_getLast? hc with _ | ⟨_, _ | ⟨_, hc⟩⟩
    · rfl
    · rfl
    · exact isWhitespace_of_mem_formatGeneral hc
  rw [String.toList_ofList, hstrip] at hraw
  obtain rfl : formatGeneral 6 ratio = ratioRaw := by simpa using hraw
  rw [formatGeneral_of_plainValue (by decide) hpos hvalue]

/-! ## The request -/

/-- `AutoTradeConfigUpsertRequest`. -/
structure UpsertRequest where
  enabled : Bool := false
  profileId : ℕ
  accountId : ℕ
  positionSizeUsdt : ℚ
  leverage : ℤ := 1
  minConfidencePct : ℚ := 62
  fastCloseConfidencePct : ℚ := 80
  confirmReportsRequired : ℤ := 2
  riskMode : String := "1:2"
  slPct : ℚ
  tpPct : ℚ
  strategyProfile : Option (Option StrategyProfile) := none
  strategyName : Option (Option String) := none
  attachedForecastId : Option (Option String) := none
  risk : Option RiskConfig := none
  deriving DecidableEq

/-- Why a request is refused: complaints about its fields, or about how they fit together. -/
inductive RequestError where
  | fields (complaints : List Complaint)
  | request (message : String)
  deriving DecidableEq

/-- The complaints of a nested block, under its name. -/
def nestedComplaints (path : String) (complaints : List Complaint) : List Complaint :=
  complaints.map fun c => { c with path := path ++ "." ++ c.path }

/-- A number with two digits behind the point. -/
def twoDecimals (x : ℚ) : String :=
  let cents := (roundHalfEven (x * 100)).toNat
  toString (cents / 100) ++ "." ++ String.ofList (digitsOf 2 cents)

namespace UpsertRequest

/-- The complaints about the fields of the request. -/
def fieldComplaints (r : UpsertRequest) : List Complaint :=
  bounds "profile_id" (0 < r.profileId) ++
    bounds "account_id" (0 < r.accountId) ++
    bounds "position_size_usdt" (0 < r.positionSizeUsdt) ++
    bounds "leverage" (1 ≤ r.leverage ∧ r.leverage ≤ 125) ++
    bounds "min_confidence_pct" (1 ≤ r.minConfidencePct ∧ r.minConfidencePct ≤ 100) ++
    bounds "fast_close_confidence_pct"
      (1 ≤ r.fastCloseConfidencePct ∧ r.fastCloseConfidencePct ≤ 100) ++
    bounds "confirm_reports_required"
      (1 ≤ r.confirmReportsRequired ∧ r.confirmReportsRequired ≤ 5) ++
    bounds "sl_pct" (0 < r.slPct) ++
    bounds "tp_pct" (0 < r.tpPct) ++
    nestedComplaints "strategy_profile"
      (r.strategyProfile.join.elim [] StrategyProfile.complaints) ++
    optionalBounds "strategy_name" r.strategyName.join (fun s => s.length ≤ 64) ++
    optionalBounds "attached_forecast_id" r.attachedForecastId.join (fun s => s.length ≤ 64) ++
    nestedComplaints "risk" (r.risk.elim [] RiskConfig.complaints)

/-- `validate_risk_mode_ratio`, over fields within their bounds: a confidence below one, which it
would refuse first, is out of them. -/
def validateRiskModeRatio (r : UpsertRequest) : Except RequestError UpsertRequest :=
  if r.fastCloseConfidencePct < r.minConfidencePct then
    .error (.request
      "fast_close_confidence_pct must be greater than or equal to min_confidence_pct.")
  else
    match parseRiskMode r.riskMode with
    | .error message => .error (.request message)
    | .ok (normalized, expected) =>
        if 1 / 100 < |r.tpPct / r.slPct - expected| then
          .error (.request ("tp_pct/sl_pct must match risk_mode " ++ normalized ++
            " (expected " ++ twoDecimals expected ++ ")."))
        else .ok { r with riskMode := normalized }

def validate (r : UpsertRequest) : Except RequestError UpsertRequest :=
  if r.fieldComplaints ≠ [] then .error (.fields r.fieldComplaints)
  else
    validateRiskModeRatio
      { r with
        strategyProfile := r.strategyProfile.map fun p => p.map StrategyProfile.normalized }

theorem validate_eq_ok {r r' : UpsertRequest} (h : r.validate = .ok r') :
    ∃ normalized ratio, parseRiskMode r.riskMode = .ok (normalized, ratio) ∧
      r' = { r with
        riskMode := normalized
        strategyProfile := r.strategyProfile.map fun p => p.map StrategyProfile.normalized } := by
  rw [validate] at h
  split_ifs at h
  rw [validateRiskModeRatio] at h
  split_ifs at h
  cases hmode : parseRiskMode r.riskMode with
  | error message => simp [hmode] at h
  | ok parsed =>
    simp only [hmode] at h
    split_ifs at h
    exact ⟨parsed.1, parsed.2, rfl, (Except.ok.inj h).symm⟩

/-- A request in the form that validation gives it. -/
def Normal (r : UpsertRequest) : Prop :=
  (∃ raw ratio, parseRiskMode raw = .ok (r.riskMode, ratio)) ∧
    ∀ p ∈ r.strategyProfile.join, p.normalized = p

theorem normal_of_validate {r r' : UpsertRequest} (h : r.validate = .ok r') : r'.Normal := by
  obtain ⟨normalized, ratio, hmode, rfl⟩ := validate_eq_ok h
  refine ⟨⟨r.riskMode, ratio, hmode⟩, fun p hp => ?_⟩
  cases hset : r.strategyProfile with
  | none => simp [hset] at hp
  | some value =>
    cases value with
    | none => simp [hset] at hp
    | some q =>
      obtain rfl : q.normalized = p := by simpa [hset] using hp
      exact q.normalized_normalized

/-- **Validation is stable.**  A request in the form that validation gives it is not changed by
being validated again, if it is accepted. -/
theorem validate_of_normal {r r' : UpsertRequest} (hnormal : r.Normal) (h : r.validate = .ok r') :
    r' = r := by
  obtain ⟨⟨raw, ratio, hraw⟩, hprofile⟩ := hnormal
  obtain ⟨normalized, ratio', hmode, rfl⟩ := validate_eq_ok h
  have hsame : (r.strategyProfile.map fun p => p.map StrategyProfile.normalized) =
      r.strategyProfile := by
    cases hset : r.strategyProfile with
    | none => rfl
    | some value =>
      cases value with
      | none => rfl
      | some q =>
        have hq : q.normalized = q := hprofile q (by rw [hset]; rfl)
        simp [hq]
  rw [parseRiskMode_of_parseRiskMode hraw hmode, hsame]

end UpsertRequest

end AdviserConstructor
