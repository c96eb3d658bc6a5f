import Mathlib.Algebra.Order.BigOperators.Group.List
import AdviserConstructor.AutoTrade.ConfigRequest
import AdviserConstructor.AutoTrade.SignalTrading

/-!
# The pre-trade risk engine

`check_pre_trade` of `app/services/auto_trade/risk/engine.py`, which stands before every entry.  A
configuration without a risk row, or with one that is off, is let through.  Otherwise seven rules
are asked in turn, each of which is skipped while its limit is unset, and the first one that is
violated blocks the entry.  Counts, exposure and opposite positions are taken over the open
positions of the user, of whichever configuration.

* `checkPreTrade_allowed_iff`: an entry is let through by a row that is on exactly if no rule is
  violated.
* `allowed_eq_false_of_more`: an entry that is blocked stays blocked when more positions are open
  and when limits are lowered or set.

The session is the list of the rows of the position table.  A row has a positive size, as the
table checks.
-/

namespace AdviserConstructor

/-! ## Decisions -/

/-- A violated rule, with the values of its payload. -/
inductive RiskViolation where
  | leverage (leverage leverageCeiling : ℤ)
  | maxOpen (openPositions : ℕ) (maxOpenPositions : ℤ)
  | maxOpenPerSymbol (symbol : String) (openPositionsSymbol : ℕ)
      (maxOpenPositionsPerSymbol : ℤ)
  | conflictingSignal (symbol : String) (intendedSide openOppositeSide : PositionSide)
  | exposure (currentExposureUsdt newPositionSizeUsdt projectedExposureUsdt exposureCapUsdt : ℚ)
  | dailyLoss (todayLossUsdt dailyLossLimitUsdt : ℚ)
  | dailyLossPct (todayLossUsdt todayLossPct accountBalanceUsdt dailyLossLimitPct : ℚ)
  deriving DecidableEq

def RiskViolation.rule : RiskViolation → String
  | .leverage .. => "leverage"
  | .maxOpen .. => "max_open"
  | .maxOpenPerSymbol .. => "max_open_per_symbol"
  | .conflictingSignal .. => "conflicting_signal"
  | .exposure .. => "exposure"
  | .dailyLoss .. => "daily_loss"
  | .dailyLossPct .. => "daily_loss_pct"

def sideLiteral : PositionSide → String
  | .long => "LONG"
  | .short => "SHORT"
  | .both => "BOTH"

/-- The reason that the decision gives. -/
def RiskViolation.reason : RiskViolation → String
  | .leverage configured ceiling =>
      "Configured leverage " ++ toString configured ++ "x exceeds ceiling " ++
        toString ceiling ++ "x."
  | .maxOpen openCount limit =>
      "Open positions (" ++ toString openCount ++ ") reached the limit of " ++
        toString limit ++ "."
  | .maxOpenPerSymbol symbol symCount limit =>
      "Open positions for " ++ symbol ++ " (" ++ toString symCount ++
        ") reached the per-symbol limit of " ++ toString limit ++ "."
  | .conflictingSignal symbol intended opposite =>
      "An open " ++ sideLiteral opposite ++ " position on " ++ symbol ++ " conflicts with this " ++
        sideLiteral intended ++ " entry."
  | .exposure current newSize projected cap =>
      "Projected exposure " ++ twoDecimals projected ++ " USDT (current " ++
        twoDecimals current ++ " + new " ++ twoDecimals newSize ++ ") exceeds the cap of " ++
        twoDecimals cap ++ " USDT."
  | .dailyLoss todayLoss limit =>
      "Today's realized loss " ++ twoDecimals todayLoss ++ " USDT reached the limit " ++
        twoDecimals limit ++ "."
  | .dailyLossPct _ todayLossPct _ limit =>
      "Today's realized loss " ++ twoDecimals todayLossPct ++ "% of balance reached the limit " ++
        twoDecimals limit ++ "%."

/-- `RiskDecision`. -/
inductive RiskDecision where
  | allow (warning : Option String := none)
  | block (violation : RiskViolation)
  deriving DecidableEq

/-- `allowed`. -/
def RiskDecision.allowed : RiskDecision → Bool
  | .allow _ => true
  | .block _ => false

/-! ## The positions of a user -/

def openRows (rows : List PositionRow) (userId : ℕ) : List PositionRow :=
  rows.filter fun p => p.userId = userId ∧ p.status = .open

def openRowsOn (rows : List PositionRow) (userId : ℕ) (symbol : String) : List PositionRow :=
  (openRows rows userId).filter fun p => p.symbol = symbol

/-- The margin that the open positions of a user have posted. -/
def currentExposure (rows : List PositionRow) (userId : ℕ) : ℚ :=
  ((openRows rows userId).map PositionRow.positionSizeUsdt).sum

/-! ## The rules -/

/-- What an entry is judged by, beside the positions. -/
structure PreTrade where
  config : AutoTradeConfig
  riskCfg : Option RiskConfig
  signal : TradeSignal
  executionSymbol : String
  todayRealizedPnlUsdt : ℚ := 0
  accountBalanceUsdt : Option ℚ := none

/-- A rule with a limit, which is skipped while the limit is unset. -/
def limitRule {α : Type} (limit : Option α) (violated : α → Prop) [DecidablePred violated]
    (violation : α → RiskViolation) : Option RiskViolation :=
  limit.bind fun x => if violated x then some (violation x) else none

/-- The side of an entry on a signal. -/
def Trend.entrySide : Trend → Option PositionSide
  | .long => some .long
  | .short => some .short
  | .neutral => none

/-- The side that an entry contradicts. -/
def oppositeSide (side : PositionSide) : PositionSide := if side = .long then .short else .long

section Rules

variable (rows : List PositionRow) (t : PreTrade) (risk : RiskConfig)

def leverageRule : Option RiskViolation :=
  limitRule risk.leverageCeiling (fun ceiling => t.config.leverage > ceiling)
    (.leverage t.config.leverage)

def maxOpenRule : Option RiskViolation :=
  let openCount := (openRows rows t.config.userId).length
  limitRule risk.maxOpenPositions (fun maxOpen => (openCount : ℤ) ≥ maxOpen) (.maxOpen openCount)

/-- The cap on the open positions of a symbol. -/
def maxOpenPerSymbolRule : Option RiskViolation :=
  let symCount := (openRowsOn rows t.config.userId t.executionSymbol).length
  limitRule risk.maxOpenPositionsPerSymbol (fun maxOpenSym => (symCount : ℤ) ≥ maxOpenSym)
    (.maxOpenPerSymbol t.executionSymbol symCount)

/-- A position of the side is open on the symbol of the entry. -/
def hasOpen (side : PositionSide) : Bool :=
  (openRowsOn rows t.config.userId t.executionSymbol).any fun p => p.side = side

/-- The block of signals that contradict an open position. -/
def conflictingSignalRule : Option RiskViolation :=
  if risk.conflictingSignalPolicy = .blockOpposite then
    match t.signal.trend.entrySide with
    | some side =>
        if hasOpen rows t (oppositeSide side) then
          some (.conflictingSignal t.executionSymbol side (oppositeSide side))
        else none
    | none => none
  else none

/-- The cap on the exposure, which may be reached but not exceeded. -/
def exposureRule : Option RiskViolation :=
  let current := currentExposure rows t.config.userId
  let newSize := t.config.positionSizeUsdt
  let projected := current + newSize
  limitRule risk.exposureCapUsdt (fun cap => projected > cap) (.exposure current newSize projected)

def todayLoss : ℚ := max 0 (-t.todayRealizedPnlUsdt)

/-- The limit on the loss of the day. -/
def dailyLossRule : Option RiskViolation :=
  limitRule risk.dailyLossLimitUsdt (fun limit => todayLoss t ≥ limit) (.dailyLoss (todayLoss t))

/-- The limit on the loss of the day against the balance, which is only asked for a loss and a
balance that is known and positive. -/
def dailyLossPctRule : Option RiskViolation :=
  match t.accountBalanceUsdt with
  | none => none
  | some balance =>
      let todayLossPct := todayLoss t / balance * 100
      limitRule risk.dailyLossLimitPct
        (fun limit => 0 < todayLoss t ∧ 0 < balance ∧ todayLossPct ≥ limit)
        (.dailyLossPct (todayLoss t) todayLossPct balance)

/-- The rules in the order in which they are asked. -/
def riskRules : List (Option RiskViolation) :=
  [leverageRule t risk, maxOpenRule rows t risk, maxOpenPerSymbolRule rows t risk,
    conflictingSignalRule rows t risk, exposureRule rows t risk, dailyLossRule t risk,
    dailyLossPctRule t risk]

/-- The warning of an entry whose loss could not be held against a balance. -/
def dailyWarning : Option String :=
  if risk.dailyLossLimitPct.isSome ∧ 0 < todayLoss t ∧ t.accountBalanceUsdt = none then
    some ("daily_loss_limit_pct not evaluated — sub-account balance unavailable; " ++
      "trade allowed (fail-open).")
  else none

end Rules

/-- `check_pre_trade`. -/
def checkPreTrade (rows : List PositionRow) (t : PreTrade) : RiskDecision :=
  match t.riskCfg with
  | none => .allow
  | some risk =>
      if !risk.enabled then .allow
      else
        match (riskRules rows t risk).findSome? id with
        | some violation => .block violation
        | none => .allow (dailyWarning t risk)

/-- **When an entry is let through.**  There is no risk row, or it is off, or it finds no rule
violated. -/
theorem checkPreTrade_allowed_iff (rows : List PositionRow) (t : PreTrade) :
    (checkPreTrade rows t).allowed = true ↔
      ∀ risk, t.riskCfg = some risk → risk.enabled = true →
        ∀ rule ∈ riskRules rows t risk, rule = none := by
  unfold checkPreTrade
  cases hrisk : t.riskCfg with
  | none => simp [RiskDecision.allowed]
  | some risk =>
      cases henabled : risk.enabled with
      | false =>
          refine iff_of_true (by simp [henabled, RiskDecision.allowed]) ?_
          intro risk' hsame hon
          rw [← Option.some.inj hsame, henabled] at hon
          exact absurd hon Bool.false_ne_true
      | true =>
          simp only [Bool.not_true, Bool.false_eq_true, Option.some.injEq, forall_eq', henabled,
            forall_const]
          have hnone : (riskRules rows t risk).findSome? id = none ↔
              ∀ rule ∈ riskRules rows t risk, rule = none := List.findSome?_eq_none_iff
          rw [← hnone]
          cases (riskRules rows t risk).findSome? id <;> simp [RiskDecision.allowed]

/-! ## Blocked entries stay blocked -/

/-- A limit is lowered, or set where there was none. -/
def Lowered {α : Type} [LE α] (limit limit' : Option α) : Prop := ∀ x ∈ limit, ∃ y ∈ limit', y ≤ x

/-- No limit of a risk row is raised or taken back. -/
structure Tightened (risk risk' : RiskConfig) : Prop where
  enabled : risk.enabled = true → risk'.enabled = true
  leverageCeiling : Lowered risk.leverageCeiling risk'.leverageCeiling
  maxOpenPositions : Lowered risk.maxOpenPositions risk'.maxOpenPositions
  maxOpenPositionsPerSymbol :
    Lowered risk.maxOpenPositionsPerSymbol risk'.maxOpenPositionsPerSymbol
  conflictingSignalPolicy : risk.conflictingSignalPolicy = .blockOpposite →
    risk'.conflictingSignalPolicy = .blockOpposite
  exposureCapUsdt : Lowered risk.exposureCapUsdt risk'.exposureCapUsdt
  dailyLossLimitUsdt : Lowered risk.dailyLossLimitUsdt risk'.dailyLossLimitUsdt
  dailyLossLimitPct : Lowered risk.dailyLossLimitPct risk'.dailyLossLimitPct

theorem limitRule_ne_none_iff {α : Type} {limit : Option α} {violated : α → Prop}
    [DecidablePred violated] {violation : α → RiskViolation} :
    limitRule limit violated violation ≠ none ↔ ∃ x ∈ limit, violated x := by
  cases limit with
  | none => simp [limitRule]
  | some x => by_cases hx : violated x <;> simp [limitRule]

theorem limitRule_mono {α : Type} [LE α] {limit limit' : Option α} {violated violated' : α → Prop}
    [DecidablePred violated] [DecidablePred violated'] {violation violation' : α → RiskViolation}
    (hlimit : Lowered limit limit') (hviolated : ∀ x y, y ≤ x → violated x → violated' y)
    (h : limitRule limit violated violation ≠ none) :
    limitRule limit' violated' violation' ≠ none := by
  obtain ⟨x, hx, hviol⟩ := limitRule_ne_none_iff.mp h
  obtain ⟨y, hy, hle⟩ := hlimit x hx
  exact limitRule_ne_none_iff.mpr ⟨y, hy, hviolated x y hle hviol⟩

theorem conflictingSignalRule_ne_none_iff {rows : List PositionRow} {t : PreTrade}
    {risk : RiskConfig} :
    conflictingSignalRule rows t risk ≠ none ↔
      risk.conflictingSignalPolicy = .blockOpposite ∧ ∃ side, t.signal.trend.entrySide = some side ∧
        ∃ p ∈ openRowsOn rows t.config.userId t.executionSymbol, p.side = oppositeSide side := by
  unfold conflictingSignalRule
  by_cases hpolicy : risk.conflictingSignalPolicy = .blockOpposite
  · cases t.signal.trend.entrySide with
    | none => simp
    | some side => simp [hasOpen, hpolicy]
  · simp [hpolicy]

/-- The rows of the table, each of which has a positive size. -/
structure PositionTable where
  rows : List PositionRow
  positive : ∀ p ∈ rows, 0 < p.positionSizeUsdt

theorem currentExposure_le_of_subperm {rows : List PositionRow} {table' : PositionTable}
    {userId : ℕ} (hmore : (openRows rows userId).Subperm (openRows table'.rows userId)) :
    currentExposure rows userId ≤ currentExposure table'.rows userId := by
  obtain ⟨kept, hperm, hsub⟩ := hmore
  have hkept : (kept.map PositionRow.positionSizeUsdt).sum = currentExposure rows userId :=
    (hperm.map _).sum_eq
  rw [← hkept]
  refine (hsub.map _).sum_le_sum fun size hsize => ?_
  obtain ⟨p, hp, rfl⟩ := List.mem_map.mp hsize
  exact (table'.positive p (List.mem_of_mem_filter hp)).le

/-- **Blocked entries stay blocked** when more positions of the user are open and when limits are
lowered. -/
theorem allowed_eq_false_of_more {table table' : PositionTable} {t t' : PreTrade}
    {risk risk' : RiskConfig} (ht : t' = { t with riskCfg := some risk' })
    (hrisk : t.riskCfg = some risk) (htight : Tightened risk risk')
    (hmore : (openRows table.rows t.config.userId).Subperm (openRows table'.rows t.config.userId))
    (hblocked : (checkPreTrade table.rows t).allowed = false) :
    (checkPreTrade table'.rows t').allowed = false := by
  rw [← Bool.not_eq_true, checkPreTrade_allowed_iff] at hblocked ⊢
  intro hallowed
  refine hblocked fun risk₁ hrisk₁ henabled => ?_
  obtain rfl : risk = risk₁ := Option.some.inj (hrisk.symm.trans hrisk₁)
  have hnone := hallowed risk' (by rw [ht]) (htight.enabled henabled)
  have hon : (openRowsOn table.rows t.config.userId t.executionSymbol).Subperm
      (openRowsOn table'.rows t.config.userId t.executionSymbol) := hmore.filter _
  have hcount := hmore.length_le
  have hcountOn := hon.length_le
  have hexposure := currentExposure_le_of_subperm hmore
  simp only [riskRules, List.mem_cons, List.not_mem_nil, or_false, forall_eq_or_imp,
    forall_eq] at hnone ⊢
  subst ht
  obtain ⟨hleverage, hopen, hopenOn, hconflict, hcap, hloss, hlossPct⟩ := hnone
  refine ⟨?_, ?_, ?_, ?_, ?_, ?_, ?_⟩
  · by_contra h
    refine limitRule_mono htight.leverageCeiling ?_ h hleverage
    intro x y hle hx
    exact lt_of_le_of_lt hle hx
  · by_contra h
    refine limitRule_mono htight.maxOpenPositions ?_ h hopen
    intro x y hle hx
    simp only [ge_iff_le] at hx ⊢
    omega
  · by_contra h
    refine limitRule_mono htight.maxOpenPositionsPerSymbol ?_ h hopenOn
    intro x y hle hx
    simp only [ge_iff_le] at hx ⊢
    omega
  · by_contra h
    obtain ⟨hpolicy, side, hside, p, hp, hopposite⟩ := conflictingSignalRule_ne_none_iff.mp h
    exact conflictingSignalRule_ne_none_iff.mpr ⟨htight.conflictingSignalPolicy hpolicy, side,
      hside, p, hon.subset hp, hopposite⟩ hconflict
  · by_contra h
    refine limitRule_mono htight.exposureCapUsdt ?_ h hcap
    intro x y hle hx
    exact lt_of_le_of_lt hle (lt_of_lt_of_le hx (by linarith))
  · by_contra h
    refine limitRule_mono htight.dailyLossLimitUsdt ?_ h hloss
    intro x y hle hx
    exact hle.trans hx
  · by_contra h
    unfold dailyLossPctRule at h hlossPct
    cases hbalance : t.accountBalanceUsdt with
    | none => simp [hbalance] at h
    | some balance =>
        simp only [hbalance] at h hlossPct
        refine limitRule_mono htight.dailyLossLimitPct ?_ h hlossPct
        rintro x y hle ⟨hpos, hbal, hx⟩
        exact ⟨hpos, hbal, hle.trans hx⟩

end AdviserConstructor
