import AdviserConstructor.AutoTrade.StrategyHealth
import AdviserConstructor.Library.DecimalText
import Mathlib.Algebra.Order.BigOperators.Group.List

/-!
# The health score and the stops

`health_from_trades` of `app/services/auto_trade/health.py`, with what the health model leaves out:
the stability over consecutive windows, the composite score and the health class.

As long as no fills are synced, the trades are the stored positions.  The unit of a trade is then
its profit by the risk that its stop leaves, and `sl_price` of a closed position is where the stop
was at the close: at the entry, for one that had been moved to break even.  Such a trade has no
risk, and is silently left out of the win rate and of the stability.

* `tradesForHealth_of_noFills`: without fills, the trades are those of the stored positions.
* `NoProfit.agrees`: where no position has a profit, the health is the same wherever the stops had
  been moved to.
* `freeOfStops_iff`: when it is the same, and has the win rate of the trades, for lists of stored
  positions and for histories without fills.
-/

namespace AdviserConstructor

open Backtest DecimalText

/-! ## Stability -/

/-- `np.array_split`: the first sections have one value more where the values do not divide. -/
def arraySplit (values : List ℚ) (sections : ℕ) : List (List ℚ) :=
  (List.range sections).map fun i =>
    (values.drop (i * (values.length / sections) + min i (values.length % sections))).take
      (values.length / sections + if i < values.length % sections then 1 else 0)

/-- `build_walk_forward_stability`, by its `stability_score`: the share of the windows with a
positive sum. -/
def stabilityScore (rValues : List ℚ) : ℚ :=
  if rValues = [] then 0
  else
    let segments := arraySplit rValues (min 4 rValues.length)
    ((segments.filter fun segment => decide (0 < segment.sum)).length : ℚ) / segments.length

example : stabilityScore [1, 1, -3, 1, -1, 2] = 1 / 2 := by decide +kernel

/-! ## The score -/

/-- `_clamp01`. -/
def clamp01 (value : ℚ) : ℚ := max 0 (min 1 value)

/-- `_composite_score`. -/
def compositeScore (winRatePct maxDdPct pnlPct stability : ℚ) : ℚ :=
  let winRateAxis := clamp01 (winRatePct / 100)
  let drawdownAxis := clamp01 (1 - maxDdPct / 50)
  let pnlAxis := clamp01 (1 / 2 + pnlPct / (2 * 20))
  let stabilityAxis := clamp01 stability
  let score := (3 / 10 * winRateAxis + 3 / 10 * drawdownAxis + 2 / 10 * pnlAxis +
    2 / 10 * stabilityAxis) * 100
  roundHalfEven (score * 100) / 100

/-- The health classes. -/
inductive HealthClass where
  | healthy | warning | critical | insufficientData
  deriving DecidableEq, Repr

/-- `_classify`. -/
def classify (score : ℚ) : HealthClass :=
  if 70 ≤ score then .healthy else if 40 ≤ score then .warning else .critical

/-- `StrategyHealth`, with its stability, score and class. -/
structure ScoredHealth extends StrategyHealth where
  stabilityScore : ℚ
  healthScore : ℚ
  healthClass : HealthClass
  deriving DecidableEq

/-- The variable `r_values`. -/
def healthRValues (trades : List HealthTrade) : List ℚ :=
  trades.filterMap fun trade => trade.toTradeRow.computeTradeRMultiple

/-- `health_from_trades`. -/
def scoredHealthFromTrades (trades : List HealthTrade) (initialBalance : ℚ) : ScoredHealth :=
  let health := healthFromTrades trades initialBalance
  if trades.length < healthMinTrades then
    { health with stabilityScore := 0, healthScore := 0, healthClass := .insufficientData }
  else
    let stability := stabilityScore (healthRValues trades)
    let score := compositeScore health.winRatePct health.maxDdPct health.roiPct stability
    { health with stabilityScore := stability, healthScore := score, healthClass := classify score }

/-! ## Stored positions -/

/-- The trades of stored positions, which have no fills. -/
def storedTrades (positions : List PositionRecord) : List HealthTrade :=
  positions.filterMap fun position => position.grossRealizedPnl.map (positionToTrade position)

/-- **Without fills** the trades are those of the stored positions. -/
theorem tradesForHealth_of_noFills {history : PnlHistory} (hfills : history.fills = [])
    (config : AutoTradeConfig) (cutoff : ℚ) :
    tradesForHealth history config cutoff =
      storedTrades (closedPositions history config.id cutoff) := by
  have haccount : accountTradesForHealth history config.accountId cutoff = [] := by
    rw [accountTradesForHealth, accountFills, hfills]
    rfl
  have hnet : ∀ position, netRealizedByPosition history position = none := by
    intro position
    rw [netRealizedByPosition, positionFills, hfills]
    rfl
  rw [tradesForHealth, haccount]
  refine List.filterMap_congr fun position _ => ?_
  rw [positionTrade, hnet, Option.none_or]

def PositionRecord.eraseStop (position : PositionRecord) : PositionRecord :=
  { position with slPrice := 0 }

/-- The positions are the same but for where the stops had been moved to. -/
def SameButStops (positions positions' : List PositionRecord) : Prop :=
  positions.map PositionRecord.eraseStop = positions'.map PositionRecord.eraseStop

instance (positions positions' : List PositionRecord) :
    Decidable (SameButStops positions positions') :=
  inferInstanceAs (Decidable (_ = _))

def storedHealth (positions : List PositionRecord) (initialBalance : ℚ) : ScoredHealth :=
  scoredHealthFromTrades (storedTrades positions) initialBalance

/-- The trades with a positive profit. -/
def profitable (positions : List PositionRecord) : List HealthTrade :=
  (storedTrades positions).filter fun trade => decide (0 < trade.pnlUsdt)

/-- The health agrees with that of positions with other stops. -/
structure SameHealth (health health' : ScoredHealth) : Prop where
  winRatePct : health.winRatePct = health'.winRatePct
  sampleSize : health.sampleSize = health'.sampleSize
  stabilityScore : health.stabilityScore = health'.stabilityScore
  healthClass : health.healthClass = health'.healthClass

/-- The health does not depend on the stops, and its win rate is that of the trades. -/
structure FreeOfStops (positions : List PositionRecord) (initialBalance : ℚ) : Prop where
  agrees : ∀ positions', SameButStops positions positions' →
    SameHealth (storedHealth positions initialBalance) (storedHealth positions' initialBalance)
  winRate : (storedHealth positions initialBalance).winRatePct =
    100 * ((profitable positions).length : ℚ) / (storedHealth positions initialBalance).sampleSize

/-- The health of a configuration in a history. -/
def healthInHistory (history : PnlHistory) (config : AutoTradeConfig) (cutoff initialBalance : ℚ) :
    ScoredHealth :=
  scoredHealthFromTrades (tradesForHealth history config cutoff) initialBalance

/-- The same for a configuration in a history without fills, against all such histories whose
positions differ in the stops only. -/
structure HistoryFreeOfStops (history : PnlHistory) (config : AutoTradeConfig)
    (cutoff initialBalance : ℚ) : Prop where
  agrees : ∀ history' : PnlHistory, history'.fills = [] →
    SameButStops history.positions history'.positions →
      SameHealth (healthInHistory history config cutoff initialBalance)
        (healthInHistory history' config cutoff initialBalance)
  winRate : (healthInHistory history config cutoff initialBalance).winRatePct =
    100 * (((tradesForHealth history config cutoff).filter fun trade =>
      decide (0 < trade.pnlUsdt)).length : ℚ) /
        (healthInHistory history config cutoff initialBalance).sampleSize

/-! ## The R multiple of a stored position -/

section

variable {positions positions' : List PositionRecord} {initialBalance : ℚ}

/-- The profit of a position in units of the risk that its stop leaves. -/
def storedR (position : PositionRecord) (pnl : ℚ) : Option ℚ :=
  if position.slPrice ≠ position.entryPrice ∧ 0 < position.quantity then
    some (pnl / (|position.entryPrice - position.slPrice| * position.quantity))
  else none

theorem deriveTradeRiskUsdt_stored (position : PositionRecord) (pnl : ℚ) :
    TradeRow.positive (positionToTrade position pnl).toTradeRow.deriveTradeRiskUsdt =
      if position.slPrice ≠ position.entryPrice ∧ 0 < position.quantity then
        some (|position.entryPrice - position.slPrice| * position.quantity)
      else none := by
  have hrow : (positionToTrade position pnl).toTradeRow =
      { entryTime := 0, exitTime := 0, entry := position.entryPrice, sl := some position.slPrice
        positionSize := some position.quantity, pnlUsdt := pnl
        exitReason := if position.exitReason = "OPEN" then some .openAtEnd else none } := rfl
  rw [hrow, TradeRow.deriveTradeRiskUsdt]
  dsimp only [TradeRow.positive, Option.bind_some, Option.filter_none, Option.map_none]
  rw [Option.or_none, Option.filter_some]
  by_cases hstop : position.slPrice = position.entryPrice
  · have hzero : |position.entryPrice - position.slPrice| ≤ 0 := by
      rw [hstop, sub_self, abs_zero]
    have hnot : ¬ (position.slPrice ≠ position.entryPrice ∧ 0 < position.quantity) :=
      fun h => h.1 hstop
    rw [if_pos hzero, if_neg hnot, Option.filter_none]
  · have hdistance : 0 < |position.entryPrice - position.slPrice| :=
      abs_pos.mpr (sub_ne_zero.mpr (Ne.symm hstop))
    rw [if_neg (not_le.mpr hdistance)]
    by_cases hquantity : 0 < position.quantity
    · have hrisk : 0 < |position.entryPrice - position.slPrice| * position.quantity :=
        mul_pos hdistance hquantity
      rw [if_pos (decide_eq_true hquantity)]
      dsimp only
      rw [abs_of_pos hquantity, Option.filter_some, if_pos (decide_eq_true hrisk)]
      exact (if_pos ⟨hstop, hquantity⟩).symm
    · rw [if_neg (fun h => hquantity (of_decide_eq_true h))]
      rw [ite_self]
      exact (if_neg fun h => hquantity h.2).symm

theorem computeTradeRMultiple_stored (position : PositionRecord) (pnl : ℚ) :
    (positionToTrade position pnl).toTradeRow.computeTradeRMultiple = storedR position pnl := by
  have hrisk : (positionToTrade position pnl).toTradeRow.computeTradeRMultiple =
      ((TradeRow.positive (positionToTrade position pnl).toTradeRow.deriveTradeRiskUsdt).map
        fun risk => pnl / risk) := rfl
  rw [hrisk, deriveTradeRiskUsdt_stored, storedR]
  split <;> rfl

/-- The R multiples of stored positions, of those that have one. -/
def storedRs (positions : List PositionRecord) : List ℚ :=
  positions.filterMap fun position => position.grossRealizedPnl.bind (storedR position)

/-- The positions that count as closed for the win rate. -/
def countedPositions (positions : List PositionRecord) : List PositionRecord :=
  positions.filter fun position => position.exitReason ≠ "OPEN"

theorem healthRValues_stored (positions : List PositionRecord) :
    healthRValues (storedTrades positions) = storedRs positions := by
  rw [healthRValues, storedTrades, List.filterMap_filterMap]
  refine List.filterMap_congr fun position _ => ?_
  rw [Option.bind_map]
  refine congrArg (Option.bind _) (funext fun pnl => ?_)
  exact computeTradeRMultiple_stored position pnl

theorem isOpen_stored (position : PositionRecord) (pnl : ℚ) :
    (positionToTrade position pnl).toTradeRow.isOpen = decide (position.exitReason = "OPEN") := by
  show decide ((if position.exitReason = "OPEN" then some RowExit.openAtEnd else none) =
    some RowExit.openAtEnd) = _
  by_cases hopen : position.exitReason = "OPEN"
  · rw [if_pos hopen, decide_eq_true rfl, decide_eq_true hopen]
  · rw [if_neg hopen, decide_eq_false (by simp), decide_eq_false hopen]

theorem collectValidRValues_stored (positions : List PositionRecord) :
    collectValidRValues ((storedTrades positions).map HealthTrade.toTradeRow) =
      storedRs (countedPositions positions) := by
  rw [collectValidRValues, closedRows, List.filterMap_filter, List.filterMap_map, storedTrades,
    List.filterMap_filterMap, storedRs, countedPositions, List.filterMap_filter]
  refine List.filterMap_congr fun position _ => ?_
  have hcounted :
      decide (position.exitReason ≠ "OPEN") = !decide (position.exitReason = "OPEN") :=
    decide_not
  rw [hcounted]
  cases position.grossRealizedPnl with
  | none => simp
  | some pnl =>
    show (if (!(positionToTrade position pnl).toTradeRow.isOpen) = true then
      (positionToTrade position pnl).toTradeRow.computeTradeRMultiple else none) = _
    rw [isOpen_stored, computeTradeRMultiple_stored, Option.bind_some]

theorem winRatePct_stored (hmany : ¬ (storedTrades positions).length < healthMinTrades) :
    (storedHealth positions initialBalance).winRatePct =
      percentPositive (storedRs (countedPositions positions)) := by
  rw [storedHealth, scoredHealthFromTrades, if_neg hmany]
  show (healthFromTrades (storedTrades positions) initialBalance).winRatePct = _
  rw [healthFromTrades, if_neg hmany]
  show percentPositive (collectValidRValues _) = _
  rw [collectValidRValues_stored]

theorem winRatePct_of_few (hfew : (storedTrades positions).length < healthMinTrades) :
    (storedHealth positions initialBalance).winRatePct = 0 := by
  rw [storedHealth, scoredHealthFromTrades, if_pos hfew]
  show (healthFromTrades (storedTrades positions) initialBalance).winRatePct = _
  rw [healthFromTrades, if_pos hfew]

theorem sampleSize_stored :
    (storedHealth positions initialBalance).sampleSize = (storedTrades positions).length := by
  have hsample := sampleSize_healthFromTrades (storedTrades positions) initialBalance
  rw [storedHealth, scoredHealthFromTrades]
  split
  · exact hsample
  · exact hsample

/-! ## What the stops are not part of -/

def HealthTrade.eraseSl (trade : HealthTrade) : HealthTrade := { trade with sl := none }

theorem map_eraseSl_storedTrades (positions : List PositionRecord) :
    (storedTrades positions).map HealthTrade.eraseSl =
      (storedTrades (positions.map PositionRecord.eraseStop)).map HealthTrade.eraseSl := by
  rw [storedTrades, storedTrades, List.map_filterMap, List.map_filterMap, List.filterMap_map]
  refine List.filterMap_congr fun position _ => ?_
  show (position.grossRealizedPnl.map _).map _ = (position.grossRealizedPnl.map _).map _
  rw [Option.map_map, Option.map_map]
  rfl

namespace SameButStops

theorem eraseSl (h : SameButStops positions positions') :
    (storedTrades positions).map HealthTrade.eraseSl =
      (storedTrades positions').map HealthTrade.eraseSl := by
  rw [map_eraseSl_storedTrades, map_eraseSl_storedTrades positions', h]

theorem length (h : SameButStops positions positions') :
    (storedTrades positions).length = (storedTrades positions').length := by
  have hlength := congrArg List.length h.eraseSl
  rwa [List.length_map, List.length_map] at hlength

theorem map_pnl (h : SameButStops positions positions') :
    (storedTrades positions).map HealthTrade.pnlUsdt =
      (storedTrades positions').map HealthTrade.pnlUsdt := by
  have hpnl := congrArg (List.map HealthTrade.pnlUsdt) h.eraseSl
  rwa [List.map_map, List.map_map] at hpnl

theorem buildEquityCurve (h : SameButStops positions positions') :
    buildEquityCurve (storedTrades positions) initialBalance =
      buildEquityCurve (storedTrades positions') initialBalance := by
  have hcurve : ∀ trades : List HealthTrade,
      AdviserConstructor.buildEquityCurve (trades.map HealthTrade.eraseSl) initialBalance =
        AdviserConstructor.buildEquityCurve trades initialBalance := by
    intro trades
    rw [AdviserConstructor.buildEquityCurve, List.filter_map, List.map_map]
    rfl
  rw [← hcurve, h.eraseSl, hcurve]

theorem exists_mem (h : SameButStops positions positions') {position' : PositionRecord}
    (hposition : position' ∈ positions') :
    ∃ position ∈ positions, position.quantity = position'.quantity ∧
      position.grossRealizedPnl = position'.grossRealizedPnl := by
  have hmem : position'.eraseStop ∈ positions.map PositionRecord.eraseStop :=
    h ▸ List.mem_map_of_mem hposition
  obtain ⟨position, hposition, herase⟩ := List.mem_map.mp hmem
  have hquantity : position.eraseStop.quantity = position'.eraseStop.quantity :=
    congrArg PositionRecord.quantity herase
  have hpnl : position.eraseStop.grossRealizedPnl = position'.eraseStop.grossRealizedPnl :=
    congrArg PositionRecord.grossRealizedPnl herase
  exact ⟨position, hposition, hquantity, hpnl⟩

theorem map_stops (stop : PositionRecord → ℚ) :
    SameButStops positions
      (positions.map fun position => { position with slPrice := stop position }) := by
  rw [SameButStops, List.map_map]
  rfl

end SameButStops

/-! ## Positions without a profit -/

/-- No position of a positive quantity has a profit. -/
def NoProfit (positions : List PositionRecord) : Prop :=
  ∀ position ∈ positions, 0 < position.quantity → ∀ pnl ∈ position.grossRealizedPnl, pnl ≤ 0

theorem NoProfit.sameButStops (hnone : NoProfit positions)
    (h : SameButStops positions positions') : NoProfit positions' := by
  intro position' hposition' hquantity pnl hpnl
  obtain ⟨position, hposition, hsize, hsame⟩ := h.exists_mem hposition'
  exact hnone position hposition (hsize ▸ hquantity) pnl (hsame ▸ hpnl)

theorem NoProfit.countedPositions (hnone : NoProfit positions) :
    NoProfit (countedPositions positions) :=
  fun position hposition => hnone position (List.mem_of_mem_filter hposition)

theorem mem_storedRs {r : ℚ} (hr : r ∈ storedRs positions) :
    ∃ position ∈ positions, ∃ pnl ∈ position.grossRealizedPnl,
      position.slPrice ≠ position.entryPrice ∧ 0 < position.quantity ∧
        r = pnl / (|position.entryPrice - position.slPrice| * position.quantity) := by
  obtain ⟨position, hposition, hsome⟩ := List.mem_filterMap.mp hr
  obtain ⟨pnl, hpnl, hstored⟩ := Option.bind_eq_some_iff.mp hsome
  rw [storedR] at hstored
  split at hstored
  · rename_i hrisk
    exact ⟨position, hposition, pnl, hpnl, hrisk.1, hrisk.2, (Option.some.inj hstored).symm⟩
  · cases hstored

theorem storedRs_countedPositions {r : ℚ} (hr : r ∈ storedRs (countedPositions positions)) :
    r ∈ storedRs positions := by
  obtain ⟨position, hposition, hsome⟩ := List.mem_filterMap.mp hr
  exact List.mem_filterMap.mpr ⟨position, List.mem_of_mem_filter hposition, hsome⟩

theorem risk_pos {position : PositionRecord} (hstop : position.slPrice ≠ position.entryPrice)
    (hquantity : 0 < position.quantity) :
    0 < |position.entryPrice - position.slPrice| * position.quantity :=
  mul_pos (abs_pos.mpr (sub_ne_zero.mpr (Ne.symm hstop))) hquantity

theorem NoProfit.storedRs_nonpos (hnone : NoProfit positions) :
    ∀ r ∈ storedRs positions, r ≤ 0 := by
  intro r hr
  obtain ⟨position, hposition, pnl, hpnl, hstop, hquantity, rfl⟩ := mem_storedRs hr
  exact div_nonpos_of_nonpos_of_nonneg (hnone position hposition hquantity pnl hpnl)
    (risk_pos hstop hquantity).le

theorem percentPositive_of_nonpos {values : List ℚ} (h : ∀ v ∈ values, v ≤ 0) :
    percentPositive values = 0 := by
  have hnil : values.filter (fun v => decide (0 < v)) = [] :=
    List.filter_eq_nil_iff.mpr fun v hv => by simpa using h v hv
  rw [percentPositive, hnil]
  split
  · rfl
  · rw [List.length_nil, Nat.cast_zero, zero_div, zero_mul]

theorem mem_of_mem_arraySplit {values segment : List ℚ} {sections : ℕ}
    (hsegment : segment ∈ arraySplit values sections) {v : ℚ} (hv : v ∈ segment) : v ∈ values := by
  obtain ⟨i, -, rfl⟩ := List.mem_map.mp hsegment
  exact List.mem_of_mem_drop (List.mem_of_mem_take hv)

theorem stabilityScore_of_nonpos {values : List ℚ} (h : ∀ v ∈ values, v ≤ 0) :
    stabilityScore values = 0 := by
  rw [stabilityScore]
  by_cases hempty : values = []
  · rw [if_pos hempty]
  · have hnil : (arraySplit values (min 4 values.length)).filter
        (fun segment => decide (0 < segment.sum)) = [] := by
      refine List.filter_eq_nil_iff.mpr fun segment hsegment => ?_
      have hsum := List.sum_le_card_nsmul segment 0 fun v hv =>
        h v (mem_of_mem_arraySplit hsegment hv)
      rw [decide_eq_true_eq, not_lt]
      exact hsum.trans (nsmul_zero _).le
    rw [if_neg hempty]
    dsimp only
    rw [hnil, List.length_nil, Nat.cast_zero, zero_div]

/-! ## Stops that are moved to the entry -/

/-- The stops are moved to the entry. -/
def stopsAtEntry (positions : List PositionRecord) : List PositionRecord :=
  positions.map fun position => { position with slPrice := position.entryPrice }

theorem sameButStops_stopsAtEntry (positions : List PositionRecord) :
    SameButStops positions (stopsAtEntry positions) :=
  SameButStops.map_stops _

theorem storedRs_stopsAtEntry (positions : List PositionRecord) :
    storedRs (stopsAtEntry positions) = [] := by
  refine List.eq_nil_iff_forall_not_mem.mpr fun r hr => ?_
  obtain ⟨position, hposition, pnl, -, hstop, -⟩ := mem_storedRs hr
  obtain ⟨original, -, rfl⟩ := List.mem_map.mp hposition
  exact hstop rfl

/-! ## The closed positions of a history -/

theorem closedPositions_map {f : PositionRecord → PositionRecord}
    (hf : ∀ position, (f position).configId = position.configId ∧
      (f position).status = position.status ∧ (f position).closedAt = position.closedAt)
    (history : PnlHistory) (configId : ℕ) (cutoff : ℚ) :
    closedPositions { history with positions := history.positions.map f } configId cutoff =
      (closedPositions history configId cutoff).map f := by
  have horder : ∀ positions : List PositionRecord,
      (positions.insertionSort fun position position' =>
        position.closedAt.getD 0 ≤ position'.closedAt.getD 0).map f =
      (positions.map f).insertionSort fun position position' =>
        position.closedAt.getD 0 ≤ position'.closedAt.getD 0 := fun positions =>
    List.map_insertionSort _ _ f positions fun position _ position' _ => by
      rw [(hf position).2.2, (hf position').2.2]
  rw [closedPositions, closedPositions, List.filter_map, horder]
  congr 2
  refine List.filter_congr fun position _ => ?_
  obtain ⟨hconfig, hstatus, hclosed⟩ := hf position
  rw [Function.comp_apply, PositionRecord.closedSince, hconfig, hstatus, hclosed]
  rfl

theorem SameButStops.closedPositions {history history' : PnlHistory}
    (h : SameButStops history.positions history'.positions) (configId : ℕ) (cutoff : ℚ) :
    SameButStops (AdviserConstructor.closedPositions history configId cutoff)
      (AdviserConstructor.closedPositions history' configId cutoff) := by
  have herase : ∀ position : PositionRecord, position.eraseStop.configId = position.configId ∧
      position.eraseStop.status = position.status ∧
        position.eraseStop.closedAt = position.closedAt := fun _ => ⟨rfl, rfl, rfl⟩
  rw [SameButStops, ← closedPositions_map herase, ← closedPositions_map herase]
  exact congrArg (fun positions => AdviserConstructor.closedPositions { positions } configId cutoff)
    h

/-! ## The health and the stops -/

theorem stabilityScore_stored (hmany : ¬ (storedTrades positions).length < healthMinTrades) :
    (storedHealth positions initialBalance).stabilityScore =
      stabilityScore (storedRs positions) := by
  rw [storedHealth, scoredHealthFromTrades, if_neg hmany, healthRValues_stored]

theorem agrees_of_ratios (h : SameButStops positions positions')
    (hwin : (storedHealth positions initialBalance).winRatePct =
      (storedHealth positions' initialBalance).winRatePct)
    (hstability : (storedHealth positions initialBalance).stabilityScore =
      (storedHealth positions' initialBalance).stabilityScore) :
    SameHealth (storedHealth positions initialBalance)
      (storedHealth positions' initialBalance) := by
  refine ⟨hwin, ?_, hstability, ?_⟩
  · rw [sampleSize_stored, sampleSize_stored, h.length]
  · by_cases hfew : (storedTrades positions).length < healthMinTrades
    · have hfew' : (storedTrades positions').length < healthMinTrades := h.length ▸ hfew
      rw [storedHealth, storedHealth, scoredHealthFromTrades, scoredHealthFromTrades, if_pos hfew,
        if_pos hfew']
    · have hfew' : ¬ (storedTrades positions').length < healthMinTrades := h.length ▸ hfew
      have hdd : (healthFromTrades (storedTrades positions) initialBalance).maxDdPct =
          (healthFromTrades (storedTrades positions') initialBalance).maxDdPct := by
        rw [healthFromTrades, healthFromTrades, if_neg hfew, if_neg hfew']
        exact congrArg calculateEquityMaxDrawdownPct h.buildEquityCurve
      have hroi : (healthFromTrades (storedTrades positions) initialBalance).roiPct =
          (healthFromTrades (storedTrades positions') initialBalance).roiPct := by
        rw [healthFromTrades, healthFromTrades, if_neg hfew, if_neg hfew', h.map_pnl]
      rw [storedHealth, storedHealth, scoredHealthFromTrades, scoredHealthFromTrades, if_neg hfew,
        if_neg hfew'] at hwin hstability ⊢
      dsimp only at hwin hstability ⊢
      rw [hwin, hstability, hdd, hroi]

theorem NoProfit.winRatePct (hnone : NoProfit positions) :
    (storedHealth positions initialBalance).winRatePct = 0 := by
  by_cases hfew : (storedTrades positions).length < healthMinTrades
  · exact winRatePct_of_few hfew
  · rw [winRatePct_stored hfew]
    exact percentPositive_of_nonpos hnone.countedPositions.storedRs_nonpos

theorem NoProfit.stabilityScore (hnone : NoProfit positions) :
    (storedHealth positions initialBalance).stabilityScore = 0 := by
  by_cases hfew : (storedTrades positions).length < healthMinTrades
  · rw [storedHealth, scoredHealthFromTrades, if_pos hfew]
  · rw [stabilityScore_stored hfew]
    exact stabilityScore_of_nonpos hnone.storedRs_nonpos

theorem NoProfit.agrees (hnone : NoProfit positions) (h : SameButStops positions positions') :
    SameHealth (storedHealth positions initialBalance)
      (storedHealth positions' initialBalance) := by
  have hnone' := hnone.sameButStops h
  refine agrees_of_ratios h ?_ ?_
  · rw [hnone.winRatePct, hnone'.winRatePct]
  · rw [hnone.stabilityScore, hnone'.stabilityScore]

theorem noProfit_of_winRate
    (hentry : (storedHealth positions initialBalance).winRatePct =
      (storedHealth (stopsAtEntry positions) initialBalance).winRatePct)
    (hwin : (storedHealth positions initialBalance).winRatePct =
      100 * ((profitable positions).length : ℚ) /
        (storedHealth positions initialBalance).sampleSize) :
    ∀ position ∈ positions, ∀ pnl ∈ position.grossRealizedPnl, pnl ≤ 0 := by
  by_contra hnot
  simp only [not_forall, not_le] at hnot
  obtain ⟨position, hposition, pnl, hpnl, hpositive⟩ := hnot
  have htrade : positionToTrade position pnl ∈ storedTrades positions :=
    List.mem_filterMap.mpr ⟨position, hposition, Option.map_eq_some_iff.mpr ⟨pnl, hpnl, rfl⟩⟩
  have hprofitable : (0 : ℚ) < (profitable positions).length :=
    Nat.cast_pos.mpr (List.length_pos_of_mem
      (List.mem_filter.mpr ⟨htrade, decide_eq_true hpositive⟩))
  have hsample : (0 : ℚ) < (storedTrades positions).length :=
    Nat.cast_pos.mpr (List.length_pos_of_mem htrade)
  have hzero : (storedHealth positions initialBalance).winRatePct = 0 := by
    by_cases hfew : (storedTrades positions).length < healthMinTrades
    · exact winRatePct_of_few hfew
    · rw [hentry, winRatePct_stored ((sameButStops_stopsAtEntry positions).length ▸ hfew)]
      refine percentPositive_of_nonpos fun r hr => ?_
      have hmem : r ∈ storedRs (stopsAtEntry positions) := storedRs_countedPositions hr
      rw [storedRs_stopsAtEntry] at hmem
      cases hmem
  rw [hzero, sampleSize_stored] at hwin
  have hshare : 0 < 100 * ((profitable positions).length : ℚ) / (storedTrades positions).length :=
    by positivity
  exact absurd hwin hshare.ne

theorem winRatePct_eq_profitable
    (h : ∀ position ∈ positions, ∀ pnl ∈ position.grossRealizedPnl, pnl ≤ 0) :
    (storedHealth positions initialBalance).winRatePct =
      100 * ((profitable positions).length : ℚ) /
        (storedHealth positions initialBalance).sampleSize := by
  have hnone : NoProfit positions := fun position hposition _ => h position hposition
  have hnil : profitable positions = [] := by
    refine List.filter_eq_nil_iff.mpr fun trade htrade => ?_
    obtain ⟨position, hposition, hsome⟩ := List.mem_filterMap.mp htrade
    obtain ⟨pnl, hpnl, rfl⟩ := Option.map_eq_some_iff.mp hsome
    rw [decide_eq_true_eq]
    exact not_lt.mpr (h position hposition pnl hpnl)
  rw [hnone.winRatePct, hnil, List.length_nil, Nat.cast_zero, mul_zero, zero_div]

theorem healthInHistory_of_noFills {history : PnlHistory} (hfills : history.fills = [])
    (config : AutoTradeConfig) (cutoff initialBalance : ℚ) :
    healthInHistory history config cutoff initialBalance =
      storedHealth (closedPositions history config.id cutoff) initialBalance := by
  rw [healthInHistory, tradesForHealth_of_noFills hfills, storedHealth]

/-- **The health is free of the stops**, and has the win rate of the trades, exactly if no position
has a profit; and in a history without fills, exactly if none of those has that it is computed
from. -/
theorem freeOfStops_iff :
    (FreeOfStops positions initialBalance ↔
      ∀ position ∈ positions, ∀ pnl ∈ position.grossRealizedPnl, pnl ≤ 0) ∧
    ∀ (history : PnlHistory) (config : AutoTradeConfig) (cutoff : ℚ), history.fills = [] →
      (HistoryFreeOfStops history config cutoff initialBalance ↔
        ∀ position ∈ closedPositions history config.id cutoff,
          ∀ pnl ∈ position.grossRealizedPnl, pnl ≤ 0) := by
  refine ⟨⟨fun h => ?_, fun h => ?_⟩,
    fun history config cutoff hfills => ⟨fun h => ?_, fun h => ?_⟩⟩
  · have hagrees := h.agrees _ (sameButStops_stopsAtEntry positions)
    exact noProfit_of_winRate hagrees.winRatePct h.winRate
  · have hnone : NoProfit positions := fun position hposition _ => h position hposition
    exact ⟨fun positions' hsame => hnone.agrees hsame, winRatePct_eq_profitable h⟩
  · -- the stops of the history are moved, and those of its closed positions with them
    have hmoved := (h.agrees { history with positions := stopsAtEntry history.positions } hfills
      (sameButStops_stopsAtEntry _)).winRatePct
    have hwin := h.winRate
    have hfills' :
        PnlHistory.fills { history with positions := stopsAtEntry history.positions } = [] := hfills
    rw [healthInHistory_of_noFills hfills] at hmoved hwin
    have hclosed : closedPositions { history with positions := stopsAtEntry history.positions }
        config.id cutoff = stopsAtEntry (closedPositions history config.id cutoff) := by
      refine closedPositions_map ?_ history config.id cutoff
      exact fun _ => ⟨rfl, rfl, rfl⟩
    rw [healthInHistory_of_noFills hfills', hclosed] at hmoved
    rw [tradesForHealth_of_noFills hfills] at hwin
    exact noProfit_of_winRate hmoved hwin
  · have hnone : NoProfit (closedPositions history config.id cutoff) :=
      fun position hposition _ => h position hposition
    refine ⟨fun history' hfills' hsame => ?_, ?_⟩
    · rw [healthInHistory_of_noFills hfills, healthInHistory_of_noFills hfills']
      exact hnone.agrees (hsame.closedPositions config.id cutoff)
    · rw [healthInHistory_of_noFills hfills, tradesForHealth_of_noFills hfills]
      exact winRatePct_eq_profitable h

end

/-! ## Stops at break even -/

/-- A long position that was closed after a move of one, with its stop at a price. -/
def closedPosition (id : ℕ) (gain slPrice : ℚ) : PositionRecord where
  id := id
  configId := 1
  accountId := 1
  symbol := "BTCUSDT"
  side := .long
  status := .closed
  entryPrice := 100
  slPrice := slPrice
  quantity := 1
  closePrice := some (100 + gain)
  openedAt := 0
  closedAt := some (id : ℚ)

/-- Five positions with a profit, whose stops were at a price, and five with a loss. -/
def fiveAndFive (slPrice : ℚ) : List PositionRecord :=
  (List.range 5).map (fun id => closedPosition id 1 slPrice) ++
    (List.range 5).map fun id => closedPosition (id + 5) (-1) 99

/-- **Stops at break even**: with the stops of the profits at the entry the win rate is none, with
these where they had been set it is one half. -/
theorem not_freeOfStops_breakEven :
    ¬ ∀ (positions : List PositionRecord) (initialBalance : ℚ),
      FreeOfStops positions initialBalance := by
  intro h
  have hagrees := (h (fiveAndFive 100) 1000).agrees (fiveAndFive 99) (by decide +kernel)
  have hmoved : (storedHealth (fiveAndFive 100) 1000).winRatePct = 0 := by decide +kernel
  have hset : (storedHealth (fiveAndFive 99) 1000).winRatePct = 50 := by decide +kernel
  have hsame := hagrees.winRatePct
  rw [hmoved, hset] at hsame
  exact absurd hsame (by norm_num)

end AdviserConstructor
