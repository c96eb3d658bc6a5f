import AdviserConstructor.AutoTrade.StrategyHealth

/-!
# Is a promotion earned in the sandbox?

The gate asks how long a strategy has been in the sandbox, and how it has traded.  The first is
counted from the beginning of the present stint, the second over thirty days, whenever the stint has
begun; and where the account has no closing fills in that time, a closed position brings in all its
fills, however old.

A history is `EarnedAt` a time if every other history that agrees with it on what has been executed
since the stint began leads to the same decision.

* `promotion_earned_iff`: this holds exactly if the thirty days lie within the stint, and either the
  account has a closing fill in them, or its closed positions have a known profit each and are too
  few, or none of them counts.
* `demoted_yesterday`: a strategy demoted a day ago, with the trades of its live time in the sample.
-/

namespace AdviserConstructor

open Backtest

/-! ## Histories that agree -/

/-- The position was not closed before. -/
def PositionRecord.heldSince (since : ℚ) (position : PositionRecord) : Bool :=
  position.closedAt.all fun closedAt => since ≤ closedAt

/-- Two histories agree on everything executed since a time. -/
structure SameSince (since : ℚ) (history history' : PnlHistory) : Prop where
  fills : history.fills.filter (·.tradedSince since) = history'.fills.filter (·.tradedSince since)
  incomes : history.incomes.filter (fun row => decide (since ≤ row.incomeAt)) =
    history'.incomes.filter fun row => decide (since ≤ row.incomeAt)
  positions : history.positions.filter (·.heldSince since) =
    history'.positions.filter (·.heldSince since)

/-- Whatever was executed before the stint, the decision is the same. -/
def EarnedAt (history : PnlHistory) (config : AutoTradeConfig) (createdAt : ℚ)
    (risk : Option RiskConfig) (now : ℚ) : Prop :=
  ∀ history', SameSince (stintStart config createdAt) history history' →
    evaluatePromotion history' config createdAt risk now =
      evaluatePromotion history config createdAt risk now

/-- The profit of the position is known from what has been executed since. -/
def KnownSince (since : ℚ) (history : PnlHistory) (position : PositionRecord) : Prop :=
  position.closePrice.isSome = true ∨
    ∃ fill ∈ history.fills, fill.tradedSince since = true ∧
      fill.autoTradePositionId = some position.id

def WindowWithinStint (history : PnlHistory) (config : AutoTradeConfig) (createdAt now : ℚ) :
    Prop :=
  stintStart config createdAt ≤ now - healthWindow ∧
    (closingFills (accountFills history config.accountId (now - healthWindow)) ≠ [] ∨
      (∀ position ∈ closedPositions history config.id (now - healthWindow),
          KnownSince (stintStart config createdAt) history position) ∧
        ((closedPositions history config.id (now - healthWindow)).length < healthMinTrades ∨
          ∀ position ∈ closedPositions history config.id (now - healthWindow),
            position.exitReason = "OPEN"))

/-! ## What the window reads -/

theorem filter_eq_of_filter_eq {α : Type*} {p q : α → Bool} {l l' : List α}
    (hpq : ∀ a, p a = true → q a = true) (h : l.filter q = l'.filter q) :
    l.filter p = l'.filter p := by
  have hsame : ∀ l : List α, l.filter p = (l.filter q).filter p := by
    intro l
    rw [List.filter_filter]
    refine List.filter_congr fun a _ => ?_
    cases hp : p a with
    | false => simp
    | true => simp [hpq a hp]
  rw [hsame l, hsame l', h]

section Same

variable {since cutoff : ℚ} {history history' : PnlHistory}

theorem tradedSince_mono (hle : since ≤ cutoff) {fill : LedgerFill}
    (h : fill.tradedSince cutoff = true) : fill.tradedSince since = true := by
  rw [LedgerFill.tradedSince, Option.any_eq_true] at h ⊢
  obtain ⟨tradedAt, htraded, hcutoff⟩ := h
  exact ⟨tradedAt, htraded, decide_eq_true (hle.trans (of_decide_eq_true hcutoff))⟩

theorem SameSince.accountFills (h : SameSince since history history') (hle : since ≤ cutoff)
    (accountId : ℕ) :
    accountFills history accountId cutoff = accountFills history' accountId cutoff := by
  refine congrArg orderedByTime (filter_eq_of_filter_eq (fun fill hfill => ?_) h.fills)
  simp only [Bool.and_eq_true] at hfill
  exact tradedSince_mono hle hfill.2

theorem SameSince.accountFunding (h : SameSince since history history') (hle : since ≤ cutoff)
    (accountId : ℕ) :
    accountFunding history accountId cutoff = accountFunding history' accountId cutoff := by
  funext symbol _
  refine congrArg (fun rows => (rows.map IncomeRow.income).sum)
    (filter_eq_of_filter_eq (fun row hrow => ?_) h.incomes)
  simp only [IncomeRow.isFunding, Bool.and_eq_true, Option.all_some, decide_eq_true_eq] at hrow
  exact decide_eq_true (hle.trans hrow.1.2)

/-- **The trades of the account** in a window that lies behind the time are the same. -/
theorem SameSince.accountTrades (h : SameSince since history history') (hle : since ≤ cutoff)
    (accountId : ℕ) :
    accountTradesForHealth history accountId cutoff =
      accountTradesForHealth history' accountId cutoff := by
  have hadjustment : healthAdjustment history accountId cutoff =
      healthAdjustment history' accountId cutoff := by
    rw [healthAdjustment, healthAdjustment, accountNet, accountNet, h.accountFills hle,
      h.accountFunding hle]
  rw [accountTradesForHealth, accountTradesForHealth, h.accountFills hle, hadjustment]

theorem SameSince.closedPositions (h : SameSince since history history') (hle : since ≤ cutoff)
    (configId : ℕ) :
    closedPositions history configId cutoff = closedPositions history' configId cutoff := by
  refine congrArg (List.insertionSort _)
    (filter_eq_of_filter_eq (fun position hposition => ?_) h.positions)
  simp only [Bool.and_eq_true, PositionRecord.closedSince, Option.any_eq_true] at hposition
  obtain ⟨closedAt, hclosed, hcutoff⟩ := hposition.2
  rw [PositionRecord.heldSince, hclosed]
  exact decide_eq_true (hle.trans (of_decide_eq_true hcutoff))

theorem isSome_positionTrade_iff {position : PositionRecord} :
    (positionTrade history position).isSome = true ↔
      (∃ fill ∈ history.fills, fill.autoTradePositionId = some position.id) ∨
        position.closePrice.isSome = true := by
  have hfills : positionFills history position ≠ [] ↔
      ∃ fill ∈ history.fills, fill.autoTradePositionId = some position.id := by
    rw [positionFills, orderedByTime, ne_eq, ← List.length_eq_zero_iff,
    (List.perm_insertionSort _ _).length_eq]
    simp
  rw [positionTrade, Option.isSome_map, Option.isSome_or, ← hfills, netRealizedByPosition,
    PositionRecord.grossRealizedPnl, Option.isSome_map]
  by_cases hnil : positionFills history position = [] <;> simp [hnil]

theorem KnownSince.isSome (h : SameSince since history history') {position : PositionRecord}
    (hknown : KnownSince since history position) :
    (positionTrade history' position).isSome = true := by
  refine isSome_positionTrade_iff.mpr ?_
  rcases hknown with hprice | ⟨fill, hfill, hsince, hid⟩
  · exact .inr hprice
  · have hmem : fill ∈ history'.fills.filter (·.tradedSince since) := by
      rw [← h.fills]
      exact List.mem_filter.mpr ⟨hfill, hsince⟩
    exact .inl ⟨fill, (List.mem_filter.mp hmem).1, hid⟩

theorem length_filterMap_of_isSome {α β : Type*} {f : α → Option β} {l : List α}
    (h : ∀ a ∈ l, (f a).isSome = true) : (l.filterMap f).length = l.length := by
  rw [List.length_filterMap_eq_countP, List.countP_eq_length]
  exact h

theorem length_filterMap_lt {α β : Type*} {f g : α → Option β} {l : List α} {a : α}
    (hle : ∀ a ∈ l, (f a).isSome = true → (g a).isSome = true) (ha : a ∈ l) (hf : f a = none)
    (hg : (g a).isSome = true) : (l.filterMap f).length < (l.filterMap g).length := by
  obtain ⟨front, back, rfl⟩ := List.append_of_mem ha
  obtain ⟨b, hb⟩ := Option.isSome_iff_exists.mp hg
  have hmono : ∀ l' : List α, l' ⊆ front ++ a :: back →
      (l'.filterMap f).length ≤ (l'.filterMap g).length := by
    intro l' hl'
    rw [List.length_filterMap_eq_countP, List.length_filterMap_eq_countP]
    exact List.countP_mono_left fun c hc => hle c (hl' hc)
  have hfront := hmono front (List.subset_append_left _ _)
  have hback := hmono back fun c hc => List.mem_append_right _ (List.mem_cons_of_mem _ hc)
  rw [List.filterMap_append, List.filterMap_append, List.filterMap_cons_none hf,
    List.filterMap_cons_some hb, List.length_append, List.length_append, List.length_cons]
  omega

theorem tradesForHealth_of_no_closes {config : AutoTradeConfig}
    (h : closingFills (AdviserConstructor.accountFills history config.accountId cutoff) = []) :
    tradesForHealth history config cutoff =
      (AdviserConstructor.closedPositions history config.id cutoff).filterMap
        (positionTrade history) := by
  have hnone : accountTradesForHealth history config.accountId cutoff = [] := by
    rw [accountTradesForHealth, h]
    rfl
  rw [tradesForHealth, hnone]

theorem exitReason_of_mem {positions : List PositionRecord} {trade : HealthTrade}
    (h : trade ∈ positions.filterMap (positionTrade history)) :
    ∃ position ∈ positions, trade.exitReason = position.exitReason := by
  obtain ⟨position, hposition, htrade⟩ := List.mem_filterMap.mp h
  obtain ⟨realizedPnl, -, rfl⟩ := Option.map_eq_some_iff.mp htrade
  exact ⟨position, hposition, rfl⟩

theorem first_trade_that_counts {front back : List PositionRecord} {position : PositionRecord}
    {trade : HealthTrade} (hfront : ∀ p ∈ front, p.exitReason = "OPEN")
    (hreason : position.exitReason ≠ "OPEN")
    (htrade : positionTrade history position = some trade) :
    ∃ rest, ((front ++ position :: back).filterMap (positionTrade history)).filter
      (·.exitReason ≠ "OPEN") = trade :: rest := by
  have hnone : (front.filterMap (positionTrade history)).filter (·.exitReason ≠ "OPEN") = [] := by
    refine List.filter_eq_nil_iff.mpr fun other hother => ?_
    obtain ⟨p, hp, hsame⟩ := exitReason_of_mem hother
    rw [hsame, hfront p hp]
    simp
  have hcounts : trade.exitReason ≠ "OPEN" := by
    obtain ⟨realizedPnl, -, rfl⟩ := Option.map_eq_some_iff.mp htrade
    exact hreason
  rw [List.filterMap_append, List.filterMap_cons_some htrade, List.filter_append, hnone,
    List.nil_append]
  exact ⟨_, List.filter_cons_of_pos (by simpa using hcounts)⟩

end Same

/-! ## The window lies within the stint -/

theorem health_of_all_open {trades : List HealthTrade} {initialBalance : ℚ}
    (h : ∀ trade ∈ trades, trade.exitReason = "OPEN") :
    (healthFromTrades trades initialBalance).winRatePct = 0 ∧
      (healthFromTrades trades initialBalance).maxDdPct =
        if trades.length < healthMinTrades then 0
        else calculateEquityMaxDrawdownPct [initialBalance] := by
  have hrows : closedRows (trades.map HealthTrade.toTradeRow) = [] := by
    refine List.filter_eq_nil_iff.mpr fun row hrow => ?_
    obtain ⟨trade, htrade, rfl⟩ := List.mem_map.mp hrow
    simp [TradeRow.isOpen, HealthTrade.toTradeRow, h trade htrade]
  have hwin : (calculatePerformanceMetrics (trades.map HealthTrade.toTradeRow)).winRate = 0 := by
    rw [calculatePerformanceMetrics, collectValidRValues, hrows]
    rfl
  have hcurve : buildEquityCurve trades initialBalance = [initialBalance] := by
    have hnone : trades.filter (·.exitReason ≠ "OPEN") = [] :=
      List.filter_eq_nil_iff.mpr fun trade htrade => by simp [h trade htrade]
    rw [buildEquityCurve, hnone]
    rfl
  by_cases hfew : trades.length < healthMinTrades
  · simp only [healthFromTrades, if_pos hfew, and_self]
  · simp only [healthFromTrades, if_neg hfew, hwin, hcurve, and_self]

/-- **Within the stint** the decision is earned. -/
theorem earnedAt_of_windowWithinStint {history : PnlHistory} {config : AutoTradeConfig}
    {createdAt now : ℚ} (risk : Option RiskConfig)
    (h : WindowWithinStint history config createdAt now) :
    EarnedAt history config createdAt risk now := by
  obtain ⟨hle, hcases⟩ := h
  intro history' hsame
  refine Prod.ext ?_ rfl
  show evaluatePromotionGate (computeStrategyHealth history' config now) risk _ =
    evaluatePromotionGate (computeStrategyHealth history config now) risk _
  rw [computeStrategyHealth, computeStrategyHealth]
  have hfills := hsame.accountFills hle config.accountId
  by_cases hclose : closingFills (accountFills history config.accountId (now - healthWindow)) = []
  · -- the closed positions are judged, and only their number can matter
    obtain ⟨hknown, hcount⟩ := hcases.resolve_left (not_not.mpr hclose)
    have hpositions := hsame.closedPositions hle config.id
    rw [tradesForHealth_of_no_closes hclose, tradesForHealth_of_no_closes (hfills ▸ hclose),
      ← hpositions]
    have hself : SameSince (stintStart config createdAt) history history := ⟨rfl, rfl, rfl⟩
    have hlength := length_filterMap_of_isSome fun p hp => (hknown p hp).isSome hself
    have hlength' := length_filterMap_of_isSome fun p hp => (hknown p hp).isSome hsame
    by_cases hfew : (closedPositions history config.id (now - healthWindow)).length <
        healthMinTrades
    · exact evaluatePromotionGate_of_few (hlength'.symm ▸ hfew) (hlength'.trans hlength.symm)
    · have hopen := hcount.resolve_left hfew
      have hall : ∀ history, ∀ trade ∈ (closedPositions history' config.id
          (now - healthWindow)).filterMap (positionTrade history), trade.exitReason = "OPEN" := by
        intro history trade htrade
        obtain ⟨position, hposition, hreason⟩ := exitReason_of_mem htrade
        exact hreason.trans (hopen position (hpositions ▸ hposition))
      rw [hpositions] at hlength hlength' hfew ⊢
      have hhealth := @health_of_all_open _ config.positionSizeUsdt (hall history)
      have hhealth' := @health_of_all_open _ config.positionSizeUsdt (hall history')
      rw [hlength] at hhealth
      rw [hlength'] at hhealth'
      refine evaluatePromotionGate_congr ?_ (hhealth'.1.trans hhealth.1.symm)
        (hhealth'.2.trans hhealth.2.symm) ?_
      · rw [sampleSize_healthFromTrades, sampleSize_healthFromTrades, hlength, hlength']
      · simp only [healthFromTrades, hlength, hlength', if_neg hfew]
  · -- the account's own trades are judged
    have htrades := hsame.accountTrades hle config.accountId
    have hsome : accountTradesForHealth history config.accountId (now - healthWindow) ≠ [] :=
      fun hnil => hclose (List.map_eq_nil_iff.mp hnil)
    have hsame' : tradesForHealth history' config (now - healthWindow) =
        tradesForHealth history config (now - healthWindow) := by
      rw [tradesForHealth, tradesForHealth, ← htrades]
      cases hall : accountTradesForHealth history config.accountId (now - healthWindow) with
      | nil => exact absurd hall hsome
      | cons trade rest => rfl
    rw [hsame']

/-! ## Another past -/

/-- A fill with a booked figure and without a fee. -/
def bookedFill (accountId : ℕ) (positionId : Option ℕ) (tradedAt realizedPnl : ℚ) : LedgerFill where
  id := ""
  tradedAt := some tradedAt
  side := "sell"
  amount := 1
  price := 1
  feeCost := 0
  feeCurrency := none
  realizedPnl := some realizedPnl
  accountId := accountId
  symbol := ""
  autoTradePositionId := positionId

/-- The history with another past: the fills from before the time are replaced. -/
def withPast (since : ℚ) (past : List LedgerFill) (history : PnlHistory) : PnlHistory :=
  { history with fills := past ++ history.fills.filter (·.tradedSince since) }

section Past

variable {since cutoff : ℚ} {history : PnlHistory} {past : List LedgerFill}

theorem sameSince_withPast (hpast : ∀ fill ∈ past, fill.tradedSince since = false) :
    SameSince since history (withPast since past history) where
  fills := by
    have hnone : past.filter (·.tradedSince since) = [] :=
      List.filter_eq_nil_iff.mpr fun fill hfill => by simp [hpast fill hfill]
    rw [withPast, List.filter_append, hnone, List.nil_append, List.filter_filter]
    simp only [Bool.and_self]
  incomes := rfl
  positions := rfl

theorem tradedSince_bookedFill {accountId : ℕ} {positionId : Option ℕ} {tradedAt realizedPnl : ℚ}
    (h : tradedAt < since) :
    (bookedFill accountId positionId tradedAt realizedPnl).tradedSince since = false := by
  simp [LedgerFill.tradedSince, bookedFill, h]

theorem length_closingFills (history : PnlHistory) (accountId : ℕ) (cutoff : ℚ) :
    (closingFills (accountFills history accountId cutoff)).length =
      (history.fills.filter fun fill =>
        fill.isClose && (fill.accountId = accountId && fill.tradedSince cutoff)).length := by
  rw [closingFills, accountFills, orderedByTime,
    ((List.perm_insertionSort _ _).filter _).length_eq, List.filter_filter]

theorem length_tradesForHealth {config : AutoTradeConfig}
    (h : closingFills (accountFills history config.accountId cutoff) ≠ []) :
    (tradesForHealth history config cutoff).length =
      (closingFills (accountFills history config.accountId cutoff)).length := by
  have htrades : tradesForHealth history config cutoff =
      accountTradesForHealth history config.accountId cutoff := by
    rw [tradesForHealth]
    split
    · next hnil => exact absurd (List.map_eq_nil_iff.mp hnil) h
    · rfl
  rw [htrades, accountTradesForHealth, List.length_map]

end Past

theorem filter_orderedInsert_of_neg {α : Type*} {r : α → α → Prop} [DecidableRel r] {p : α → Bool}
    {a : α} (ha : ¬p a = true) (l : List α) : (l.orderedInsert r a).filter p = l.filter p := by
  rw [List.orderedInsert_eq_take_drop, List.filter_append, List.filter_cons_of_neg ha,
    ← List.filter_append, List.takeWhile_append_dropWhile]

theorem netRealizedByPosition_withPast (history : PnlHistory) (position : PositionRecord)
    (since : ℚ) (accountId : ℕ) :
    ∃ rest, ∀ realizedPnl,
      netRealizedByPosition (withPast since
        [bookedFill accountId (some position.id) (since - 1) realizedPnl] history) position =
          some (realizedPnl + rest) := by
  let later := (history.fills.filter (·.tradedSince since)).filter
    (·.autoTradePositionId = some position.id)
  let funding := sumFunding history.incomes position.accountId position.symbol
    (some position.openedAt) position.closedAt
  refine ⟨taggedPnl (orderedByTime later) + lotsRealized position.symbol (orderedByTime later) -
    taggedFees position.symbol (orderedByTime later) + funding, fun realizedPnl => ?_⟩
  have hlater : ∀ fill ∈ orderedByTime later, since - 1 ≤ fill.tradedAt.getD 0 := by
    intro fill hfill
    have hmem := (List.perm_insertionSort _ _).mem_iff.mp hfill
    have hsince := (List.mem_filter.mp (List.mem_filter.mp hmem).1).2
    rw [LedgerFill.tradedSince, Option.any_eq_true] at hsince
    obtain ⟨tradedAt, htraded, hle⟩ := hsince
    rw [htraded]
    exact (sub_one_lt since).le.trans (of_decide_eq_true hle)
  have hfills : positionFills (withPast since
      [bookedFill accountId (some position.id) (since - 1) realizedPnl] history) position =
      bookedFill accountId (some position.id) (since - 1) realizedPnl :: orderedByTime later := by
    rw [positionFills, withPast, List.filter_append,
    List.filter_cons_of_pos (by simp [bookedFill]), List.filter_nil, orderedByTime]
    have hfirst := hlater
    rw [orderedByTime] at hfirst ⊢
    show List.orderedInsert _ _ (later.insertionSort _) = _ :: later.insertionSort _
    cases hsorted : later.insertionSort fun fill fill' =>
        fill.tradedAt.getD 0 ≤ fill'.tradedAt.getD 0 with
    | nil => rfl
    | cons next others =>
      rw [hsorted] at hfirst
      rw [List.orderedInsert_cons_of_le]
      exact hfirst next List.mem_cons_self
  have hlots : ∀ fills, lotsRealized position.symbol
      (bookedFill accountId (some position.id) (since - 1) realizedPnl :: fills) =
        lotsRealized position.symbol fills := by
    intro fills
    rw [lotsRealized, lotsRealized, List.map_cons, List.insertionSort_cons,
      filter_orderedInsert_of_neg (by simp [bookedFill])]
  rw [netRealizedByPosition, hfills, if_neg (List.cons_ne_nil _ _), netRealized_eq, hlots]
  have htagged : taggedPnl (bookedFill accountId (some position.id) (since - 1) realizedPnl ::
      orderedByTime later) = realizedPnl + taggedPnl (orderedByTime later) := by
    simp [taggedPnl, bookedFill]
  have hfees : taggedFees position.symbol (bookedFill accountId (some position.id) (since - 1)
      realizedPnl :: orderedByTime later) =
        taggedFees position.symbol (orderedByTime later) := by
    exact zero_add _
  rw [htagged, hfees]
  congr 1
  simp only [withPast]
  ring

section Necessary

variable {history : PnlHistory} {config : AutoTradeConfig} {createdAt now : ℚ}
  {risk : Option RiskConfig}

theorem EarnedAt.health_eq (h : EarnedAt history config createdAt risk now)
    {past past' : List LedgerFill}
    (hpast : ∀ fill ∈ past, fill.tradedSince (stintStart config createdAt) = false)
    (hpast' : ∀ fill ∈ past', fill.tradedSince (stintStart config createdAt) = false) :
    let one := computeStrategyHealth
      (withPast (stintStart config createdAt) past history) config now
    let other := computeStrategyHealth
      (withPast (stintStart config createdAt) past' history) config now
    one.sampleSize = other.sampleSize ∧ one.maxDdPct = other.maxDdPct := by
  intro one other
  have hsame : evaluatePromotionGate one risk (sandboxDays config createdAt now) =
      evaluatePromotionGate other risk (sandboxDays config createdAt now) :=
    congrArg Prod.fst ((h _ (sameSince_withPast hpast)).trans
      (h _ (sameSince_withPast hpast')).symm)
  exact ⟨sampleSize_of_decision hsame, maxDdPct_of_decision hsame⟩

/-- **The window** lies within the stint: otherwise a closing fill from before the stint is one
trade more. -/
theorem EarnedAt.window (h : EarnedAt history config createdAt risk now) :
    stintStart config createdAt ≤ now - healthWindow := by
  by_contra hlate
  rw [not_le] at hlate
  have hold : ∀ k, ∀ fill ∈ List.replicate k
      (bookedFill config.accountId none (now - healthWindow) 1),
      fill.tradedSince (stintStart config createdAt) = false := by
    intro k fill hfill
    rw [List.eq_of_mem_replicate hfill]
    exact tradedSince_bookedFill hlate
  -- with `k` closing fills at the beginning of the window
  have hsample : ∀ k, 0 < k → (computeStrategyHealth (withPast (stintStart config createdAt)
      (List.replicate k (bookedFill config.accountId none (now - healthWindow) 1)) history)
        config now).sampleSize =
      k + ((history.fills.filter (·.tradedSince (stintStart config createdAt))).filter fun fill =>
        fill.isClose && (fill.accountId = config.accountId &&
          fill.tradedSince (now - healthWindow))).length := by
    intro k hk
    have hcounts : ((bookedFill config.accountId none (now - healthWindow) 1).isClose &&
        ((bookedFill config.accountId none (now - healthWindow) 1).accountId = config.accountId &&
          (bookedFill config.accountId none (now - healthWindow) 1).tradedSince
            (now - healthWindow))) = true := by
      simp [bookedFill, LedgerFill.isClose, LedgerFill.tradedSince]
    have hlength := length_closingFills (withPast (stintStart config createdAt)
      (List.replicate k (bookedFill config.accountId none (now - healthWindow) 1)) history)
        config.accountId (now - healthWindow)
    rw [withPast, List.filter_append, List.length_append, List.filter_replicate,
      if_pos hcounts, List.length_replicate] at hlength
    have hsome : closingFills (accountFills (withPast (stintStart config createdAt)
        (List.replicate k (bookedFill config.accountId none (now - healthWindow) 1)) history)
          config.accountId (now - healthWindow)) ≠ [] := by
      refine List.ne_nil_of_length_pos ?_
      rw [withPast]
      omega
    rw [computeStrategyHealth, sampleSize_healthFromTrades, length_tradesForHealth hsome]
    exact hlength
  have hsizes := (h.health_eq (hold 1) (hold 2)).1
  simp only [hsample 1 one_pos, hsample 2 two_pos] at hsizes
  omega

theorem tradesForHealth_withPast {past : List LedgerFill}
    (hle : stintStart config createdAt ≤ now - healthWindow)
    (hpast : ∀ fill ∈ past, fill.tradedSince (stintStart config createdAt) = false)
    (hclose : closingFills (accountFills history config.accountId (now - healthWindow)) = []) :
    tradesForHealth (withPast (stintStart config createdAt) past history) config
        (now - healthWindow) =
      (closedPositions history config.id (now - healthWindow)).filterMap
        (positionTrade (withPast (stintStart config createdAt) past history)) := by
  have hsame := @sameSince_withPast _ history _ hpast
  rw [tradesForHealth_of_no_closes ((hsame.accountFills hle config.accountId) ▸ hclose),
    ← hsame.closedPositions hle config.id]

/-- **Each profit** is known from what has been executed since: otherwise an old fill of the
position is one trade more. -/
theorem EarnedAt.known (h : EarnedAt history config createdAt risk now)
    (hclose : closingFills (accountFills history config.accountId (now - healthWindow)) = [])
    {position : PositionRecord}
    (hposition : position ∈ closedPositions history config.id (now - healthWindow)) :
    KnownSince (stintStart config createdAt) history position := by
  by_contra hunknown
  rw [KnownSince, not_or] at hunknown
  obtain ⟨hprice, hfills⟩ := hunknown
  have hle := h.window
  have hold : ∀ fill ∈ [bookedFill config.accountId (some position.id)
      (stintStart config createdAt - 1) 0],
      fill.tradedSince (stintStart config createdAt) = false := by
    intro fill hfill
    rw [List.mem_singleton.mp hfill]
    exact tradedSince_bookedFill (sub_one_lt _)
  have hnone : ∀ fill ∈ ([] : List LedgerFill),
      fill.tradedSince (stintStart config createdAt) = false := fun fill hfill =>
    absurd hfill List.not_mem_nil
  have hsizes := (h.health_eq hnone hold).1
  rw [computeStrategyHealth, computeStrategyHealth, sampleSize_healthFromTrades,
    sampleSize_healthFromTrades, tradesForHealth_withPast hle hnone hclose,
    tradesForHealth_withPast hle hold hclose] at hsizes
  refine absurd hsizes (ne_of_lt ?_)
  refine length_filterMap_lt (fun q _ hq => ?_) hposition ?_ ?_
  · -- what is known without the old fill is known with it
    rw [isSome_positionTrade_iff] at hq ⊢
    refine hq.imp_left fun ⟨fill, hfill, hid⟩ => ⟨fill, ?_, hid⟩
    exact List.mem_append_right _ hfill
  · rw [← Option.not_isSome_iff_eq_none, isSome_positionTrade_iff]
    rintro (⟨fill, hfill, hid⟩ | hsome)
    · obtain ⟨hfill, hsince⟩ := List.mem_filter.mp hfill
      exact hfills ⟨fill, hfill, hsince, hid⟩
    · exact hprice hsome
  · refine isSome_positionTrade_iff.mpr (.inl ⟨_, List.mem_append_left _ List.mem_cons_self, rfl⟩)

/-- **The positions** are too few, or none counts: otherwise an old loss of the first one that does
deepens the drawdown. -/
theorem EarnedAt.few (h : EarnedAt history config createdAt risk now)
    (hsize : 0 < config.positionSizeUsdt)
    (hclose : closingFills (accountFills history config.accountId (now - healthWindow)) = []) :
    (closedPositions history config.id (now - healthWindow)).length < healthMinTrades ∨
      ∀ position ∈ closedPositions history config.id (now - healthWindow),
        position.exitReason = "OPEN" := by
  by_contra hmany
  rw [not_or, not_lt] at hmany
  obtain ⟨hmany, hcounts⟩ := hmany
  have hle := h.window
  -- the first position that counts
  obtain ⟨position, hfind⟩ : ∃ position,
      (closedPositions history config.id (now - healthWindow)).find?
        (fun position => decide (position.exitReason ≠ "OPEN")) = some position := by
    rw [← Option.isSome_iff_exists, List.find?_isSome]
    push Not at hcounts
    obtain ⟨position, hposition, hreason⟩ := hcounts
    exact ⟨position, hposition, decide_eq_true hreason⟩
  obtain ⟨hreason, front, back, hsplit, hfront⟩ := List.find?_eq_some_iff_append.mp hfind
  have hold : ∀ realizedPnl, ∀ fill ∈ [bookedFill config.accountId (some position.id)
      (stintStart config createdAt - 1) realizedPnl],
      fill.tradedSince (stintStart config createdAt) = false := by
    intro realizedPnl fill hfill
    rw [List.mem_singleton.mp hfill]
    exact tradedSince_bookedFill (sub_one_lt _)
  obtain ⟨rest, hnet⟩ := netRealizedByPosition_withPast history position
    (stintStart config createdAt) config.accountId
  -- the drawdown with the old loss
  have hdd : ∀ realizedPnl, realizedPnl + rest ≤ 0 →
      -(realizedPnl + rest) / config.positionSizeUsdt * 100 ≤
        (computeStrategyHealth (withPast (stintStart config createdAt)
          [bookedFill config.accountId (some position.id) (stintStart config createdAt - 1)
            realizedPnl] history) config now).maxDdPct := by
    intro realizedPnl hloss
    have htrades := tradesForHealth_withPast hle (hold realizedPnl) hclose
    have hsame := @sameSince_withPast _ history _ (hold realizedPnl)
    have hlength := length_filterMap_of_isSome fun p hp => (h.known hclose hp).isSome hsame
    have htrade : positionTrade (withPast (stintStart config createdAt)
        [bookedFill config.accountId (some position.id) (stintStart config createdAt - 1)
          realizedPnl] history) position =
        some (positionToTrade position (realizedPnl + rest)) := by
      rw [positionTrade, hnet realizedPnl]
      rfl
    rw [computeStrategyHealth, htrades, healthFromTrades]
    rw [if_neg (by rw [hlength]; exact not_lt.mpr hmany)]
    obtain ⟨others, hfirst⟩ := @first_trade_that_counts _ front back position _
      (fun p hp => by simpa using hfront p hp) (of_decide_eq_true hreason) htrade
    rw [hsplit]
    exact (maxDdPct_ge_of_first_loss hfirst hsize hloss).trans_eq rfl
  -- the drawdown behind no loss, and a loss that is deeper
  let drawdown := (computeStrategyHealth (withPast (stintStart config createdAt)
    [bookedFill config.accountId (some position.id) (stintStart config createdAt - 1) 0] history)
      config now).maxDdPct
  let loss := -(config.positionSizeUsdt * (|drawdown| / 100 + 1))
  have hloss : loss ≤ 0 := by
    have hnonneg : 0 ≤ config.positionSizeUsdt * (|drawdown| / 100 + 1) := by positivity
    exact neg_nonpos.mpr hnonneg
  have hdeep := hdd (loss - rest) (by rw [sub_add_cancel]; exact hloss)
  rw [sub_add_cancel, (h.health_eq (hold (loss - rest)) (hold 0)).2] at hdeep
  have hvalue : -loss / config.positionSizeUsdt * 100 = |drawdown| + 100 := by
    simp only [loss]
    field_simp
  have habs := le_abs_self drawdown
  linarith

/-- **The decision is earned** in the present stint exactly if the thirty days lie within it, and
either the account has a closing fill in them, or each closed position has a profit that is known
from what has been executed since, and they are too few or none counts. -/
theorem promotion_earned_iff (history : PnlHistory) (config : AutoTradeConfig)
    (hsize : 0 < config.positionSizeUsdt) (createdAt : ℚ) (risk : Option RiskConfig) (now : ℚ) :
    EarnedAt history config createdAt risk now ↔
      WindowWithinStint history config createdAt now := by
  constructor
  · intro h
    refine ⟨h.window, ?_⟩
    by_cases hclose : closingFills (accountFills history config.accountId (now - healthWindow)) = []
    · exact .inr ⟨fun _ hposition => h.known hclose hposition, h.few hsize hclose⟩
    · exact .inl hclose
  · exact earnedAt_of_windowWithinStint risk

end Necessary

/-! ## Demoted yesterday -/

/-- A closing fill of the account 1 with a profit of 10. -/
def winningFill (tradedAt : ℚ) : LedgerFill :=
  { bookedFill 1 none tradedAt 10 with symbol := "BTC/USDT:USDT" }

/-- A strategy on the account 1 that entered the sandbox on the day given. -/
def sandboxedOn (day : ℕ) : AutoTradeConfig :=
  { accountId := 1, sandboxEnteredAt := some (day * 86400) }

/-- Forty days after it entered the sandbox, and with a trade of the last ten days, the decision on
a strategy is earned. -/
theorem earnedAt_in_long_stint :
    EarnedAt { fills := [winningFill (30 * 86400)] } (sandboxedOn 0) 0 none (40 * 86400) := by
  refine (promotion_earned_iff _ (sandboxedOn 0) (by norm_num [sandboxedOn]) 0 none _).mpr
    ⟨?_, .inl ?_⟩
  · norm_num [stintStart, sandboxedOn, healthWindow]
  · decide +kernel

/-- **A strategy demoted yesterday** is promoted for the trades of its live time: its account won
ten trades ten days ago, the strategy asks for ten trades and a day, and without these trades it
would stay. -/
theorem demoted_yesterday :
    ¬ ∀ (history history' : PnlHistory) (config : AutoTradeConfig) (createdAt : ℚ)
      (risk : Option RiskConfig) (now : ℚ), config.lifecycleStage = .sandbox →
        0 < config.positionSizeUsdt → SameSince (stintStart config createdAt) history history' →
          (evaluatePromotion history config createdAt risk now).1.canPromote =
            (evaluatePromotion history' config createdAt risk now).1.canPromote := by
  intro hall
  have hsame : SameSince (stintStart (sandboxedOn 39) 0) {}
      { fills := List.replicate 10 (winningFill (30 * 86400)) } :=
    ⟨by decide +kernel, rfl, rfl⟩
  have hpromoted : (evaluatePromotion { fills := List.replicate 10 (winningFill (30 * 86400)) }
      (sandboxedOn 39) 0 (some { promoteMinTrades := some 10, promoteMinSandboxDays := some 1 })
        (40 * 86400)).1.canPromote = true := by
    decide +kernel
  have hequal := hall {} { fills := List.replicate 10 (winningFill (30 * 86400)) } (sandboxedOn 39)
    0 (some { promoteMinTrades := some 10, promoteMinSandboxDays := some 1 }) (40 * 86400) rfl
    (by norm_num [sandboxedOn]) hsame
  rw [hpromoted] at hequal
  exact Bool.noConfusion hequal

end AdviserConstructor
