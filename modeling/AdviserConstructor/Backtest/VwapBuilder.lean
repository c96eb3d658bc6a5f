import AdviserConstructor.Backtest.AiForecast
import AdviserConstructor.Backtest.StopLogic
import AdviserConstructor.Library.JumpLoop

/-!
# The VWAP builder

`app/services/backtesting/vwap_builder.py`: on every bar the enabled indicators are asked for either
side, a trade is entered at the close of the bar, followed to the bar on which it reaches its stop
or its target, and the loop goes on behind that bar and the cooldown.

The indicators are given as rows of values, one for each bar.

* `entryAt_congr`: what is entered on a bar depends on no later bar.
* `simulateTrades_noLookahead`: neither does any trade that is closed by then, nor what the overlay
  says of a bar.
-/

namespace AdviserConstructor

namespace Backtest

open JumpLoop

/-! ## Indicators -/

/-- `VWAP_ALLOWED_INDICATORS`. -/
inductive Indicator where
  | emaFast | emaSlow | vwap | rsi | stochRsi | macd | bollingerBands | bbWidth | atr | adx
  | volumeSma | ichimoku | supertrend | pivotPoints | cci | williamsR
  deriving DecidableEq, Repr

/-- `VWAP_PRESETS`. -/
inductive Preset where
  | custom | trend | range | breakdown | advancedIchimoku | pivotsCci
  deriving DecidableEq, Repr

/-- `apply_preset`. -/
def applyPreset : Preset → List Indicator
  | .custom => []
  | .trend => [.emaSlow, .emaFast, .vwap, .macd, .adx, .atr]
  | .range => [.bollingerBands, .bbWidth, .rsi, .stochRsi, .atr]
  | .breakdown => [.vwap, .macd, .adx, .atr, .volumeSma]
  | .advancedIchimoku => [.ichimoku, .supertrend, .adx, .volumeSma, .atr]
  | .pivotsCci => [.pivotPoints, .cci, .williamsR, .rsi, .volumeSma]

/-- `resolve_enabled_indicators`. -/
def resolveEnabledIndicators (enabled : List Indicator) (preset : Preset) : List Indicator :=
  if enabled ≠ [] then enabled else applyPreset preset

/-- The indicator values of a bar. -/
structure IndicatorRow where
  emaFast : Num := none
  emaSlow : Num := none
  vwap : Num := none
  rsi : Num := none
  stochK : Num := none
  stochD : Num := none
  macdHist : Num := none
  adx : Num := none
  atr : Num := none
  bbLow : Num := none
  bbMid : Num := none
  bbHigh : Num := none
  bbWidth : Num := none
  volSma : Num := none
  ichimokuConversion : Num := none
  ichimokuBase : Num := none
  ichimokuLeadA : Num := none
  ichimokuLeadB : Num := none
  supertrendUpper : Num := none
  supertrendLower : Num := none
  pivotS1 : Num := none
  pivotR1 : Num := none
  cci : Num := none
  willr : Num := none
  deriving DecidableEq, Repr

abbrev Indicators : Type := ℕ → IndicatorRow

def Indicators.atrSeries (ind : Indicators) (i : ℕ) : Num := (ind i).atr

/-- `compute_indicator_snapshot`. -/
structure Snapshot extends IndicatorRow where
  close : Num
  vol : Num
  deriving DecidableEq, Repr

/-- The snapshot of bar `i`. -/
def snapshotAt (df : Frame) (ind : Indicators) (i : ℕ) : Snapshot where
  toIndicatorRow := ind i
  close := some (df.bar i).close
  vol := some (df.bar i).volume

/-! ## Conditions -/

/-- The question that an indicator is asked, and the reason that is given if the answer is no. -/
structure Check where
  indicator : Indicator
  holds : Bool
  fails : String

def Check.reason (c : Check) : String := if c.holds then "ok" else c.fails

/-- The checks of a long entry, in the order in which they are made. -/
def longChecks (snap : Snapshot) (regime : Regime) : List Check :=
  [⟨.emaSlow, snap.emaSlow.lt snap.close, "FAIL EMA50"⟩,
    ⟨.emaFast, snap.emaFast.lt snap.close, "FAIL EMA21"⟩,
    ⟨.vwap, snap.vwap.lt snap.close, "FAIL VWAP"⟩,
    ⟨.macd, Num.lt (some 0) snap.macdHist, "FAIL MACD"⟩,
    ⟨.rsi, if regime = .flat then snap.rsi.lt (some 30) else Num.lt (some 50) snap.rsi, "FAIL RSI"⟩,
    ⟨.stochRsi, snap.stochD.lt snap.stochK, "FAIL STOCH"⟩,
    ⟨.bollingerBands, snap.close.lt snap.bbLow || snap.bbMid.lt snap.close, "FAIL BB"⟩,
    ⟨.volumeSma, snap.volSma.lt snap.vol, "FAIL VOL"⟩,
    ⟨.ichimoku, (snap.ichimokuLeadA.max snap.ichimokuLeadB).lt snap.close, "FAIL ICHIMOKU"⟩,
    ⟨.supertrend, snap.supertrendUpper.lt snap.close, "FAIL SUPER"⟩,
    ⟨.pivotPoints, snap.pivotS1.lt snap.close, "FAIL PIVOT"⟩,
    ⟨.cci, snap.cci.lt (some (-100)), "FAIL CCI"⟩,
    ⟨.williamsR, snap.willr.lt (some (-80)), "FAIL WILLR"⟩]

/-- The checks of a short entry, in the order in which they are made. -/
def shortChecks (snap : Snapshot) (regime : Regime) : List Check :=
  [⟨.emaSlow, snap.close.lt snap.emaSlow, "FAIL EMA50"⟩,
    ⟨.emaFast, snap.close.lt snap.emaFast, "FAIL EMA21"⟩,
    ⟨.vwap, snap.close.lt snap.vwap, "FAIL VWAP"⟩,
    ⟨.macd, snap.macdHist.lt (some 0), "FAIL MACD"⟩,
    ⟨.rsi, if regime = .flat then Num.lt (some 70) snap.rsi else snap.rsi.lt (some 50), "FAIL RSI"⟩,
    ⟨.stochRsi, snap.stochK.lt snap.stochD, "FAIL STOCH"⟩,
    ⟨.bollingerBands, snap.bbHigh.lt snap.close || snap.close.lt snap.bbMid, "FAIL BB"⟩,
    ⟨.volumeSma, snap.volSma.lt snap.vol, "FAIL VOL"⟩,
    ⟨.ichimoku, snap.close.lt (snap.ichimokuLeadA.min snap.ichimokuLeadB), "FAIL ICHIMOKU"⟩,
    ⟨.supertrend, snap.close.lt snap.supertrendLower, "FAIL SUPER"⟩,
    ⟨.pivotPoints, snap.close.lt snap.pivotR1, "FAIL PIVOT"⟩,
    ⟨.cci, Num.lt (some 100) snap.cci, "FAIL CCI"⟩,
    ⟨.williamsR, Num.lt (some (-20)) snap.willr, "FAIL WILLR"⟩]

/-- The reasons of the checks of the enabled indicators; two of them have to pass. -/
def askEnabled (checks : List Check) (enabled : List Indicator) : Bool × List String :=
  let reasons := (checks.filter fun c => c.indicator ∈ enabled).map Check.reason
  (decide (2 ≤ reasons.count "ok"), reasons)

/-- `long_conditions`. -/
def longConditions (snap : Snapshot) (enabled : List Indicator) (regime : Regime) :
    Bool × List String :=
  if regime = .bear then (false, ["Regime=Bear blocks LONG"])
  else askEnabled (longChecks snap regime) enabled

/-- `short_conditions`. -/
def shortConditions (snap : Snapshot) (enabled : List Indicator) (regime : Regime) :
    Bool × List String :=
  if regime = .bull then (false, ["Regime=Bull blocks SHORT"])
  else askEnabled (shortChecks snap regime) enabled

/-! ## Entries -/

/-- The parameters of `simulate_trades`, with the defaults of `run_vwap_backtest`. -/
structure SimParams extends StopParams where
  rr : ℚ := 2
  cooldownBars : ℤ := 5
  riskPerTrade : ℚ := 1
  maxPositions : ℤ := 5
  accountBalance : ℚ := 1000
  maxPositionPct : ℚ := 100

/-- The sizer of a simulation, whose count of open trades stays 0. -/
def SimParams.sizer (p : SimParams) : PositionSizer where
  accountBalance := p.accountBalance
  riskPerTrade := p.riskPerTrade
  maxOpenPositions := p.maxPositions
  maxPositionPct := p.maxPositionPct

/-- The side of an entry, if either qualifies. -/
def chooseSide (longOk shortOk : Bool) (regime : Regime) : Option Side :=
  if !longOk && !shortOk then none
  else if longOk && (!shortOk || decide (regime ≠ .bear)) then some .long
  else some .short

def targetFor (side : Side) (entry sl rr : ℚ) : ℚ :=
  match side with
  | .long => entry + (entry - sl) * rr
  | .short => entry - (sl - entry) * rr

/-- What is fixed of a trade on the bar of its entry. -/
structure Entry where
  side : Side
  entry : ℚ
  sl : ℚ
  tp : ℚ
  atr : ℚ
  regime : Regime
  reasons : List String
  snapshot : Snapshot
  slExplain : StopExplain
  size : PositionSize
  deriving DecidableEq, Repr

/-- The body of the loop of `simulate_trades` up to the sizing, in the active regime. -/
def entryAt (df : Frame) (ind : Indicators) (enabled : List Indicator) (p : SimParams)
    (regime : Regime) (i : ℕ) : Option Entry :=
  let snap := snapshotAt df ind i
  match snap.atr with
  | none => none
  | some atr =>
      if atr ≤ 0 then none
      else
        let long := longConditions snap enabled regime
        let short := shortConditions snap enabled regime
        match chooseSide long.1 short.1 regime with
        | none => none
        | some side =>
            let entry := (df.bar i).close
            let stop := stopFor df ind.atrSeries p.toStopParams i side entry atr
            match p.sizer.calculatePositionSize entry (some stop.1) with
            | .allowed (some size) =>
                some
                  { side := side
                    entry := entry
                    sl := stop.1
                    tp := targetFor side entry stop.1 p.rr
                    atr := atr
                    regime := regime
                    reasons := match side with
                      | .long => long.2
                      | .short => short.2
                    snapshot := snap
                    slExplain := stop.2
                    size := size }
            | _ => none

/-! ## Exits -/

/-- Why a trade ends. -/
inductive ExitReason where
  | stop | take
  | openAtEnd
  deriving DecidableEq, Repr

/-- Where a trade ends. -/
structure Exit where
  exitI : ℕ
  price : ℚ
  reason : ExitReason
  deriving DecidableEq, Repr

/-- How bar `j` ends a trade, if it does: the stop is looked at first. -/
def exitOn (e : Entry) (j : ℕ) (bar : Bar) : Option Exit :=
  match e.side with
  | .long =>
      if bar.low ≤ e.sl then some ⟨j, e.sl, .stop⟩
      else if e.tp ≤ bar.high then some ⟨j, e.tp, .take⟩
      else none
  | .short =>
      if e.sl ≤ bar.high then some ⟨j, e.sl, .stop⟩
      else if bar.low ≤ e.tp then some ⟨j, e.tp, .take⟩
      else none

/-- The first bar behind `i` that ends a trade. -/
def firstExit (df : Frame) (e : Entry) (i : ℕ) : Option Exit :=
  (List.range' (i + 1) (df.length - (i + 1))).findSome? fun j => exitOn e j (df.bar j)

/-- Where a trade that is entered on bar `i` ends. -/
def exitFor (df : Frame) (e : Entry) (i : ℕ) : Exit :=
  (firstExit df e i).getD ⟨df.length - 1, (df.bar (df.length - 1)).close, .openAtEnd⟩

/-! ## Trades -/

/-- What a trade says of the forecast that was applied to its bar. -/
structure AiTags where
  baseRegime : Regime
  regime : Regime
  regimeChanged : Bool
  signalTime : Option ℤ
  horizonEndTime : Option ℤ
  deriving DecidableEq, Repr

/-- A trade of `simulate_trades`. -/
structure VwapTrade extends Entry where
  entryI : ℕ
  exitI : ℕ
  entryTime : ℤ
  exitTime : ℤ
  exit : ℚ
  exitReason : ExitReason
  rrTarget : ℚ
  atrMult : ℚ
  stopMode : StopMode
  rReal : Num
  pnlUsdt : ℚ
  pnlPct : ℚ
  ai : Option AiTags
  deriving DecidableEq, Repr

def unitPnl (side : Side) (entry exit : ℚ) : ℚ :=
  match side with
  | .long => exit - entry
  | .short => entry - exit

/-- The trade of an entry on bar `i`. -/
def tradeOf (df : Frame) (p : SimParams) (i : ℕ) (e : Entry) (ai : Option AiTags) : VwapTrade :=
  let exit := exitFor df e i
  let risk := |e.entry - e.sl|
  let pnl := unitPnl e.side e.entry exit.price
  { e with
    entryI := i
    exitI := exit.exitI
    entryTime := (df.bar i).time
    exitTime := (df.bar exit.exitI).time
    exit := exit.price
    exitReason := exit.reason
    rrTarget := p.rr
    atrMult := p.atrMult
    stopMode := p.stopMode
    rReal := if 0 < risk then some (pnl / risk) else none
    pnlUsdt := pnl * e.size.quantity
    pnlPct := if 0 < e.entry then pnl / e.entry * 100 else 0
    ai := ai }

instance : Inhabited OverlayBar := ⟨⟨.flat, false, false, none, none⟩⟩

/-- What the overlay says of bar `i`, if there is one. -/
def overlayAt (overlay : Option (List OverlayBar)) (i : ℕ) : Option OverlayBar :=
  overlay.map fun bars => bars.getD i default

/-- The regime in which bar `i` is looked at. -/
def activeRegime (regime : Regime) (bar : Option OverlayBar) : Regime :=
  (bar.map OverlayBar.regime).getD regime

/-- The tags of a trade that is entered on a bar to which a forecast was applied. -/
def aiTags (regime : Regime) (bar : Option OverlayBar) : Option AiTags :=
  (bar.filter OverlayBar.applied).map fun b =>
    { baseRegime := regime
      regime := b.regime
      regimeChanged := decide (b.regime ≠ regime)
      signalTime := b.signalTime
      horizonEndTime := b.horizonEndTime }

/-- The body of the loop of `simulate_trades`.  Inside the frame the next bar lies behind the exit,
see `next_simulateBody`. -/
def simulateBody (df : Frame) (ind : Indicators) (enabled : List Indicator) (regime : Regime)
    (p : SimParams) (overlay : Option (List OverlayBar)) (i : ℕ) : Jump VwapTrade i :=
  match entryAt df ind enabled p (activeRegime regime (overlayAt overlay i)) i with
  | none => Jump.skip i
  | some e =>
      let trade := tradeOf df p i e (aiTags regime (overlayAt overlay i))
      { item := some trade
        next := max (i + 1) (trade.exitI + (max 1 p.cooldownBars).toNat)
        lt_next := by omega }

/-- `simulate_trades`. -/
def simulateTrades (df : Frame) (ind : Indicators) (enabled : List Indicator) (regime : Regime)
    (p : SimParams) (overlay : Option (List OverlayBar)) : List VwapTrade :=
  run (simulateBody df ind enabled regime p overlay) (df.length - 2) df.length 0

/-! ## The trades of the loop -/

section

variable {df : Frame} {ind : Indicators} {enabled : List Indicator} {regime : Regime}
  {p : SimParams} {overlay : Option (List OverlayBar)} {i : ℕ}

theorem item_simulateBody_eq_some {t : VwapTrade} :
    (simulateBody df ind enabled regime p overlay i).item = some t ↔
      ∃ e, entryAt df ind enabled p (activeRegime regime (overlayAt overlay i)) i = some e ∧
        t = tradeOf df p i e (aiTags regime (overlayAt overlay i)) := by
  rw [simulateBody]
  cases entryAt df ind enabled p (activeRegime regime (overlayAt overlay i)) i with
  | none => simp only [Jump.skip, reduceCtorEq, false_and, exists_false]
  | some e => simp only [Option.some.injEq, exists_eq_left', eq_comm]

theorem mem_simulateTrades {t : VwapTrade}
    (h : t ∈ simulateTrades df ind enabled regime p overlay) :
    ∃ i e, i + 2 < df.length ∧
      entryAt df ind enabled p (activeRegime regime (overlayAt overlay i)) i = some e ∧
      t = tradeOf df p i e (aiTags regime (overlayAt overlay i)) := by
  obtain ⟨i, _, hi, hitem⟩ := mem_run h
  obtain ⟨e, hentry, rfl⟩ := item_simulateBody_eq_some.mp hitem
  exact ⟨i, e, by omega, hentry, rfl⟩

end

/-! ## Where trades end -/

section

variable {df df' : Frame} {ind ind' : Indicators} {enabled : List Indicator} {regime : Regime}
  {p : SimParams} {e : Entry} {i k : ℕ}

theorem exitOn_exitI {j : ℕ} {bar : Bar} {x : Exit} (h : exitOn e j bar = some x) :
    x.exitI = j ∧ x.reason ≠ .openAtEnd := by
  rw [exitOn] at h
  split at h
  · by_cases hsl : bar.low ≤ e.sl
    · rw [if_pos hsl] at h
      cases h
      exact ⟨rfl, nofun⟩
    · rw [if_neg hsl, Option.ite_none_right_eq_some] at h
      obtain ⟨_, h⟩ := h
      cases h
      exact ⟨rfl, nofun⟩
  · by_cases hsl : e.sl ≤ bar.high
    · rw [if_pos hsl] at h
      cases h
      exact ⟨rfl, nofun⟩
    · rw [if_neg hsl, Option.ite_none_right_eq_some] at h
      obtain ⟨_, h⟩ := h
      cases h
      exact ⟨rfl, nofun⟩

theorem findSome?_congr {α β : Type*} {f g : α → Option β} {l : List α}
    (h : ∀ a ∈ l, f a = g a) : l.findSome? f = l.findSome? g := by
  induction l with
  | nil => rfl
  | cons a l ih =>
    rw [List.findSome?_cons, List.findSome?_cons, h a List.mem_cons_self,
      ih fun b hb => h b (List.mem_cons_of_mem a hb)]

/-- The exit on one of the bars behind `i` up to `k`. -/
def exitBy (df : Frame) (e : Entry) (i k : ℕ) : Option Exit :=
  (List.range' (i + 1) (k - i)).findSome? fun j => exitOn e j (df.bar j)

theorem exitBy_exitI {x : Exit} (h : exitBy df e i k = some x) :
    i < x.exitI ∧ x.exitI ≤ k ∧ x.reason ≠ .openAtEnd := by
  obtain ⟨j, hj, hx⟩ := List.exists_of_findSome?_eq_some h
  obtain ⟨hxj, hreason⟩ := exitOn_exitI hx
  rw [List.mem_range'_1] at hj
  exact ⟨by omega, by omega, hreason⟩

theorem exitBy_congr (hdf : df.AgreeUpTo df' k) : exitBy df e i k = exitBy df' e i k := by
  refine findSome?_congr fun j hj => ?_
  rw [List.mem_range'_1] at hj
  rw [hdf j (by omega)]

theorem exitFor_eq (df : Frame) (e : Entry) (i : ℕ) :
    exitFor df e i = (exitBy df e i (df.length - 1)).getD
      ⟨df.length - 1, (df.bar (df.length - 1)).close, .openAtEnd⟩ := by
  rw [exitFor, firstExit, exitBy, show df.length - (i + 1) = df.length - 1 - i by omega]

theorem exitFor_of_exitBy {x : Exit} (hk : k < df.length) (h : exitBy df e i k = some x) :
    exitFor df e i = x := by
  obtain ⟨hi, hle, _⟩ := exitBy_exitI h
  have hsplit : List.range' (i + 1) (df.length - 1 - i) =
      List.range' (i + 1) (k - i) ++ List.range' (k + 1) (df.length - 1 - k) := by
    have h := @List.range'_append_1 (i + 1) (k - i) (df.length - 1 - k)
    rw [show i + 1 + (k - i) = k + 1 by omega,
      show k - i + (df.length - 1 - k) = df.length - 1 - i by omega] at h
    exact h.symm
  rw [exitBy] at h
  rw [exitFor_eq, exitBy, hsplit, List.findSome?_append, h]
  rfl

theorem lt_exitI_of_exitBy (hk : k + 1 < df.length) (hi : i ≤ k) (h : exitBy df e i k = none) :
    k < (exitFor df e i).exitI := by
  rw [exitFor_eq]
  cases hlast : exitBy df e i (df.length - 1) with
  | none =>
    show k < df.length - 1
    omega
  | some x =>
    show k < x.exitI
    by_contra hle
    obtain ⟨j, hj, hx⟩ := List.exists_of_findSome?_eq_some hlast
    obtain ⟨hxj, _⟩ := exitOn_exitI hx
    rw [List.mem_range'_1] at hj
    have hnone := List.findSome?_eq_none_iff.mp h j (List.mem_range'_1.mpr (by omega))
    rw [hnone] at hx
    cases hx

theorem exitFor_cases (df : Frame) (e : Entry) (i : ℕ) :
    (exitFor df e i).reason = .openAtEnd ∨ i < (exitFor df e i).exitI := by
  rw [exitFor_eq]
  cases h : exitBy df e i (df.length - 1) with
  | none => exact .inl rfl
  | some x => exact .inr (exitBy_exitI h).1

theorem next_simulateBody {overlay : Option (List OverlayBar)} {trade : VwapTrade}
    (hi : i + 1 < df.length)
    (h : (simulateBody df ind enabled regime p overlay i).item = some trade) :
    (simulateBody df ind enabled regime p overlay i).next =
      trade.exitI + (max 1 p.cooldownBars).toNat := by
  cases hentry : entryAt df ind enabled p (activeRegime regime (overlayAt overlay i)) i with
  | none =>
    rw [simulateBody, hentry] at h
    cases h
  | some e =>
    rw [simulateBody, hentry] at h ⊢
    cases h
    have hexit : i ≤ (exitFor df e i).exitI := by
      rw [exitFor_eq]
      cases hby : exitBy df e i (df.length - 1) with
      | none =>
        show i ≤ df.length - 1
        omega
      | some x => exact Nat.le_of_lt (exitBy_exitI hby).1
    show max (i + 1) ((exitFor df e i).exitI + _) = (exitFor df e i).exitI + _
    omega

/-! ## No look-ahead -/

/-- The entry on a bar depends on no later bar. -/
theorem entryAt_congr (hdf : df.AgreeUpTo df' i) (hind : ∀ j ≤ i, ind j = ind' j) :
    entryAt df ind enabled p regime i = entryAt df' ind' enabled p regime i := by
  have hbar := hdf i le_rfl
  have hsnap : snapshotAt df ind i = snapshotAt df' ind' i := by
    rw [snapshotAt, snapshotAt, hbar, hind i le_rfl]
  have hstop : ∀ side entry a,
      stopFor df ind.atrSeries p.toStopParams i side entry a =
        stopFor df' ind'.atrSeries p.toStopParams i side entry a := fun side entry a =>
    stopFor_congr hdf fun j hj => congrArg IndicatorRow.atr (hind j hj)
  simp only [entryAt, hsnap, hstop, hbar]

/-- The trade is closed by its stop or its target by bar `k`. -/
def VwapTrade.closedBy (k : ℕ) (t : VwapTrade) : Bool :=
  decide (t.exitReason ≠ .openAtEnd ∧ t.exitI ≤ k)

/-- A trade without what it says of the forecast. -/
def VwapTrade.withoutTags (t : VwapTrade) : VwapTrade := { t with ai := none }

theorem not_closedBy_of_lt {overlay : Option (List OverlayBar)} {t : VwapTrade} (hi : k < i)
    (h : (simulateBody df ind enabled regime p overlay i).item = some t) :
    t.closedBy k = false := by
  cases hentry : entryAt df ind enabled p (activeRegime regime (overlayAt overlay i)) i with
  | none =>
    rw [simulateBody, hentry] at h
    cases h
  | some e =>
    rw [simulateBody, hentry] at h
    cases h
    refine decide_eq_false fun hclosed => ?_
    rcases exitFor_cases df e i with hopen | hexit
    · exact hclosed.1 hopen
    · have hle : (exitFor df e i).exitI ≤ k := hclosed.2
      omega

theorem simulateBody_agreesAt {β : Type*} {shown : VwapTrade → β}
    {overlay overlay' : Option (List OverlayBar)} (hk : k + 1 < df.length)
    (hk' : k + 1 < df'.length)
    (hdf : df.AgreeUpTo df' k) (hind : ∀ j ≤ k, ind j = ind' j) (hi : i ≤ k)
    (hregime : activeRegime regime (overlayAt overlay i) =
      activeRegime regime (overlayAt overlay' i))
    (hshown : ∀ t : VwapTrade, shown { t with ai := aiTags regime (overlayAt overlay i) } =
      shown { t with ai := aiTags regime (overlayAt overlay' i) }) :
    AgreesAt (VwapTrade.closedBy k) shown k (simulateBody df ind enabled regime p overlay i)
      (simulateBody df' ind' enabled regime p overlay' i) := by
  have hentry := @entryAt_congr df df' ind ind' enabled
    (activeRegime regime (overlayAt overlay i)) p i (fun j hj => hdf j (hj.trans hi))
    fun j hj => hind j (hj.trans hi)
  rw [simulateBody, simulateBody, ← hregime, ← hentry]
  cases entryAt df ind enabled p (activeRegime regime (overlayAt overlay i)) i with
  | none => exact ⟨rfl, .inl rfl⟩
  | some e =>
    have hexits : exitBy df e i k = exitBy df' e i k := exitBy_congr hdf
    cases hexit : exitBy df e i k with
    | some x =>
      -- the trade is closed on a bar that the runs share
      have hx := exitFor_of_exitBy (by omega) hexit
      have hx' := exitFor_of_exitBy (by omega) (hexits ▸ hexit)
      obtain ⟨_, hle, _⟩ := exitBy_exitI hexit
      have htrade : ∀ tags, tradeOf df p i e tags = tradeOf df' p i e tags := by
        intro tags
        simp only [tradeOf, hx, hx', hdf i hi, hdf x.exitI hle]
      constructor
      · have hclosed : ∀ tags tags', (tradeOf df p i e tags).closedBy k =
            (tradeOf df p i e tags').closedBy k := fun _ _ => rfl
        simp only [Option.filter_some, ← htrade,
          hclosed _ (aiTags regime (overlayAt overlay i))]
        split
        · exact congrArg some (hshown (tradeOf df p i e none))
        · rfl
      · refine .inl ?_
        show max (i + 1) ((exitFor df e i).exitI + _) = max (i + 1) ((exitFor df' e i).exitI + _)
        rw [hx, hx']
    | none =>
      -- the trade is open when the runs part
      have hlt := lt_exitI_of_exitBy hk hi hexit
      have hlt' := lt_exitI_of_exitBy hk' hi (hexits ▸ hexit)
      have hopen : ∀ tags, (tradeOf df p i e tags).closedBy k = false := fun _ =>
        decide_eq_false fun hclosed => absurd hclosed.2 (Nat.not_le.mpr hlt)
      have hopen' : ∀ tags, (tradeOf df' p i e tags).closedBy k = false := fun _ =>
        decide_eq_false fun hclosed => absurd hclosed.2 (Nat.not_le.mpr hlt')
      constructor
      · simp only [Option.filter_some, hopen, hopen', Bool.false_eq_true, if_false]
      · refine .inr ⟨?_, ?_⟩
        · show k < max (i + 1) ((exitFor df e i).exitI + _)
          omega
        · show k < max (i + 1) ((exitFor df' e i).exitI + _)
          omega

end

/-- The trades of a run that are closed by bar `k`. -/
def closedTrades (k : ℕ) (trades : List VwapTrade) : List VwapTrade :=
  trades.filter (VwapTrade.closedBy k)

/-- The times of the bars of a market, which the loader of a frame sorts. -/
structure MarketIndex where
  times : List ℤ
  sorted : times.Pairwise (· ≤ ·)

/-- What the overlay says of a bar, but for the times that it names. -/
def OverlayBar.flags (b : OverlayBar) : Regime × Bool × Bool := (b.regime, b.active, b.applied)

theorem closedTrades_congr {β : Type*} {shown : VwapTrade → β} {df df' : Frame}
    {ind ind' : Indicators} {enabled : List Indicator} {regime : Regime} {p : SimParams}
    {overlay overlay' : Option (List OverlayBar)} {k : ℕ} (hlen : k + 3 ≤ df.length)
    (hlen' : k + 3 ≤ df'.length) (hdf : df.AgreeUpTo df' k) (hind : ∀ i ≤ k, ind i = ind' i)
    (hregime : ∀ i ≤ k, activeRegime regime (overlayAt overlay i) =
      activeRegime regime (overlayAt overlay' i))
    (hshown : ∀ i ≤ k, ∀ t : VwapTrade,
      shown { t with ai := aiTags regime (overlayAt overlay i) } =
        shown { t with ai := aiTags regime (overlayAt overlay' i) }) :
    (closedTrades k (simulateTrades df ind enabled regime p overlay)).map shown =
      (closedTrades k (simulateTrades df' ind' enabled regime p overlay')).map shown := by
  refine filter_run_eq (fun i hi => ?_) (fun i hi t ht => not_closedBy_of_lt hi ht)
    (fun i hi t ht => not_closedBy_of_lt hi ht) (by omega) (by omega) (by omega) (by omega)
  exact simulateBody_agreesAt (by omega) (by omega) hdf hind hi (hregime i hi) (hshown i hi)

/-- **No look-ahead.**  Two runs of `simulate_trades` that agree up to bar `k` close the same trades
by then, and name the same forecasts in them if their overlays agree as a whole; and two overlays
whose rows agree up to the time of bar `k` say the same of the bars up to `k`, if rows of one time
among these say the same. -/
theorem simulateTrades_noLookahead :
    (∀ (df df' : Frame) (ind ind' : Indicators) (enabled : List Indicator) (regime : Regime)
        (p : SimParams) (overlay overlay' : Option (List OverlayBar)) (k : ℕ),
      k + 3 ≤ df.length → k + 3 ≤ df'.length → df.AgreeUpTo df' k → (∀ i ≤ k, ind i = ind' i) →
      (∀ i ≤ k, activeRegime regime (overlayAt overlay i) =
        activeRegime regime (overlayAt overlay' i)) →
      (closedTrades k (simulateTrades df ind enabled regime p overlay)).map
          VwapTrade.withoutTags =
        (closedTrades k (simulateTrades df' ind' enabled regime p overlay')).map
          VwapTrade.withoutTags ∧
      ((∀ i ≤ k, overlayAt overlay i = overlayAt overlay' i) →
        closedTrades k (simulateTrades df ind enabled regime p overlay) =
          closedTrades k (simulateTrades df' ind' enabled regime p overlay'))) ∧
    (∀ (s : FrameSort) (index : MarketIndex) (rows rows' : List AiRow) (fallback : Regime)
        (th : Thresholds) (overlay overlay' : List OverlayBar) (k : ℕ) (bound : ℤ),
      resolveAiForecastOverlayPerBar s index.times rows fallback th = .ok overlay →
      resolveAiForecastOverlayPerBar s index.times rows' fallback th = .ok overlay' →
      index.times[k]? = some bound → rowsNotAfter rows bound = rowsNotAfter rows' bound →
      TiesAgree rows bound →
      ∀ i ≤ k, (overlay[i]?).map OverlayBar.flags = (overlay'[i]?).map OverlayBar.flags) := by
  constructor
  · intro df df' ind ind' enabled regime p overlay overlay' k hlen hlen' hdf hind hregime
    refine ⟨closedTrades_congr hlen hlen' hdf hind hregime fun _ _ _ => rfl, fun hoverlay => ?_⟩
    have hsame := @closedTrades_congr VwapTrade id df df' ind ind' enabled regime p overlay overlay'
      k hlen hlen' hdf hind hregime fun i hi t => by rw [hoverlay i hi]
    rwa [List.map_id, List.map_id] at hsame
  · intro s index rows rows' fallback th overlay overlay' k bound h h' hk hrows hties i hi
    have hbound : ∀ j ≤ k, ∀ time ∈ index.times[j]?, time ≤ bound := by
      intro j hj time htime
      obtain ⟨hjlen, htime⟩ := List.getElem?_eq_some_iff.mp htime
      obtain ⟨hklen, hk⟩ := List.getElem?_eq_some_iff.mp hk
      rcases Nat.lt_or_eq_of_le hj with hlt | heq
      · have hle := List.pairwise_iff_getElem.mp index.sorted j k hjlen hklen hlt
        rwa [htime, hk] at hle
      · subst heq
        exact le_of_eq (htime.symm.trans hk)
    rw [resolveAiForecastOverlayPerBar_congr h h' (fun _ _ => rfl) hbound hrows hties i hi]

/-- A frame on which a long entry on bar 0 reaches its target on bar 1; bar 2 has the high
`high`. -/
def takeFrame (high : ℚ) : Frame :=
  [⟨0, 100, 101, 99, 100, 10⟩, ⟨10, 100, 104, 99, 103, 10⟩, ⟨20, 103, high, 90, 103, 10⟩,
    ⟨30, 103, 104, 102, 103, 10⟩]

/-- Indicators that qualify bar 0 alone. -/
def firstBarOnly : Indicators := fun i =>
  if i = 0 then { atr := some 1, vwap := some 99, macdHist := some 1 } else {}

/-- Two frames that part behind bar 1, and two forecasts that part behind its time. -/
theorem simulateTrades_noLookahead_take :
    closedTrades 1 (simulateTrades (takeFrame 104) firstBarOnly [.vwap, .macd] .flat {} none) =
        closedTrades 1 (simulateTrades (takeFrame 200) firstBarOnly [.vwap, .macd] .flat {} none) ∧
      (closedTrades 1
        (simulateTrades (takeFrame 104) firstBarOnly [.vwap, .macd] .flat {} none)).length = 1 ∧
      ([(⟨.bull, true, true, some 5, none⟩ : OverlayBar)][0]?).map OverlayBar.flags =
        ([(⟨.bull, true, true, some 5, none⟩ : OverlayBar)][0]?).map OverlayBar.flags := by
  refine ⟨?_, by decide +kernel, ?_⟩
  · exact (simulateTrades_noLookahead.1 (takeFrame 104) (takeFrame 200) firstBarOnly firstBarOnly
      [.vwap, .macd] .flat {} none none 1 (by decide) (by decide)
      (show ∀ i ≤ 1, (takeFrame 104).bar i = (takeFrame 200).bar i by decide +kernel)
      (fun _ _ => rfl) fun _ _ => rfl).2 fun _ _ => rfl
  · exact simulateTrades_noLookahead.2 quicksort ⟨[10], by decide⟩
      [⟨some 5, false, none, "up", some 60, some 0, some 0⟩]
      [⟨some 5, false, none, "up", some 60, some 0, some 0⟩,
        ⟨some 15, false, none, "down", some 0, some 60, some 0⟩]
      .flat ⟨52, 52⟩ _ _ 0 10 (by decide +kernel) (by decide +kernel) rfl (by decide +kernel)
      (by decide +kernel) 0 le_rfl

end Backtest

end AdviserConstructor
