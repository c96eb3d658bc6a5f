import AdviserConstructor.Library.SampleScore
import Mathlib.Analysis.Real.Sqrt
import Mathlib.Data.Rat.Cast.Order

/-!
# The anomaly detector

`app/services/auto_trade/anomaly/detector.py` judges the closed trades of a strategy by four
metrics.  Each is a z-score: a deviation from a baseline in units of a standard deviation.  The
first two are those of the last value of a rolling window, which is part of that window.

A series of pandas is a list whose missing values are `none`.  The arithmetic is exact, and scores
are compared by their squares.

* `square_le_of_lastRollingZ`: no rolling score is beyond what its window allows for.
* `detectsBeyond_iff`: when a loss that is large enough is found with a severity.
* `seesOutlier_iff`: when the detector can see an outlier.
* `severity_ne_critical`: where the window leaves no room, no trade is critical; so it is with the
  defaults.
-/

namespace AdviserConstructor

namespace AnomalyDetector

open SampleScore

/-! ## Scores -/

/-- A z-score: a deviation, and the variance that it is measured by. -/
structure ZScore where
  deviation : ℚ
  variance : ℚ
  deriving DecidableEq, Repr

def ZScore.square (z : ZScore) : ℚ := z.deviation ^ 2 / z.variance

/-! ## Configuration -/

/-- The fields of `AutoTradeRiskConfig` that the detector is configured by, within the bounds of the
schema. -/
structure AnomalyRiskConfig where
  anomalyZThreshold : Option ℚ := none
  anomalyWindow : Option ℕ := none
  zThreshold_mem : ∀ z ∈ anomalyZThreshold, 0 < z ∧ z ≤ 20 := by simp
  window_mem : ∀ w ∈ anomalyWindow, 2 ≤ w ∧ w ≤ 1000 := by simp

/-- `AnomalyConfig`. -/
structure AnomalyConfig where
  zThreshold : ℚ := 3
  window : ℕ := 20
  freqAlpha : ℚ := 3 / 10
  deriving DecidableEq, Repr

/-- `_anomaly_config_from_risk`. -/
def anomalyConfigFromRisk (risk : AnomalyRiskConfig) : AnomalyConfig where
  zThreshold := risk.anomalyZThreshold.getD 3
  window := risk.anomalyWindow.getD 20

theorem zThreshold_pos (risk : AnomalyRiskConfig) :
    0 < (anomalyConfigFromRisk risk).zThreshold := by
  rw [anomalyConfigFromRisk]
  cases h : risk.anomalyZThreshold with
  | none => norm_num
  | some z => exact (risk.zThreshold_mem z h).1

theorem two_le_window (risk : AnomalyRiskConfig) : 2 ≤ (anomalyConfigFromRisk risk).window := by
  rw [anomalyConfigFromRisk]
  cases h : risk.anomalyWindow with
  | none => norm_num
  | some w => exact (risk.window_mem w h).1

/-! ## Findings -/

/-- The severities. -/
inductive Severity where
  | info | warning | critical
  deriving DecidableEq, Repr

/-- The metrics. -/
inductive Metric where
  | pnlZscore | drawdownVelocity | winRateCollapse | tradeFrequency
  deriving DecidableEq, Repr

/-- `AnomalyFinding`. -/
structure AnomalyFinding where
  metric : Metric
  value : ℚ
  baseline : ℚ
  zScore : ZScore
  severity : Severity
  deriving DecidableEq, Repr

/-- `CRITICAL_Z_MULT`. -/
def criticalZMult : ℚ := 3 / 2

/-- `_severity`. -/
def severity (z : ZScore) (threshold : ℚ) : Severity :=
  if (threshold * criticalZMult) ^ 2 ≤ z.square then .critical
  else if threshold ^ 2 ≤ z.square then .warning
  else .info

/-! ## Series -/

abbrev Series := List (Option ℚ)

/-- The last point of a rolling window. -/
structure RollingPoint where
  value : ℚ
  mean : ℚ
  variance : ℚ
  deriving DecidableEq, Repr

def RollingPoint.z (p : RollingPoint) : ZScore := ⟨p.value - p.mean, p.variance⟩

/-- `_last_rolling_z`, where the score is a number: the window is full and varies. -/
def lastRollingZ (values : Series) (window : ℕ) : Option RollingPoint :=
  if values.length < window then none
  else
    ((values.drop (values.length - window)).mapM id).bind fun xs =>
      xs.getLast?.bind fun value =>
        if variance xs = 0 then none else some ⟨value, mean xs, variance xs⟩

/-- `cumsum`. -/
def cumsum (values : List ℚ) : List ℚ := (values.scanl (· + ·) 0).tail

/-- `cummax`. -/
def cummax : List ℚ → List ℚ
  | [] => []
  | x :: xs => xs.scanl max x

/-- `diff`. -/
def diff : List ℚ → Series
  | [] => []
  | x :: xs => none :: List.zipWith (fun before after => some (after - before)) (x :: xs) xs

/-- `rolling(window, min_periods=window).mean().dropna()`. -/
def rollingMeans (values : List ℚ) (window : ℕ) : List ℚ :=
  (List.range (values.length + 1 - window)).map fun i => mean ((values.drop i).take window)

/-- `ewm(alpha=alpha).mean()`: the weighted sum and the weights go from value to value. -/
def ewmMeans (alpha : ℚ) (total weight : ℚ) : List ℚ → List ℚ
  | [] => []
  | x :: xs =>
      (x + (1 - alpha) * total) / (1 + (1 - alpha) * weight) ::
        ewmMeans alpha (x + (1 - alpha) * total) (1 + (1 - alpha) * weight) xs

/-- `trade_frequency_baseline`. -/
def tradeFrequencyBaseline (counts : List ℚ) (alpha : ℚ) : List ℚ := ewmMeans alpha 0 0 counts

/-! ## The detectors -/

/-- `_detect_pnl`. -/
def detectPnl (tradePnls : List ℚ) (cfg : AnomalyConfig) : Option AnomalyFinding :=
  (lastRollingZ (tradePnls.map some) cfg.window).bind fun point =>
    if point.z.square < cfg.zThreshold ^ 2 then none
    else
      some
        { metric := .pnlZscore
          value := point.value
          baseline := point.mean
          zScore := point.z
          severity := severity point.z cfg.zThreshold }

/-- `_detect_drawdown_velocity`. -/
def detectDrawdownVelocity (tradePnls : List ℚ) (cfg : AnomalyConfig) : Option AnomalyFinding :=
  let equity := cumsum tradePnls
  let drawdown := List.zipWith (· - ·) (cummax equity) equity
  (lastRollingZ (diff drawdown) cfg.window).bind fun point =>
    if point.z.deviation < 0 ∨ point.z.square < cfg.zThreshold ^ 2 then none
    else
      some
        { metric := .drawdownVelocity
          value := point.value
          baseline := point.mean
          zScore := point.z
          severity := severity point.z cfg.zThreshold }

/-- `_detect_win_rate_collapse`. -/
def detectWinRateCollapse (tradePnls : List ℚ) (cfg : AnomalyConfig) : Option AnomalyFinding :=
  let valid := rollingMeans (tradePnls.map fun pnl => if 0 < pnl then 1 else 0) cfg.window
  if valid.length < 2 then none
  else
    valid.getLast?.bind fun last =>
      if variance valid = 0 then none
      else
        let z : ZScore := ⟨last - mean valid, variance valid⟩
        if 0 < z.deviation ∨ z.square < cfg.zThreshold ^ 2 then none
        else
          some
            { metric := .winRateCollapse
              value := last * 100
              baseline := mean valid * 100
              zScore := z
              severity := severity z cfg.zThreshold }

/-- `_detect_trade_frequency`. -/
def detectTradeFrequency (bucketCounts : List ℚ) (cfg : AnomalyConfig) : Option AnomalyFinding :=
  if bucketCounts.length < 2 then none
  else
    let baseline := tradeFrequencyBaseline bucketCounts cfg.freqAlpha
    let resid := List.zipWith (· - ·) bucketCounts baseline
    bucketCounts.getLast?.bind fun count =>
      baseline.getLast?.bind fun level =>
        if variance resid = 0 then none
        else
          let z : ZScore := ⟨count - level, variance resid⟩
          if z.square < cfg.zThreshold ^ 2 then none
          else
            some
              { metric := .tradeFrequency
                value := count
                baseline := level
                zScore := z
                severity := severity z cfg.zThreshold }

/-- `detect_anomalies`. -/
def detectAnomalies (tradePnls : List ℚ) (bucketCounts : Option (List ℚ)) (cfg : AnomalyConfig) :
    List AnomalyFinding :=
  ([detectPnl tradePnls cfg, detectDrawdownVelocity tradePnls cfg,
      detectWinRateCollapse tradePnls cfg,
      bucketCounts.bind fun counts => detectTradeFrequency counts cfg].filterMap id).filter
    fun finding => finding.severity ≠ .info

/-! ## Outliers -/

section

variable (risk : AnomalyRiskConfig) (history : List ℚ) (bucketCounts : Option (List ℚ))

/-- What is found when the last trade loses an amount. -/
def findings (loss : ℚ) : List AnomalyFinding :=
  detectAnomalies (history ++ [-loss]) bucketCounts (anomalyConfigFromRisk risk)

/-- Every last trade that loses more than some amount is found, and more than some amount with the
severity that is critical. -/
structure SeesOutlier : Prop where
  found : ∃ size, ∀ loss, size < loss →
    ∃ finding ∈ findings risk history bucketCounts loss, finding.metric = .pnlZscore
  critical : ∃ size, ∀ loss, size < loss →
    ∃ finding ∈ findings risk history bucketCounts loss,
      finding.metric = .pnlZscore ∧ finding.severity = .critical

end

/-! ## The window of the last trade -/

section

variable {cfg : AnomalyConfig} {history tradePnls : List ℚ} {x : ℚ}
  {bucketCounts : Option (List ℚ)}

/-- The values of a window before the last one. -/
def earlier (cfg : AnomalyConfig) (history : List ℚ) : List ℚ :=
  history.drop (history.length - (cfg.window - 1))

/-- The last point of the window, if it varies. -/
def lastPoint (cfg : AnomalyConfig) (history : List ℚ) (x : ℚ) : RollingPoint :=
  ⟨x, mean (earlier cfg history ++ [x]), variance (earlier cfg history ++ [x])⟩

theorem square_lastPoint :
    (lastPoint cfg history x).z.square = scoreSq (earlier cfg history) x := rfl

theorem length_earlier (hlength : cfg.window - 1 ≤ history.length) :
    (earlier cfg history).length = cfg.window - 1 := by
  rw [earlier, List.length_drop]
  omega

theorem mapM_some (xs : List ℚ) : (xs.map some).mapM id = some xs := by
  induction xs with
  | nil => rfl
  | cons x xs ih =>
    rw [List.map_cons, List.mapM_cons, ih]
    rfl

theorem lastRollingZ_append (hwindow : 1 ≤ cfg.window) (hlength : cfg.window - 1 ≤ history.length) :
    lastRollingZ ((history ++ [x]).map some) cfg.window =
      if variance (earlier cfg history ++ [x]) = 0 then none
      else some (lastPoint cfg history x) := by
  have hlong : ¬ ((history ++ [x]).map some).length < cfg.window := by
    rw [List.length_map, List.length_append, List.length_singleton]
    omega
  have hdrop : ((history ++ [x]).map some).drop (((history ++ [x]).map some).length - cfg.window) =
      (earlier cfg history ++ [x]).map some := by
    rw [List.length_map, List.length_append, List.length_singleton, ← List.map_drop,
      List.drop_append_of_le_length (by omega)]
    congr 3
    omega
  rw [lastRollingZ, if_neg hlong, hdrop, mapM_some, Option.bind_some, List.getLast?_concat]
  rfl

/-- **Rolling scores** are bounded by the window, whatever the values. -/
theorem square_le_of_lastRollingZ {point : RollingPoint} (hwindow : 2 ≤ cfg.window)
    (hlength : cfg.window - 1 ≤ history.length)
    (h : lastRollingZ ((history ++ [x]).map some) cfg.window = some point) :
    point.z.square ≤ ((cfg.window : ℚ) - 1) ^ 2 / cfg.window := by
  have hys : earlier cfg history ≠ [] := by
    intro hnil
    have := length_earlier hlength
    rw [hnil, List.length_nil] at this
    omega
  have hcast : (((earlier cfg history).length : ℕ) : ℚ) = (cfg.window : ℚ) - 1 := by
    rw [length_earlier hlength, Nat.cast_sub (by omega), Nat.cast_one]
  rw [lastRollingZ_append (by omega) hlength] at h
  by_cases hvar : variance (earlier cfg history ++ [x]) = 0
  · rw [if_pos hvar] at h
    cases h
  · rw [if_neg hvar] at h
    obtain rfl := Option.some.inj h
    have hbound := @sq_le_variance ℚ _ _ _ (earlier cfg history) x hys
    have hpos : 0 < variance (earlier cfg history ++ [x]) :=
      lt_of_le_of_ne (variance_nonneg hys) (Ne.symm hvar)
    rw [hcast, sub_add_cancel] at hbound
    rw [square_lastPoint, scoreSq, div_le_iff₀ hpos]
    exact hbound

/-! ## What is found -/

theorem sq_le_critical (threshold : ℚ) : threshold ^ 2 ≤ (threshold * criticalZMult) ^ 2 := by
  rw [criticalZMult]
  nlinarith [sq_nonneg threshold]

theorem severity_ne_info_iff {z : ZScore} {threshold : ℚ} :
    severity z threshold ≠ .info ↔ threshold ^ 2 ≤ z.square := by
  rw [severity]
  by_cases hcritical : (threshold * criticalZMult) ^ 2 ≤ z.square
  · rw [if_pos hcritical]
    exact iff_of_true (by simp) ((sq_le_critical threshold).trans hcritical)
  · rw [if_neg hcritical]
    by_cases hwarning : threshold ^ 2 ≤ z.square
    · rw [if_pos hwarning]
      exact iff_of_true (by simp) hwarning
    · rw [if_neg hwarning]
      exact iff_of_false (by simp) hwarning

theorem severity_eq_critical_iff {z : ZScore} {threshold : ℚ} :
    severity z threshold = .critical ↔ (threshold * criticalZMult) ^ 2 ≤ z.square := by
  rw [severity]
  by_cases hcritical : (threshold * criticalZMult) ^ 2 ≤ z.square
  · rw [if_pos hcritical]
    exact iff_of_true rfl hcritical
  · rw [if_neg hcritical]
    refine iff_of_false ?_ hcritical
    split <;> simp

variable {finding : AnomalyFinding}

theorem detectPnl_eq_some_iff :
    detectPnl tradePnls cfg = some finding ↔
      ∃ point, lastRollingZ (tradePnls.map some) cfg.window = some point ∧
        cfg.zThreshold ^ 2 ≤ point.z.square ∧
          finding = ⟨.pnlZscore, point.value, point.mean, point.z,
            severity point.z cfg.zThreshold⟩ := by
  rw [detectPnl, Option.bind_eq_some_iff]
  refine exists_congr fun point => and_congr_right fun _ => ?_
  by_cases hbelow : point.z.square < cfg.zThreshold ^ 2
  · rw [if_pos hbelow]
    exact iff_of_false (by simp) fun h => absurd h.1 (not_le.mpr hbelow)
  · rw [if_neg hbelow, Option.some_inj, eq_comm]
    exact (and_iff_right (not_lt.mp hbelow)).symm

theorem metric_detectDrawdownVelocity (h : detectDrawdownVelocity tradePnls cfg = some finding) :
    finding.metric = .drawdownVelocity := by
  obtain ⟨point, -, hpoint⟩ := Option.bind_eq_some_iff.mp h
  split at hpoint
  · cases hpoint
  · obtain rfl := Option.some.inj hpoint
    rfl

theorem metric_detectWinRateCollapse (h : detectWinRateCollapse tradePnls cfg = some finding) :
    finding.metric = .winRateCollapse := by
  rw [detectWinRateCollapse] at h
  dsimp only at h
  split at h
  · cases h
  · obtain ⟨last, -, hlast⟩ := Option.bind_eq_some_iff.mp h
    split at hlast
    · cases hlast
    · split at hlast
      · cases hlast
      · obtain rfl := Option.some.inj hlast
        rfl

theorem metric_detectTradeFrequency {counts : List ℚ}
    (h : detectTradeFrequency counts cfg = some finding) : finding.metric = .tradeFrequency := by
  rw [detectTradeFrequency] at h
  dsimp only at h
  split at h
  · cases h
  · obtain ⟨count, -, hcount⟩ := Option.bind_eq_some_iff.mp h
    obtain ⟨level, -, hlevel⟩ := Option.bind_eq_some_iff.mp hcount
    split at hlevel
    · cases hlevel
    · split at hlevel
      · cases hlevel
      · obtain rfl := Option.some.inj hlevel
        rfl

theorem mem_detectAnomalies_pnl :
    finding ∈ detectAnomalies tradePnls bucketCounts cfg ∧ finding.metric = .pnlZscore ↔
      detectPnl tradePnls cfg = some finding ∧ finding.severity ≠ .info := by
  have hmem : finding ∈ detectAnomalies tradePnls bucketCounts cfg ↔
      (detectPnl tradePnls cfg = some finding ∨
        detectDrawdownVelocity tradePnls cfg = some finding ∨
          detectWinRateCollapse tradePnls cfg = some finding ∨
            bucketCounts.bind (fun counts => detectTradeFrequency counts cfg) = some finding) ∧
        finding.severity ≠ .info := by
    rw [detectAnomalies, List.mem_filter, List.mem_filterMap, decide_eq_true_eq]
    simp only [id_eq, List.mem_cons, List.not_mem_nil, or_false, exists_eq_right]
    simp only [eq_comm]
  rw [hmem]
  constructor
  · rintro ⟨⟨hpnl | hdrawdown | hwins | hfrequency, hseverity⟩, hmetric⟩
    · exact ⟨hpnl, hseverity⟩
    · rw [metric_detectDrawdownVelocity hdrawdown] at hmetric
      cases hmetric
    · rw [metric_detectWinRateCollapse hwins] at hmetric
      cases hmetric
    · obtain ⟨counts, -, hcounts⟩ := Option.bind_eq_some_iff.mp hfrequency
      rw [metric_detectTradeFrequency hcounts] at hmetric
      cases hmetric
  · rintro ⟨hpnl, hseverity⟩
    obtain ⟨point, -, -, rfl⟩ := detectPnl_eq_some_iff.mp hpnl
    exact ⟨⟨.inl hpnl, hseverity⟩, rfl⟩

end

/-! ## Outliers that are large enough -/

section

variable {risk : AnomalyRiskConfig} {history : List ℚ} {bucketCounts : Option (List ℚ)} {loss : ℚ}

/-- The window leaves room for a squared score: it is below the bound of the scores, or is that
bound while the trades of the window before the last one are all alike. -/
def LeavesRoom (cfg : AnomalyConfig) (history : List ℚ) (bound : ℚ) : Prop :=
  bound * cfg.window < ((cfg.window : ℚ) - 1) ^ 2 ∨
    bound * cfg.window = ((cfg.window : ℚ) - 1) ^ 2 ∧
      ∀ pnl ∈ earlier cfg history, ∀ pnl' ∈ earlier cfg history, pnl = pnl'

theorem earlier_ne_nil (hlength : (anomalyConfigFromRisk risk).window - 1 ≤ history.length) :
    earlier (anomalyConfigFromRisk risk) history ≠ [] := by
  intro hnil
  have := length_earlier hlength
  have := two_le_window risk
  rw [hnil, List.length_nil] at *
  omega

theorem exists_finding_iff (hlength : (anomalyConfigFromRisk risk).window - 1 ≤ history.length)
    {P : Severity → Prop} {bound : ℚ}
    (hP : ∀ z, (severity z (anomalyConfigFromRisk risk).zThreshold ≠ .info ∧
      P (severity z (anomalyConfigFromRisk risk).zThreshold)) ↔ bound ≤ z.square)
    (hbound : (anomalyConfigFromRisk risk).zThreshold ^ 2 ≤ bound) :
    (∃ finding ∈ findings risk history bucketCounts loss,
        finding.metric = .pnlZscore ∧ P finding.severity) ↔
      0 < variance (earlier (anomalyConfigFromRisk risk) history ++ [-loss]) ∧
        bound ≤ scoreSq (earlier (anomalyConfigFromRisk risk) history) (-loss) := by
  have hys := earlier_ne_nil hlength
  have hwindow := two_le_window risk
  constructor
  · rintro ⟨finding, hfinding, hmetric, hseverity⟩
    obtain ⟨hpnl, hinfo⟩ := mem_detectAnomalies_pnl.mp ⟨hfinding, hmetric⟩
    obtain ⟨point, hpoint, -, rfl⟩ := detectPnl_eq_some_iff.mp hpnl
    rw [lastRollingZ_append (by omega) hlength] at hpoint
    by_cases hvar : variance (earlier (anomalyConfigFromRisk risk) history ++ [-loss]) = 0
    · rw [if_pos hvar] at hpoint
      cases hpoint
    · rw [if_neg hvar] at hpoint
      obtain rfl := Option.some.inj hpoint
      have hsquare := (hP (lastPoint (anomalyConfigFromRisk risk) history (-loss)).z).mp
        ⟨hinfo, hseverity⟩
      exact ⟨lt_of_le_of_ne (variance_nonneg hys) (Ne.symm hvar), hsquare⟩
  · rintro ⟨hvar, hscore⟩
    have hpoint := @lastRollingZ_append (anomalyConfigFromRisk risk) history (-loss) (by omega)
      hlength
    rw [if_neg hvar.ne'] at hpoint
    rw [← square_lastPoint] at hscore
    have hseverity := (hP _).mpr hscore
    have hpnl := detectPnl_eq_some_iff.mpr ⟨_, hpoint, hbound.trans hscore, rfl⟩
    obtain ⟨hmem, hmetric⟩ := mem_detectAnomalies_pnl.mpr ⟨hpnl, hseverity.1⟩
    exact ⟨_, hmem, hmetric, hseverity.2⟩

/-- **Large losses**: those beyond some size are found with a severity exactly if the window leaves
room for its threshold. -/
theorem detectsBeyond_iff (hlength : (anomalyConfigFromRisk risk).window - 1 ≤ history.length)
    {P : Severity → Prop} {bound : ℚ}
    (hP : ∀ z, (severity z (anomalyConfigFromRisk risk).zThreshold ≠ .info ∧
      P (severity z (anomalyConfigFromRisk risk).zThreshold)) ↔ bound ≤ z.square)
    (hbound : (anomalyConfigFromRisk risk).zThreshold ^ 2 ≤ bound) :
    (∃ size, ∀ loss, size < loss → ∃ finding ∈ findings risk history bucketCounts loss,
        finding.metric = .pnlZscore ∧ P finding.severity) ↔
      LeavesRoom (anomalyConfigFromRisk risk) history bound := by
  have hwindow := two_le_window risk
  have hys := earlier_ne_nil hlength
  have hpos : 0 < bound := lt_of_lt_of_le (pow_pos (zThreshold_pos risk) 2) hbound
  have hcast : (((earlier (anomalyConfigFromRisk risk) history).length : ℕ) : ℚ) =
      ((anomalyConfigFromRisk risk).window : ℚ) - 1 := by
    rw [length_earlier hlength, Nat.cast_sub (by omega), Nat.cast_one]
  have hlimit := exists_forall_le_scoreSq_iff hys hpos
  rw [LeavesRoom]
  rw [hcast, sub_add_cancel, forall_eq_mean_iff hys] at hlimit
  rw [← hlimit]
  refine exists_congr fun size => forall_congr' fun loss => forall_congr' fun _ => ?_
  exact exists_finding_iff hlength hP hbound

/-- **The detector sees an outlier** exactly if its window leaves room for the critical
threshold. -/
theorem seesOutlier_iff (hlength : (anomalyConfigFromRisk risk).window - 1 ≤ history.length) :
    SeesOutlier risk history bucketCounts ↔
      LeavesRoom (anomalyConfigFromRisk risk) history
        (((anomalyConfigFromRisk risk).zThreshold * criticalZMult) ^ 2) := by
  have hcritical := @detectsBeyond_iff risk history bucketCounts hlength (fun s => s = .critical) _
    (fun z => by
      rw [severity_eq_critical_iff, severity_ne_info_iff]
      exact and_iff_right_of_imp (sq_le_critical _).trans) (sq_le_critical _)
  rw [← hcritical]
  constructor
  · exact SeesOutlier.critical
  · rintro ⟨size, hsize⟩
    refine ⟨⟨size, fun loss hloss => ?_⟩, ⟨size, hsize⟩⟩
    obtain ⟨finding, hmem, hmetric, -⟩ := hsize loss hloss
    exact ⟨finding, hmem, hmetric⟩

/-- A window that leaves room for a critical finding. -/
def roomyRisk : AnomalyRiskConfig where
  anomalyWindow := some 100
  window_mem := by
    rintro w ⟨⟩
    norm_num

/-- Behind a hundred trades a loss is found that is large enough. -/
theorem seesOutlier_roomyRisk : SeesOutlier roomyRisk (List.replicate 99 1) none := by
  refine (seesOutlier_iff ?_).mpr (.inl ?_)
  · decide
  · decide +kernel

/-- **No room**: if the window leaves none for the critical threshold, no trade is critical. -/
theorem severity_ne_critical {x : ℚ}
    (hlength : (anomalyConfigFromRisk risk).window - 1 ≤ history.length)
    (hroom : (((anomalyConfigFromRisk risk).window : ℚ) - 1) ^ 2 <
      ((anomalyConfigFromRisk risk).zThreshold * criticalZMult) ^ 2 *
        (anomalyConfigFromRisk risk).window) {finding : AnomalyFinding}
    (hfinding : finding ∈ detectAnomalies (history ++ [x]) bucketCounts
      (anomalyConfigFromRisk risk)) (hmetric : finding.metric = .pnlZscore) :
    finding.severity ≠ .critical := by
  have hwindow := two_le_window risk
  obtain ⟨hpnl, -⟩ := mem_detectAnomalies_pnl.mp ⟨hfinding, hmetric⟩
  obtain ⟨point, hpoint, -, rfl⟩ := detectPnl_eq_some_iff.mp hpnl
  have hsquare := square_le_of_lastRollingZ hwindow hlength hpoint
  intro hcritical
  have hreached := severity_eq_critical_iff.mp hcritical
  have hcast : (0 : ℚ) < (anomalyConfigFromRisk risk).window := by
    exact_mod_cast (by omega : 0 < (anomalyConfigFromRisk risk).window)
  rw [le_div_iff₀ hcast] at hsquare
  have hscaled := mul_le_mul_of_nonneg_right hreached hcast.le
  linarith

/-- **The defaults** of the detector leave no room: a window of twenty trades has no score of
`4.5`. -/
theorem not_seesOutlier_defaults :
    ¬ ∀ (risk : AnomalyRiskConfig) (history : List ℚ) (bucketCounts : Option (List ℚ)),
      (anomalyConfigFromRisk risk).window - 1 ≤ history.length →
        SeesOutlier risk history bucketCounts := by
  intro h
  have hlength : (anomalyConfigFromRisk {}).window - 1 ≤ (List.replicate 19 (1 : ℚ)).length := by
    decide
  obtain ⟨size, hsize⟩ := (h {} (List.replicate 19 1) none hlength).critical
  obtain ⟨finding, hmem, hmetric, hcritical⟩ := hsize (size + 1) (lt_add_one size)
  refine severity_ne_critical hlength ?_ hmem hmetric hcritical
  rw [anomalyConfigFromRisk, criticalZMult]
  norm_num

end

end AnomalyDetector

end AdviserConstructor
