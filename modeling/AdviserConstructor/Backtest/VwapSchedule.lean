import AdviserConstructor.Backtest.LiveSignals

/-!
# The schedule of the VWAP builder

What `simulate_trades` promises of its list of trades: a trade is entered behind the exit of the one
before it and the cooldown, it ends on the first bar behind its entry that touches its stop or its
target, and the regime of its bar allows its side.

* `exitFor_spec`: where a trade ends, and why.
* `side_of_qualifiedSide`: no long entry in a Bear regime, no short one in a Bull regime.
* `simulateTrades_schedule`: the schedule of the trades.
-/

namespace AdviserConstructor

namespace Backtest

open JumpLoop

/-! ## Bars that touch a bracket -/

def TouchesStop (side : Side) (sl : ℚ) (bar : Bar) : Prop :=
  match side with
  | .long => bar.low ≤ sl
  | .short => sl ≤ bar.high

def TouchesTarget (side : Side) (tp : ℚ) (bar : Bar) : Prop :=
  match side with
  | .long => tp ≤ bar.high
  | .short => bar.low ≤ tp

/-- A trade that is entered on bar `i` ends where it has to: on the first bar behind its entry that
touches its stop or its target, the stop being looked at first; it is open at the end of the data if
there is none. -/
structure EndsFirst (df : Frame) (e : Entry) (i : ℕ) (x : Exit) : Prop where
  behind : i < x.exitI ∧ x.exitI < df.length
  untouched : ∀ j, i < j → j < x.exitI →
    ¬TouchesStop e.side e.sl (df.bar j) ∧ ¬TouchesTarget e.side e.tp (df.bar j)
  stop_iff : x.reason = .stop ↔ TouchesStop e.side e.sl (df.bar x.exitI)
  take_iff : x.reason = .take ↔ ¬TouchesStop e.side e.sl (df.bar x.exitI) ∧
    TouchesTarget e.side e.tp (df.bar x.exitI)
  price : (x.reason = .stop → x.price = e.sl) ∧ (x.reason = .take → x.price = e.tp)
  last : x.reason = .openAtEnd →
    x.exitI = df.length - 1 ∧ x.price = (df.bar (df.length - 1)).close

section

variable {df : Frame} {e : Entry} {i : ℕ}

theorem exitOn_eq_none {j : ℕ} {bar : Bar} :
    exitOn e j bar = none ↔
      ¬TouchesStop e.side e.sl bar ∧ ¬TouchesTarget e.side e.tp bar := by
  cases hside : e.side with
  | long =>
    simp only [exitOn, hside, TouchesStop, TouchesTarget]
    split_ifs <;> simp_all
  | short =>
    simp only [exitOn, hside, TouchesStop, TouchesTarget]
    split_ifs <;> simp_all

theorem exitOn_eq_some {j : ℕ} {bar : Bar} {x : Exit} (h : exitOn e j bar = some x) :
    (TouchesStop e.side e.sl bar ∧ x = ⟨j, e.sl, .stop⟩) ∨
      (¬TouchesStop e.side e.sl bar ∧ TouchesTarget e.side e.tp bar ∧ x = ⟨j, e.tp, .take⟩) := by
  cases hside : e.side with
  | long =>
    simp only [exitOn, hside] at h
    split_ifs at h with hstop htake
    · exact .inl ⟨hstop, (Option.some.inj h).symm⟩
    · exact .inr ⟨hstop, htake, (Option.some.inj h).symm⟩
  | short =>
    simp only [exitOn, hside] at h
    split_ifs at h with hstop htake
    · exact .inl ⟨hstop, (Option.some.inj h).symm⟩
    · exact .inr ⟨hstop, htake, (Option.some.inj h).symm⟩

theorem findSome?_range'_eq_some {α : Type*} {f : ℕ → Option α} {start n : ℕ} {a : α}
    (h : (List.range' start n).findSome? f = some a) :
    ∃ j, start ≤ j ∧ j < start + n ∧ f j = some a ∧ ∀ k, start ≤ k → k < j → f k = none := by
  induction n generalizing start with
  | zero => cases h
  | succ n ih =>
    rw [List.range'_succ, List.findSome?_cons] at h
    cases hfirst : f start with
    | some b =>
      rw [hfirst] at h
      exact ⟨start, le_rfl, by omega, hfirst.trans h, fun k hk hlt => by omega⟩
    | none =>
      rw [hfirst] at h
      obtain ⟨j, hj, hjn, hfound, hbefore⟩ := ih h
      refine ⟨j, by omega, by omega, hfound, fun k hk hlt => ?_⟩
      rcases Nat.eq_or_lt_of_le hk with rfl | hk
      · exact hfirst
      · exact hbefore k hk hlt

/-- **Where a trade ends.** -/
theorem exitFor_spec (hi : i + 1 < df.length) : EndsFirst df e i (exitFor df e i) := by
  rw [exitFor_eq, exitBy]
  cases hfirst : (List.range' (i + 1) (df.length - 1 - i)).findSome? fun j =>
      exitOn e j (df.bar j) with
  | none =>
    have huntouched : ∀ j, i < j → j < df.length →
        ¬TouchesStop e.side e.sl (df.bar j) ∧ ¬TouchesTarget e.side e.tp (df.bar j) := by
      intro j hj hlt
      exact exitOn_eq_none.mp (List.findSome?_eq_none_iff.mp hfirst j
        (List.mem_range'_1.mpr (by omega)))
    obtain ⟨hstop, htake⟩ := huntouched (df.length - 1) (by omega) (by omega)
    exact
      { behind := ⟨show i < df.length - 1 by omega, show df.length - 1 < df.length by omega⟩
        untouched := fun j hj hlt => huntouched j hj (hlt.trans (show df.length - 1 < _ by omega))
        stop_iff := iff_of_false (by simp) hstop
        take_iff := iff_of_false (by simp) fun h => htake h.2
        price := ⟨by simp, by simp⟩
        last := fun _ => ⟨rfl, rfl⟩ }
  | some x =>
    obtain ⟨j, hj, hjn, hx, hbefore⟩ := findSome?_range'_eq_some hfirst
    have huntouched : ∀ k, i < k → k < j →
        ¬TouchesStop e.side e.sl (df.bar k) ∧ ¬TouchesTarget e.side e.tp (df.bar k) :=
      fun k hk hlt => exitOn_eq_none.mp (hbefore k hk hlt)
    rcases exitOn_eq_some hx with ⟨hstop, rfl⟩ | ⟨hstop, htake, rfl⟩
    · exact
        { behind := ⟨hj, show j < df.length by omega⟩
          untouched := huntouched
          stop_iff := iff_of_true rfl hstop
          take_iff := iff_of_false (by simp) fun h => h.1 hstop
          price := ⟨fun _ => rfl, by simp⟩
          last := by simp }
    · exact
        { behind := ⟨hj, show j < df.length by omega⟩
          untouched := huntouched
          stop_iff := iff_of_false (by simp) hstop
          take_iff := iff_of_true rfl ⟨hstop, htake⟩
          price := ⟨by simp, fun _ => rfl⟩
          last := by simp }

end

/-! ## Sides and regimes -/

section

variable {df : Frame} {ind : Indicators} {enabled : List Indicator} {regime : Regime}
  {p : SimParams} {overlay : Option (List OverlayBar)} {i : ℕ}

/-- **The regime allows the side.** -/
theorem side_of_qualifiedSide {side : Side}
    (h : qualifiedSide df ind enabled regime i = some side) :
    (regime = .bear → side ≠ .long) ∧ (regime = .bull → side ≠ .short) := by
  rw [qualifiedSide] at h
  constructor
  · rintro rfl rfl
    cases hshort : (shortConditions (snapshotAt df ind i) enabled .bear).1 with
    | false =>
      rw [hshort] at h
      cases h
    | true =>
      rw [hshort] at h
      cases h
  · rintro rfl rfl
    cases hlong : (longConditions (snapshotAt df ind i) enabled .bull).1 with
    | false =>
      rw [hlong] at h
      cases h
    | true =>
      rw [hlong] at h
      cases h

theorem entryAt_spec {e : Entry} (h : entryAt df ind enabled p regime i = some e) :
    ∃ atr, (ind i).atr = some atr ∧ 0 < atr ∧
      qualifiedSide df ind enabled regime i = some e.side ∧
      e.entry = (df.bar i).close ∧
      e.sl = (stopFor df ind.atrSeries p.toStopParams i e.side e.entry atr).1 ∧
      e.tp = targetFor e.side e.entry e.sl p.rr ∧ e.regime = regime ∧
      p.sizer.calculatePositionSize e.entry (some e.sl) = .allowed (some e.size) := by
  simp only [entryAt] at h
  cases hatr : (snapshotAt df ind i).atr with
  | none =>
    rw [hatr] at h
    cases h
  | some atr =>
    rw [hatr] at h
    dsimp only at h
    by_cases hpos : atr ≤ 0
    · rw [if_pos hpos] at h
      cases h
    · rw [if_neg hpos] at h
      split at h
      · cases h
      · next side hside =>
        split at h
        · next size hsize =>
          cases h
          exact ⟨atr, hatr, not_le.mp hpos, hside, rfl, rfl, rfl, rfl, hsize⟩
        · cases h

end

/-! ## The schedule -/

def VwapTrade.toExit (t : VwapTrade) : Exit := ⟨t.exitI, t.exit, t.exitReason⟩

/-- **The schedule of the trades.**  A later trade is entered behind the exit of an earlier one and
the cooldown; every trade ends on the first bar behind its entry that touches its stop or its
target; and the active regime of its bar allows its side. -/
theorem simulateTrades_schedule (df : Frame) (ind : Indicators) (enabled : List Indicator)
    (regime : Regime) (p : SimParams) (overlay : Option (List OverlayBar)) :
    (simulateTrades df ind enabled regime p overlay).Pairwise
      (fun t u => t.entryI < t.exitI ∧ (t.exitI : ℤ) + max 1 p.cooldownBars ≤ u.entryI) ∧
    ∀ t ∈ simulateTrades df ind enabled regime p overlay,
      EndsFirst df t.toEntry t.entryI t.toExit ∧
      t.regime = activeRegime regime (overlayAt overlay t.entryI) ∧
      (t.regime = .bear → t.side ≠ .long) ∧ (t.regime = .bull → t.side ≠ .short) := by
  have hspec : ∀ t ∈ simulateTrades df ind enabled regime p overlay,
      EndsFirst df t.toEntry t.entryI t.toExit ∧
      t.regime = activeRegime regime (overlayAt overlay t.entryI) ∧
      (t.regime = .bear → t.side ≠ .long) ∧ (t.regime = .bull → t.side ≠ .short) := by
    intro t ht
    obtain ⟨i, e, hi, hentry, rfl⟩ := mem_simulateTrades ht
    obtain ⟨_, _, _, hside, _, _, _, hregime, _⟩ := entryAt_spec hentry
    refine ⟨exitFor_spec (show i + 1 < df.length by omega), hregime, ?_⟩
    rw [← hregime] at hside
    exact side_of_qualifiedSide hside
  refine ⟨?_, hspec⟩
  refine pairwise_run (fun i hi t ht j hj hjstop u hu => ?_) _ _
  rw [next_simulateBody (by omega) ht] at hj
  obtain ⟨e, _, rfl⟩ := item_simulateBody_eq_some.mp ht
  obtain ⟨_, _, rfl⟩ := item_simulateBody_eq_some.mp hu
  have hbehind : i < (exitFor df e i).exitI :=
    (exitFor_spec (show i + 1 < df.length by omega)).behind.1
  change i < (exitFor df e i).exitI ∧ ((exitFor df e i).exitI : ℤ) + max 1 p.cooldownBars ≤ j
  change (exitFor df e i).exitI + (max 1 p.cooldownBars).toNat ≤ j at hj
  omega

end Backtest

end AdviserConstructor
