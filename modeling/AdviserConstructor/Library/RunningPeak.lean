import Mathlib.Algebra.Order.Field.Basic
import Mathlib.Data.List.Induction
import Mathlib.Order.Bounds.Basic
import Mathlib.Tactic.Common

/-!
# Falls below a running peak

A curve is a list of points.  How far it has fallen at a point is measured from the greatest point
up to there, as a share of it; the drawdown is the greatest such share, computed in one pass which
carries the peak so far.

* `isGreatest_drawdown`: the pass computes the greatest fall below a positive running peak, which is
  zero where there is none.
* `isGreatest_drops`: on a curve that is never negative this is the greatest fall of a point below
  any positive point before it.
-/

namespace AdviserConstructor

namespace RunningPeak

variable {K : Type*} [LinearOrder K]

/-! ## The peak -/

section

variable {points : List K} {point : K}

/-- The greatest of the points that the pass has seen. -/
def IsPeak (points : List K) : Option K → Prop
  | none => points = []
  | some p => p ∈ points ∧ ∀ x ∈ points, x ≤ p

theorem isPeak_concat {peak : Option K} (h : IsPeak points peak) :
    IsPeak (points ++ [point]) (some (peak.elim point fun peak => max peak point)) := by
  cases peak with
  | none =>
    obtain rfl : points = [] := h
    exact ⟨List.mem_singleton_self _, fun x hx => (List.mem_singleton.mp hx).le⟩
  | some p =>
    obtain ⟨hmem, hle⟩ := h
    refine ⟨?_, fun x hx => ?_⟩
    · show max p point ∈ points ++ [point]
      rcases max_choice p point with hmax | hmax
      · exact List.mem_append_left _ (hmax.symm ▸ hmem)
      · exact List.mem_append_right _ (List.mem_singleton.mpr hmax)
    · rcases List.mem_append.mp hx with hx | hx
      · exact (hle x hx).trans (le_max_left _ _)
      · exact (List.mem_singleton.mp hx) ▸ le_max_right _ _

end

/-! ## The falls -/

variable [Field K]

/-- One point of the pass: `peak` is the greatest point so far, `worst` the greatest fall. -/
def peakStep (state : Option K × K) (point : K) : Option K × K :=
  let peak := state.1.elim point fun peak => max peak point
  if peak ≤ 0 then (some peak, state.2) else (some peak, max state.2 ((peak - point) / peak))

/-- The greatest fall below the running peak. -/
def drawdown (points : List K) : K := (points.foldl peakStep (none, 0)).2

/-- The falls of a curve: `e` is a point of it, and `p` is the greatest of the points up to `e`, and
positive. -/
def falls (points : List K) : Set K :=
  {d | ∃ front e p, front ++ [e] <+: points ∧ p ∈ front ++ [e] ∧ (∀ x ∈ front ++ [e], x ≤ p) ∧
    0 < p ∧ d = (p - e) / p}

/-- The falls of the points of a curve below any positive point that is not behind them. -/
def drops (points : List K) : Set K :=
  {d | ∃ front e p, front ++ [e] <+: points ∧ p ∈ front ++ [e] ∧ 0 < p ∧ d = (p - e) / p}

variable {points : List K} {point d : K}

theorem mem_falls_concat : d ∈ falls (points ++ [point]) ↔ d ∈ falls points ∨
    ∃ p ∈ points ++ [point], (∀ x ∈ points ++ [point], x ≤ p) ∧ 0 < p ∧ d = (p - point) / p := by
  constructor
  · rintro ⟨front, e, p, hfront, hp, hpeak, hpos, rfl⟩
    rcases List.prefix_concat_iff.mp hfront with hwhole | hfront
    · obtain ⟨rfl, hlast⟩ := List.append_inj' hwhole rfl
      obtain rfl := List.singleton_inj.mp hlast
      exact .inr ⟨p, hp, hpeak, hpos, rfl⟩
    · exact .inl ⟨front, e, p, hfront, hp, hpeak, hpos, rfl⟩
  · rintro (⟨front, e, p, hfront, hrest⟩ | ⟨p, hp, hpeak, hpos, rfl⟩)
    · exact ⟨front, e, p, hfront.trans (List.prefix_append _ _), hrest⟩
    · exact ⟨points, point, p, List.prefix_refl _, hp, hpeak, hpos, rfl⟩

theorem foldl_peakStep (points : List K) :
    IsPeak points (points.foldl peakStep (none, 0)).1 ∧
      IsGreatest (insert 0 (falls points)) (points.foldl peakStep (none, 0)).2 := by
  induction points using List.reverseRecOn with
  | nil =>
    refine ⟨rfl, Set.mem_insert _ _, fun d hd => ?_⟩
    rcases hd with rfl | ⟨front, e, p, hfront, _⟩
    · exact le_rfl
    · exact absurd (List.prefix_nil.mp hfront) (List.append_ne_nil_of_right_ne_nil _ (by simp))
  | append_singleton points point ih =>
    obtain ⟨hpeak, hmem, hupper⟩ := ih
    rw [List.foldl_append, List.foldl_cons]
    generalize points.foldl peakStep (none, 0) = state at hpeak hmem hupper
    obtain ⟨peak, worst⟩ := state
    have hnext := @isPeak_concat K _ points point peak hpeak
    rw [peakStep]
    generalize peak.elim point (fun peak => max peak point) = next at hnext ⊢
    obtain ⟨hin, hle⟩ := hnext
    by_cases hnonpos : next ≤ 0
    · -- no point up to here is positive, so that nothing has fallen below one
      rw [if_pos hnonpos]
      refine ⟨⟨hin, hle⟩, ?_, fun d hd => ?_⟩
      · rcases hmem with hzero | hfall
        · exact .inl hzero
        · exact .inr (mem_falls_concat.mpr (.inl hfall))
      · rcases hd with hzero | hfall
        · exact hupper (.inl hzero)
        · rcases mem_falls_concat.mp hfall with hfall | ⟨p, hp, _, hpos, _⟩
          · exact hupper (.inr hfall)
          · exact absurd ((hle p hp).trans hnonpos) (not_le.mpr hpos)
    · rw [if_neg hnonpos]
      have hfall : (next - point) / next ∈ falls (points ++ [point]) :=
        mem_falls_concat.mpr (.inr ⟨next, hin, hle, not_le.mp hnonpos, rfl⟩)
      refine ⟨⟨hin, hle⟩, ?_, fun d hd => ?_⟩
      · rcases max_choice worst ((next - point) / next) with hmax | hmax
        · rw [hmax]
          rcases hmem with hzero | hbefore
          · exact .inl hzero
          · exact .inr (mem_falls_concat.mpr (.inl hbefore))
        · rw [hmax]
          exact .inr hfall
      · rcases hd with hzero | hd
        · exact (hupper (.inl hzero)).trans (le_max_left _ _)
        · rcases mem_falls_concat.mp hd with hbefore | ⟨p, hp, hpeak', _, rfl⟩
          · exact (hupper (.inr hbefore)).trans (le_max_left _ _)
          · obtain rfl := le_antisymm (hle p hp) (hpeak' next hin)
            exact le_max_right _ _

/-- **The drawdown** is the greatest fall below a positive running peak, zero where there is
none. -/
theorem isGreatest_drawdown (points : List K) :
    IsGreatest (insert 0 (falls points)) (drawdown points) := (foldl_peakStep points).2

theorem falls_subset_drops (points : List K) : falls points ⊆ drops points := by
  rintro d ⟨front, e, p, hfront, hp, _, hpos, rfl⟩
  exact ⟨front, e, p, hfront, hp, hpos, rfl⟩

variable [IsStrictOrderedRing K]

theorem exists_fall_ge (hnonneg : ∀ x ∈ points, 0 ≤ x) (hd : d ∈ drops points) :
    ∃ fall ∈ falls points, d ≤ fall := by
  obtain ⟨front, e, p, hfront, hp, hpos, rfl⟩ := hd
  obtain ⟨hpeak, -⟩ := foldl_peakStep (front ++ [e])
  cases hstate : ((front ++ [e]).foldl peakStep (none, 0)).1 with
  | none =>
    rw [hstate] at hpeak
    rw [show front ++ [e] = [] from hpeak] at hp
    cases hp
  | some top =>
    rw [hstate] at hpeak
    obtain ⟨htop, hle⟩ := hpeak
    have htop_pos : 0 < top := hpos.trans_le (hle p hp)
    have he : 0 ≤ e := hnonneg e (hfront.subset (List.mem_append_right _ List.mem_cons_self))
    refine ⟨(top - e) / top, ⟨front, e, top, hfront, htop, hle, htop_pos, rfl⟩, ?_⟩
    rw [sub_div, sub_div, div_self hpos.ne', div_self htop_pos.ne']
    exact sub_le_sub_left (div_le_div_of_nonneg_left he hpos (hle p hp)) 1

/-- **On a curve that is never negative** the drawdown is the greatest fall below any positive point
before. -/
theorem isGreatest_drops (hnonneg : ∀ x ∈ points, 0 ≤ x) :
    IsGreatest (insert 0 (drops points)) (drawdown points) := by
  obtain ⟨hmem, hupper⟩ := isGreatest_drawdown points
  refine ⟨Set.insert_subset_insert (falls_subset_drops points) hmem, fun d hd => ?_⟩
  rcases hd with hzero | hd
  · exact hupper (.inl hzero)
  · obtain ⟨fall, hfall, hle⟩ := exists_fall_ge hnonneg hd
    exact hle.trans (hupper (.inr hfall))

end RunningPeak

end AdviserConstructor
