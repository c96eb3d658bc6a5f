import Mathlib.Algebra.BigOperators.Group.List.Basic
import Mathlib.Algebra.Order.BigOperators.Group.List
import Mathlib.Algebra.Order.Field.Basic
import Mathlib.Tactic.FieldSimp
import Mathlib.Tactic.LinearCombination
import Mathlib.Tactic.Linarith
import Mathlib.Tactic.Positivity
import Mathlib.Tactic.Ring

/-!
# The score of a value in its own sample

A value is often judged by how many standard deviations it lies off the mean of a sample that it
belongs to itself.  Then it shifts the mean towards itself and widens the deviation, so that its
score is bounded by the size of the sample, however far off the value is.

Scores are compared by their squares, which are rational in the sample.

* `sq_le_variance`: the square of the last value's deviation is at most `m ^ 2 / (m + 1)` times the
  sample variance, where `m` is the number of the other values.
* `le_scoreSq_iff`: when the square of the score reaches a bound.
* `exists_forall_le_scoreSq_iff`: a value that is low enough reaches a bound exactly if the bound is
  below `m ^ 2 / (m + 1)`, or is that and the other values are all the same.
-/

namespace SampleScore

variable {K : Type*} [Field K]

def mean (xs : List K) : K := xs.sum / xs.length

/-- The sum of the squared deviations from the mean. -/
def sumSquares (xs : List K) : K := (xs.map fun x => (x - mean xs) ^ 2).sum

/-- The sample variance, with one degree of freedom less than there are values. -/
def variance (xs : List K) : K := sumSquares xs / (xs.length - 1)

/-- The squared score of the last value of a sample: its squared deviation by the variance. -/
def scoreSq (ys : List K) (x : K) : K := (x - mean (ys ++ [x])) ^ 2 / variance (ys ++ [x])

/-! ## One value more -/

theorem sum_sq_sub (xs : List K) (c : K) :
    (xs.map fun x => (x - c) ^ 2).sum =
      (xs.map fun x => x ^ 2).sum - 2 * c * xs.sum + xs.length * c ^ 2 := by
  induction xs with
  | nil => simp
  | cons x xs ih =>
    rw [List.map_cons, List.sum_cons, ih, List.map_cons, List.sum_cons, List.sum_cons,
      List.length_cons]
    push_cast
    ring

section

variable [LinearOrder K] [IsStrictOrderedRing K] {ys : List K} {x : K}

theorem length_pos (hys : ys ≠ []) : (0 : K) < ys.length :=
  Nat.cast_pos.mpr (List.length_pos_iff.mpr hys)

theorem sum_eq (hys : ys ≠ []) : ys.sum = ys.length * mean ys := by
  rw [mean]
  have := (length_pos hys).ne'
  field_simp

theorem sub_mean_append (hys : ys ≠ []) :
    x - mean (ys ++ [x]) = (x - mean ys) * (ys.length / (ys.length + 1)) := by
  have hsum := sum_eq hys
  rw [mean, List.sum_append, List.sum_singleton, hsum, List.length_append, List.length_singleton]
  push_cast
  field_simp
  ring

theorem sumSquares_append (hys : ys ≠ []) :
    sumSquares (ys ++ [x]) =
      sumSquares ys + (x - mean ys) ^ 2 * (ys.length / (ys.length + 1)) := by
  have hsum := sum_eq hys
  have hmean : mean (ys ++ [x]) = x - (x - mean ys) * (ys.length / (ys.length + 1)) := by
    rw [← sub_mean_append hys]
    ring
  rw [sumSquares, hmean, sumSquares, sum_sq_sub, sum_sq_sub, List.map_append, List.sum_append,
    List.sum_append, List.map_singleton, List.sum_singleton, List.sum_singleton, hsum,
    List.length_append, List.length_singleton]
  push_cast
  field_simp
  ring

theorem sumSquares_nonneg (xs : List K) : 0 ≤ sumSquares xs := by
  refine List.sum_nonneg fun a ha => ?_
  obtain ⟨x, -, rfl⟩ := List.mem_map.mp ha
  exact sq_nonneg _

theorem sumSquares_eq_zero_iff (xs : List K) : sumSquares xs = 0 ↔ ∀ x ∈ xs, x = mean xs := by
  have hall : ∀ a ∈ xs.map fun x => (x - mean xs) ^ 2, 0 ≤ a := by
    intro a ha
    obtain ⟨x, -, rfl⟩ := List.mem_map.mp ha
    exact sq_nonneg _
  constructor
  · intro hzero x hx
    have hsq := List.all_zero_of_le_zero_le_of_sum_eq_zero hall hzero (List.mem_map_of_mem hx)
    exact sub_eq_zero.mp (pow_eq_zero_iff two_ne_zero |>.mp hsq)
  · intro h
    refine List.sum_eq_zero fun a ha => ?_
    obtain ⟨x, hx, rfl⟩ := List.mem_map.mp ha
    rw [sub_eq_zero.mpr (h x hx), zero_pow two_ne_zero]

theorem forall_eq_mean_iff (hys : ys ≠ []) :
    (∀ y ∈ ys, y = mean ys) ↔ ∀ y ∈ ys, ∀ y' ∈ ys, y = y' := by
  constructor
  · intro h y hy y' hy'
    rw [h y hy, h y' hy']
  · intro h y hy
    have hreplicate : ys = List.replicate ys.length y :=
      List.eq_replicate_of_mem fun y' hy' => h y' hy' y hy
    have hm := (length_pos hys).ne'
    rw [mean, hreplicate, List.sum_replicate, List.length_replicate, nsmul_eq_mul]
    field_simp

theorem variance_append (hys : ys ≠ []) :
    variance (ys ++ [x]) =
      (sumSquares ys + (x - mean ys) ^ 2 * (ys.length / (ys.length + 1))) / ys.length := by
  rw [variance, sumSquares_append hys, List.length_append, List.length_singleton]
  push_cast
  ring

theorem variance_nonneg (hys : ys ≠ []) : 0 ≤ variance (ys ++ [x]) := by
  have hsum := sumSquares_nonneg ys
  rw [variance_append hys]
  positivity

/-! ## The bound -/

/-- **The bound.**  No value deviates from the mean of its own sample by more than this. -/
theorem sq_le_variance (hys : ys ≠ []) :
    (x - mean (ys ++ [x])) ^ 2 ≤ ys.length ^ 2 / (ys.length + 1) * variance (ys ++ [x]) := by
  rw [sub_mean_append hys, variance_append hys]
  have hsum := sumSquares_nonneg ys
  have hrest : (ys.length : K) ^ 2 / (ys.length + 1) *
      ((sumSquares ys + (x - mean ys) ^ 2 * (ys.length / (ys.length + 1))) / ys.length) =
        ((x - mean ys) * (ys.length / (ys.length + 1))) ^ 2 +
          ys.length / (ys.length + 1) * sumSquares ys := by
    field_simp
    ring
  have : 0 ≤ (ys.length : K) / (ys.length + 1) * sumSquares ys := by positivity
  linarith

theorem variance_pos (hys : ys ≠ []) (hx : x ≠ mean ys) : 0 < variance (ys ++ [x]) := by
  have hm := length_pos hys
  have hsum := sumSquares_nonneg ys
  rw [variance_append hys]
  positivity

/-- **When the score reaches a bound.** -/
theorem le_scoreSq_iff (hys : ys ≠ []) (hvar : 0 < variance (ys ++ [x])) (a : K) :
    a ≤ scoreSq ys x ↔
      a * (ys.length + 1) ^ 2 * sumSquares ys ≤
        ys.length * (x - mean ys) ^ 2 * (ys.length ^ 2 - a * (ys.length + 1)) := by
  have hm := length_pos hys
  rw [scoreSq, le_div_iff₀ hvar, sub_mean_append hys, variance_append hys]
  have hscale : (0 : K) < ys.length * (ys.length + 1) ^ 2 := by positivity
  rw [← mul_le_mul_iff_of_pos_left hscale]
  have hleft : ys.length * (ys.length + 1 : K) ^ 2 *
      (a * ((sumSquares ys + (x - mean ys) ^ 2 * (ys.length / (ys.length + 1))) / ys.length)) =
        a * (ys.length + 1) ^ 2 * sumSquares ys +
          a * (ys.length + 1) * (ys.length * (x - mean ys) ^ 2) := by
    field_simp
  have hright : ys.length * (ys.length + 1 : K) ^ 2 *
      ((x - mean ys) * (ys.length / (ys.length + 1))) ^ 2 =
        ys.length ^ 3 * (x - mean ys) ^ 2 := by
    field_simp
  rw [hleft, hright]
  constructor
  · intro h
    linear_combination h
  · intro h
    linear_combination h

/-! ## Values that are low enough -/

/-- **Values that are low enough** reach a bound exactly if it is below what the sample size allows
for, or equal to that while the other values are all the same. -/
theorem exists_forall_le_scoreSq_iff (hys : ys ≠ []) {a : K} (ha : 0 < a) :
    (∃ size, ∀ loss, size < loss →
        0 < variance (ys ++ [-loss]) ∧ a ≤ scoreSq ys (-loss)) ↔
      a * (ys.length + 1) < ys.length ^ 2 ∨
        a * (ys.length + 1) = ys.length ^ 2 ∧ ∀ y ∈ ys, y = mean ys := by
  have hm := length_pos hys
  have hsum := sumSquares_nonneg ys
  rw [← sumSquares_eq_zero_iff]
  constructor
  · rintro ⟨size, hsize⟩
    by_contra hnot
    rw [not_or, not_lt, not_and] at hnot
    -- a loss beyond the size that is off the mean of the others
    have hloss : size < max (size + 1) (1 - mean ys) :=
      lt_of_lt_of_le (lt_add_one size) (le_max_left ..)
    obtain ⟨hvar, hscore⟩ := hsize _ hloss
    rw [le_scoreSq_iff hys hvar] at hscore
    have hd : 0 < (-max (size + 1) (1 - mean ys) - mean ys) ^ 2 := by
      have hle := le_max_right (size + 1) (1 - mean ys)
      have hneg : -max (size + 1) (1 - mean ys) - mean ys < 0 := by linarith
      exact sq_pos_of_ne_zero hneg.ne
    rcases hnot.1.lt_or_eq with hlt | heq
    · have hright : ys.length * (-max (size + 1) (1 - mean ys) - mean ys) ^ 2 *
          ((ys.length : K) ^ 2 - a * (ys.length + 1)) < 0 :=
        mul_neg_of_pos_of_neg (by positivity) (by linarith)
      have hleft : 0 ≤ a * ((ys.length : K) + 1) ^ 2 * sumSquares ys := by positivity
      linarith
    · have hpos : 0 < sumSquares ys := lt_of_le_of_ne hsum (Ne.symm (hnot.2 heq.symm))
      have hleft : 0 < a * ((ys.length : K) + 1) ^ 2 * sumSquares ys := by positivity
      rw [heq, sub_self, mul_zero] at hscore
      exact absurd hscore (not_le.mpr hleft)
  · rintro (hlt | ⟨heq, hzero⟩)
    · set bound := a * (ys.length + 1) ^ 2 * sumSquares ys /
        (ys.length * ((ys.length : K) ^ 2 - a * (ys.length + 1))) with hbound
      have hbound0 : 0 ≤ bound := by positivity
      refine ⟨1 + bound - mean ys, fun loss hloss => ?_⟩
      have hvar : 0 < variance (ys ++ [-loss]) := variance_pos hys (by
        intro heq
        linarith)
      refine ⟨hvar, (le_scoreSq_iff hys hvar a).mpr ?_⟩
      have hsq : bound ≤ (-loss - mean ys) ^ 2 := by nlinarith
      rw [div_le_iff₀ (by positivity)] at hsq
      linarith
    · refine ⟨-mean ys, fun loss hloss => ?_⟩
      have hvar : 0 < variance (ys ++ [-loss]) := variance_pos hys (by
        intro heq
        linarith)
      refine ⟨hvar, (le_scoreSq_iff hys hvar a).mpr ?_⟩
      rw [hzero, heq, sub_self, mul_zero, mul_zero]

end

end SampleScore
