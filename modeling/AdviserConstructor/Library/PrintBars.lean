import Mathlib.Algebra.Order.Ring.Int
import Mathlib.Data.List.Basic
import Mathlib.Tactic.Ring

/-!
# Bars of a tape

A tape is a record of prints, each with the time at which it was traded.  A bar has the prints of
one interval of a fixed width, and is often looked up by the time at which it opens.  What it has is
only known when it ends: two tapes that are the same up to a time may differ in the bar that the
time falls into.

The times are integers, so that there is a next one.

* `members_congr`: a bar that has ended is the same for all tapes that agree so far.
* `getLast?_members_extend`: the bar of a time that has not ended can end with any value.
* `ended_iff`: the bar that a time falls into has ended exactly if that is the last time in it.
-/

namespace PrintBars

/-- Prints in the order of their times. -/
structure Tape (α : Type*) where
  prints : List (ℤ × α)
  ordered : prints.Pairwise fun p q => p.1 ≤ q.1

variable {α : Type*}

namespace Tape

def upTo (s : Tape α) (t : ℤ) : List (ℤ × α) := s.prints.filter fun p => p.1 ≤ t

/-- The prints of a bar, as far as they were there at a time. -/
def members (width : ℤ) (s : Tape α) (k now : ℤ) : List (ℤ × α) :=
  s.prints.filter fun p => k * width ≤ p.1 ∧ p.1 < (k + 1) * width ∧ p.1 ≤ now

def before (width : ℤ) (s : Tape α) (k : ℤ) : List (ℤ × α) :=
  s.prints.filter fun p => p.1 < k * width

/-- The tape up to a time, and one print at the next. -/
def extend (s : Tape α) (t : ℤ) (a : α) : Tape α where
  prints := s.upTo t ++ [(t + 1, a)]
  ordered := by
    refine List.pairwise_append.mpr
      ⟨s.ordered.filter _, List.pairwise_singleton _ _, fun p hp q hq => ?_⟩
    have hle : p.1 ≤ t := of_decide_eq_true (List.mem_filter.mp hp).2
    rw [List.mem_singleton.mp hq]
    show p.1 ≤ t + 1
    omega

end Tape

def Ended (width k t : ℤ) : Prop := (k + 1) * width ≤ t + 1

section

variable {width k t now now' : ℤ} {s s' : Tape α} {a : α}

/-! ## Bars that have ended -/

theorem members_of_ended (hended : Ended width k t) (hnow : t ≤ now) :
    s.members width k now =
      (s.upTo t).filter fun p => k * width ≤ p.1 ∧ p.1 < (k + 1) * width := by
  rw [Tape.upTo, List.filter_filter]
  refine List.filter_congr fun p _ => ?_
  rw [Bool.eq_iff_iff, Bool.and_eq_true, decide_eq_true_eq, decide_eq_true_eq, decide_eq_true_eq]
  unfold Ended at hended
  constructor
  · rintro ⟨hfrom, hto, -⟩
    exact ⟨⟨hfrom, hto⟩, by omega⟩
  · rintro ⟨⟨hfrom, hto⟩, hle⟩
    exact ⟨hfrom, hto, by omega⟩

/-- **A bar that has ended** is the same for all tapes that agree so far. -/
theorem members_congr (hended : Ended width k t) (hagree : s.upTo t = s'.upTo t) (hnow : t ≤ now)
    (hnow' : t ≤ now') : s.members width k now = s'.members width k now' := by
  rw [members_of_ended hended hnow, members_of_ended hended hnow', hagree]

theorem before_congr (hopen : k * width ≤ t + 1) (hagree : s.upTo t = s'.upTo t) :
    s.before width k = s'.before width k := by
  have hbefore : ∀ s : Tape α,
      s.before width k = (s.upTo t).filter fun p => p.1 < k * width := by
    intro s
    rw [Tape.upTo, List.filter_filter]
    refine List.filter_congr fun p _ => ?_
    rw [Bool.eq_iff_iff, Bool.and_eq_true, decide_eq_true_eq, decide_eq_true_eq]
    constructor
    · exact fun hlt => ⟨hlt, by omega⟩
    · exact And.left
  rw [hbefore s, hbefore s', hagree]

/-! ## Bars that have not -/

theorem upTo_extend : (s.extend t a).upTo t = s.upTo t := by
  have hall : (s.upTo t).filter (fun p => p.1 ≤ t) = s.upTo t :=
    List.filter_eq_self.mpr fun p hp => (List.mem_filter.mp hp).2
  have hnone : [(t + 1, a)].filter (fun p => p.1 ≤ t) = [] := by
    rw [List.filter_cons_of_neg (by simp), List.filter_nil]
  show (s.upTo t ++ [(t + 1, a)]).filter (fun p => p.1 ≤ t) = _
  rw [List.filter_append, hall, hnone, List.append_nil]

theorem members_extend (hended : Ended width k t) (hnow : t ≤ now) :
    (s.extend t a).members width k now = s.members width k now :=
  members_congr hended upTo_extend hnow hnow

/-- **The bar of the next time** ends with whatever is printed then. -/
theorem getLast?_members_extend (hfrom : k * width ≤ t + 1) (hto : t + 1 < (k + 1) * width)
    (hnow : t + 1 ≤ now) : ((s.extend t a).members width k now).getLast? = some (t + 1, a) := by
  show ((s.upTo t ++ [(t + 1, a)]).filter _).getLast? = _
  rw [List.filter_append, List.filter_cons_of_pos, List.filter_nil, List.getLast?_concat]
  rw [decide_eq_true_eq]
  exact ⟨hfrom, hto, hnow⟩

/-! ## The bar of a time -/

theorem div_mul_le (hwidth : 0 < width) (t : ℤ) : t / width * width ≤ t :=
  Int.ediv_mul_le t hwidth.ne'

theorem lt_div_add_one_mul (hwidth : 0 < width) (t : ℤ) : t < (t / width + 1) * width :=
  Int.lt_ediv_add_one_mul_self t hwidth

/-- **The bar of a time** has ended exactly if that is its last time. -/
theorem ended_iff (hwidth : 0 < width) : Ended width (t / width) t ↔ t % width = width - 1 := by
  have hlt := Int.emod_lt_of_pos t hwidth
  have hsplit := Int.emod_add_mul_ediv t width
  have hcomm : (t / width + 1) * width = width * (t / width) + width := by ring
  rw [Ended]
  omega

theorem ended_of_le (hwidth : 0 < width) (hlast : t % width = width - 1) (hopen : k * width ≤ t) :
    Ended width k t := by
  have hk : k ≤ t / width := (Int.le_ediv_iff_mul_le hwidth).mpr hopen
  have hend : (t / width + 1) * width ≤ t + 1 := (ended_iff hwidth).mpr hlast
  exact (Int.mul_le_mul_of_nonneg_right (by omega) hwidth.le).trans hend

end

end PrintBars
