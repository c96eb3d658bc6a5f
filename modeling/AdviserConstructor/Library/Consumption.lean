import Mathlib.Algebra.BigOperators.Group.List.Basic
import Mathlib.Algebra.Order.Field.Basic
import Mathlib.Tactic.FieldSimp
import Mathlib.Tactic.Ring
import Mathlib.Tactic.Linarith

/-!
# Taking a quantity from a list of amounts

A quantity is taken from the entries of a list, each up to its amount, in order, until at most a
dust of it is missing.  All entries that are used are used in full, except the last one, from which
only what is missing is taken.

* `consume_cases`: either all entries used are used in full, or the last one has more than is
  missing.
* `sum_snd_consume_iff`: the quantity is taken exactly if the entries used have it.
* `sum_share_consume_iff`: when a figure counted in full agrees with its share: the quantity leaves
  nothing of the last entry, or the last entry has none of the figure.
-/

namespace Consumption

variable {α K : Type*} [Field K] [LinearOrder K]

def consume (dust : K) (amount : α → K) : K → List α → List (α × K)
  | _, [] => []
  | missing, a :: as =>
      if missing ≤ dust then []
      else (a, min (amount a) missing) :: consume dust amount (missing - min (amount a) missing) as

/-- The entries from which something is taken. -/
def used (dust : K) (amount : α → K) : K → List α → List α
  | _, [] => []
  | missing, a :: as => if missing ≤ dust then [] else a :: used dust amount (missing - amount a) as

/-- The total of a figure over what is taken, each entry counted in proportion. -/
def share (amount figure : α → K) (uses : List (α × K)) : K :=
  (uses.map fun u => figure u.1 * (u.2 / amount u.1)).sum

variable {dust missing : K} {amount figure : α → K} {as : List α}

theorem consume_of_le (h : missing ≤ dust) : consume dust amount missing as = [] := by
  cases as with
  | nil => rfl
  | cons a as => rw [consume, if_pos h]

theorem used_of_le (h : missing ≤ dust) : used dust amount missing as = [] := by
  cases as with
  | nil => rfl
  | cons a as => rw [used, if_pos h]

theorem prefix_used (dust : K) (amount : α → K) (missing : K) (as : List α) :
    used dust amount missing as <+: as := by
  induction as generalizing missing with
  | nil => exact List.prefix_refl _
  | cons a as ih =>
    rw [used]
    split
    · exact List.nil_prefix
    · exact List.cons_prefix_cons.mpr ⟨rfl, ih _⟩

variable [IsStrictOrderedRing K]

/-- **The last entry is the only one that may be used in part.** -/
theorem consume_cases (amount : α → K) (hdust : 0 ≤ dust) (hmissing : 0 ≤ missing) (as : List α) :
    (consume dust amount missing as =
        (used dust amount missing as).map (fun a => (a, amount a)) ∧
      ((used dust amount missing as).map amount).sum ≤ missing) ∨
    ∃ front last, used dust amount missing as = front ++ [last] ∧
      missing < ((used dust amount missing as).map amount).sum ∧
      0 < missing - (front.map amount).sum ∧
      consume dust amount missing as =
        front.map (fun a => (a, amount a)) ++ [(last, missing - (front.map amount).sum)] := by
  induction as generalizing missing with
  | nil => exact .inl ⟨rfl, by simpa [used] using hmissing⟩
  | cons a as ih =>
    by_cases hdone : missing ≤ dust
    · rw [consume_of_le hdone, used_of_le hdone]
      exact .inl ⟨rfl, by simpa using hmissing⟩
    rw [consume, used, if_neg hdone, if_neg hdone]
    rcases le_or_gt (amount a) missing with hle | hlt
    · -- the entry is used in full, and the rest of the list goes on
      rw [min_eq_left hle]
      rcases ih (sub_nonneg.mpr hle) with
        ⟨hconsume, hsum⟩ | ⟨front, last, hused, hlt, hpos, hconsume⟩
      · refine .inl ⟨by rw [hconsume, List.map_cons], ?_⟩
        rw [List.map_cons, List.sum_cons]
        linarith
      · refine .inr ⟨a :: front, last, by rw [hused, List.cons_append], ?_, ?_, ?_⟩
        · rw [List.map_cons, List.sum_cons]
          linarith
        · rw [List.map_cons, List.sum_cons]
          linarith
        · rw [hconsume, List.map_cons, List.map_cons, List.sum_cons, List.cons_append, sub_sub]
    · -- the entry has more than is missing, and nothing is taken behind it
      rw [min_eq_right hlt.le, sub_self, consume_of_le hdust,
        used_of_le (by linarith : missing - amount a ≤ dust)]
      refine .inr ⟨[], a, rfl, ?_, ?_, ?_⟩
      · simpa using hlt
      · simpa using lt_of_le_of_lt hdust (not_le.mp hdone)
      · simp

theorem map_fst_consume (amount : α → K) (hdust : 0 ≤ dust) (hmissing : 0 ≤ missing) (as : List α) :
    (consume dust amount missing as).map Prod.fst = used dust amount missing as := by
  rcases consume_cases amount hdust hmissing as with
    ⟨hconsume, -⟩ | ⟨front, last, hused, -, -, hconsume⟩
  · rw [hconsume, List.map_map]
    exact List.map_id _
  · rw [hconsume, hused, List.map_append, List.map_map]
    exact congrArg (· ++ [last]) (List.map_id _)

/-- **The quantity is taken** exactly if the entries used have it. -/
theorem sum_snd_consume_iff (hdust : 0 ≤ dust) (hmissing : 0 ≤ missing) (as : List α) :
    ((consume dust amount missing as).map Prod.snd).sum = missing ↔
      missing ≤ ((used dust amount missing as).map amount).sum := by
  rcases consume_cases amount hdust hmissing as with
    ⟨hconsume, hle⟩ | ⟨front, last, -, hlt, -, hconsume⟩
  · rw [hconsume, List.map_map]
    exact ⟨fun h => h.ge, fun h => le_antisymm hle h⟩
  · refine iff_of_true ?_ hlt.le
    rw [hconsume, List.map_append, List.map_map, List.sum_append, List.map_singleton,
      List.sum_singleton]
    exact add_sub_cancel _ _

theorem sum_figure_consume (hdust : 0 ≤ dust) (hmissing : 0 ≤ missing) (figure : α → K)
    (as : List α) :
    ((consume dust amount missing as).map fun u => figure u.1).sum =
      ((used dust amount missing as).map figure).sum := by
  rw [← map_fst_consume amount hdust hmissing as, List.map_map]
  rfl

/-- **A figure counted in full agrees with its share** exactly if nothing is left of the last entry
used, or it has none of the figure. -/
theorem sum_share_consume_iff (hdust : 0 ≤ dust) (hmissing : 0 ≤ missing)
    (hamount : ∀ a ∈ as, amount a ≠ 0) :
    ((consume dust amount missing as).map fun u => figure u.1).sum =
        share amount figure (consume dust amount missing as) ↔
      ((used dust amount missing as).map amount).sum ≤ missing ∨
        ∀ last ∈ (used dust amount missing as).getLast?, figure last = 0 := by
  have hfull : ∀ front : List α, front ⊆ as →
      (front.map fun a => figure a * (amount a / amount a)).sum = (front.map figure).sum := by
    intro front hsub
    congr 1
    refine List.map_congr_left fun a ha => ?_
    rw [div_self (hamount a (hsub ha)), mul_one]
  have hsub := (prefix_used dust amount missing as).subset
  rw [sum_figure_consume hdust hmissing figure as, share]
  rcases consume_cases amount hdust hmissing as with
    ⟨hconsume, hle⟩ | ⟨front, last, hused, hlt, -, hconsume⟩
  · refine iff_of_true ?_ (.inl hle)
    rw [hconsume, List.map_map]
    exact (hfull _ hsub).symm
  · have hlast : last ∈ as := hsub (hused ▸ List.mem_append_right _ (List.mem_singleton_self last))
    have hpos := hamount last hlast
    rw [hused, List.map_append, List.sum_append, List.map_singleton, List.sum_singleton] at hlt
    rw [hconsume, hused, List.map_append, List.map_append, List.sum_append, List.sum_append,
      List.map_map, List.map_singleton, List.map_singleton, List.sum_singleton, List.sum_singleton]
    have hfront : (front.map ((fun u : α × K => figure u.1 * (u.2 / amount u.1)) ∘
        fun a => (a, amount a))).sum = (front.map figure).sum :=
      hfull front fun a ha => hsub (hused ▸ List.mem_append_left _ ha)
    rw [hfront, add_right_inj, List.map_append, List.sum_append, List.map_singleton,
      List.sum_singleton]
    rw [or_iff_right (not_le.mpr hlt)]
    -- what the last entry has beyond its part is a positive multiple of its figure
    have hrest : figure last - figure last * ((missing - (front.map amount).sum) / amount last) =
        figure last * (((front.map amount).sum + amount last - missing) / amount last) := by
      field_simp
      ring
    rw [← sub_eq_zero, hrest, mul_eq_zero]
    have hne : (front.map amount).sum + amount last - missing ≠ 0 := (sub_pos.mpr hlt).ne'
    simp [hne, hpos]

end Consumption
