import Mathlib.Data.List.Basic

/-!
# Numbered slots

A list as a table whose slots are numbered in the order in which they were made: a new slot is
appended, and a slot is replaced in its place.  What a slot of the new table holds is told from the
old one.

* `getElem?_concat_eq_some_iff`: behind an append.
* `getElem?_set_eq_some_iff`: behind a replacement.
* `countP_set_add`: what a replacement makes of a count.
* `mem_modify`, `exists_mem_set`, `exists_mem_eraseIdx`: what is in a table one of whose slots is
  changed, replaced or removed.
-/

namespace List

variable {α : Type*} {l : List α} {i j : ℕ} {a b : α}

/-- A slot of a table with one more is an old one or the last. -/
theorem getElem?_concat_eq_some_iff :
    (l ++ [a])[i]? = some b ↔ l[i]? = some b ∨ (i = l.length ∧ a = b) := by
  rw [List.getElem?_append]
  split
  · next hlt =>
    refine ⟨Or.inl, ?_⟩
    rintro (h | ⟨rfl, -⟩)
    · exact h
    · exact absurd hlt (Nat.lt_irrefl _)
  · next hge =>
    have hnone : l[i]? = none := List.getElem?_eq_none_iff.mpr (Nat.le_of_not_lt hge)
    rw [hnone, List.getElem?_singleton]
    constructor
    · intro h
      split at h
      · next hzero => exact Or.inr ⟨by omega, Option.some.inj h⟩
      · exact absurd h (Option.some_ne_none b).symm
    · rintro (h | ⟨rfl, rfl⟩)
      · exact absurd h (Option.some_ne_none b).symm
      · rw [if_pos (Nat.sub_self _)]

theorem getElem?_concat_of_some (h : l[i]? = some b) : (l ++ [a])[i]? = some b :=
  getElem?_concat_eq_some_iff.mpr (Or.inl h)

theorem lt_length_of_getElem? (h : l[i]? = some b) : i < l.length :=
  (List.getElem?_eq_some_iff.mp h).1

/-- A slot of a table in which one is replaced is the new one or another as it was. -/
theorem getElem?_set_eq_some_iff (hi : i < l.length) :
    (l.set i a)[j]? = some b ↔ (i = j ∧ a = b) ∨ (i ≠ j ∧ l[j]? = some b) := by
  rw [List.getElem?_set]
  split
  · next hij =>
    rw [Option.some.injEq]
    exact ⟨fun h => Or.inl ⟨hij, h⟩, fun h => h.elim And.right fun h => absurd hij h.1⟩
  · next hij =>
    exact ⟨fun h => Or.inr ⟨hij, h⟩, fun h => h.elim (fun h => absurd h.1 hij) And.right⟩

/-- A replacement takes the old slot out of a count and the new one in. -/
theorem countP_set_add {p : α → Bool} (h : l[i]? = some b) :
    (l.set i a).countP p + (if p b then 1 else 0) = l.countP p + (if p a then 1 else 0) := by
  induction l generalizing i with
  | nil => exact absurd h (Option.some_ne_none b).symm
  | cons c l ih =>
    cases i with
    | zero =>
      obtain rfl := Option.some.inj h
      rw [List.set_cons_zero, List.countP_cons, List.countP_cons]
      omega
    | succ i =>
      rw [List.set_cons_succ, List.countP_cons, List.countP_cons]
      have := ih h
      omega

/-! ## What is in a table -/

theorem mem_set_of_getElem? (h : l[i]? = some b) : a ∈ l.set i a :=
  List.mem_set (lt_length_of_getElem? h) a

theorem mem_modify {f : α → α} (h : a ∈ l.modify i f) : ∃ b ∈ l, a = b ∨ a = f b := by
  obtain ⟨j, hj⟩ := List.mem_iff_getElem?.mp h
  rw [List.getElem?_modify] at hj
  obtain ⟨old, hold, rfl⟩ := Option.map_eq_some_iff.mp hj
  refine ⟨old, List.mem_of_getElem? hold, ?_⟩
  by_cases hij : i = j
  · exact Or.inr (if_pos hij)
  · exact Or.inl (if_neg hij)

theorem eq_or_mem_set {x : α} (hold : l[i]? = some b) (hx : x ∈ l) : x = b ∨ x ∈ l.set i a := by
  obtain ⟨j, hj⟩ := List.mem_iff_getElem?.mp hx
  by_cases hij : i = j
  · exact Or.inl (Option.some.inj (hj.symm.trans (hij ▸ hold)))
  · refine Or.inr (List.mem_iff_getElem?.mpr ⟨j, ?_⟩)
    rw [List.getElem?_set_ne hij]
    exact hj

theorem exists_mem_set {P : α → Prop} (hold : l[i]? = some b) (hnew : P b → P a)
    (h : ∃ x ∈ l, P x) : ∃ x ∈ l.set i a, P x := by
  obtain ⟨x, hx, hP⟩ := h
  rcases eq_or_mem_set (a := a) hold hx with rfl | hkept
  · exact ⟨a, mem_set_of_getElem? hold, hnew hP⟩
  · exact ⟨x, hkept, hP⟩

theorem exists_mem_eraseIdx {P : α → Prop} (hold : l[i]? = some b) (hnot : ¬ P b)
    (h : ∃ x ∈ l, P x) : ∃ x ∈ l.eraseIdx i, P x := by
  obtain ⟨x, hx, hP⟩ := h
  obtain ⟨j, hj⟩ := List.mem_iff_getElem?.mp hx
  refine ⟨x, List.mem_eraseIdx_iff_getElem?.mpr ⟨j, ?_, hj⟩, hP⟩
  rintro rfl
  exact hnot (Option.some.inj (hold.symm.trans hj) ▸ hP)

end List
