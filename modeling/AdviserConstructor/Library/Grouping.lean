import AdviserConstructor.Library.InsertionDict
import Mathlib.Algebra.BigOperators.Group.List.Basic

/-!
# Grouping a list by a key

`groups key as` is the dictionary that a loop `d.setdefault(key(a), []).append(a)` builds: one group
for each key that occurs, in the order in which the keys occur first, each with its elements in the
order of the list.

* `mem_groups_iff`: the group of a key has the elements with that key.
* `flatMap_groups_perm`: the groups together have the elements of the list, each as often as the
  list has it; `sum_groups` is the same for a sum.
* `sum_eq_add_sum_others`: a sum over groups, with one of them taken apart.
-/

namespace Grouping

open InsertionDict

variable {κ α : Type*} [DecidableEq κ]

/-- `d.setdefault(key(a), []).append(a)`. -/
def insertGroup (key : α → κ) (d : InsertionDict κ (List α)) (a : α) : InsertionDict κ (List α) :=
  d.assign (key a) (d.getD (key a) [] ++ [a])

/-- The elements of a list, grouped by a key. -/
def groups (key : α → κ) (as : List α) : InsertionDict κ (List α) :=
  as.foldl (insertGroup key) empty

variable {key : α → κ} {as : List α} {k : κ} {g : List α}

@[simp] theorem groups_nil : groups key ([] : List α) = empty := rfl

theorem groups_concat (as : List α) (a : α) :
    groups key (as ++ [a]) = insertGroup key (groups key as) a := by
  rw [groups, List.foldl_append]
  rfl

/-- **The group of a key** has the elements with that key. -/
theorem mem_groups_iff :
    (k, g) ∈ (groups key as).entries ↔ g = as.filter (key · = k) ∧ g ≠ [] := by
  induction as using List.reverseRecOn generalizing k g with
  | nil =>
    exact iff_of_false List.not_mem_nil fun h => h.2 h.1
  | append_singleton as a ih =>
    have hget : (groups key as).getD (key a) [] = as.filter (key · = key a) := by
      rw [getD]
      cases hold : (groups key as).get? (key a) with
      | none =>
        -- no group yet, so no element has the key
        by_contra hne
        exact get?_eq_none_iff.mp hold _ (ih.mpr ⟨rfl, Ne.symm hne⟩)
      | some old => exact (ih.mp (get?_eq_some_iff.mp hold)).1
    rw [groups_concat, insertGroup, mem_assign, hget, List.filter_append]
    by_cases hk : k = key a
    · subst hk
      rw [List.filter_cons_of_pos (by simp)]
      constructor
      · rintro (⟨-, rfl⟩ | ⟨hne, -⟩)
        · exact ⟨rfl, List.append_ne_nil_of_right_ne_nil _ (List.cons_ne_nil _ _)⟩
        · exact absurd rfl hne
      · exact fun h => .inl ⟨rfl, h.1⟩
    · have hka : key a ≠ k := Ne.symm hk
      simp [hk, hka, ih]

theorem filter_of_mem_groups (h : (k, g) ∈ (groups key as).entries) :
    g = as.filter (key · = k) :=
  (mem_groups_iff.mp h).1

theorem group_of_mem {a : α} (h : a ∈ as) :
    (key a, as.filter (key · = key a)) ∈ (groups key as).entries := by
  refine mem_groups_iff.mpr ⟨rfl, List.ne_nil_of_mem (List.mem_filter.mpr ⟨h, ?_⟩)⟩
  exact decide_eq_true rfl

/-! ## All groups together -/

theorem overwrite_of_not_mem {v : List α} {entries : List (κ × List α)}
    (h : k ∉ entries.map Prod.fst) : overwrite k v entries = entries := by
  conv_rhs => rw [← List.map_id entries]
  refine List.map_congr_left fun e he => ?_
  rw [if_neg fun hk => h (List.mem_map.mpr ⟨e, he, hk⟩)]
  rfl

theorem flatMap_overwrite_perm {old : List α} (a : α) {entries : List (κ × List α)}
    (hnodup : (entries.map Prod.fst).Nodup) (h : (k, old) ∈ entries) :
    ((overwrite k (old ++ [a]) entries).flatMap Prod.snd).Perm
      (entries.flatMap Prod.snd ++ [a]) := by
  induction entries with
  | nil => exact absurd h List.not_mem_nil
  | cons e entries ih =>
    rw [List.map_cons, List.nodup_cons] at hnodup
    obtain ⟨hfresh, hnodup⟩ := hnodup
    rcases List.mem_cons.mp h with rfl | h
    · -- the group is the first one, and the others stay
      have hsame : overwrite k (old ++ [a]) ((k, old) :: entries) =
          (k, old ++ [a]) :: overwrite k (old ++ [a]) entries := by
        simp [overwrite]
      rw [hsame, overwrite_of_not_mem hfresh, List.flatMap_cons, List.flatMap_cons,
        List.append_assoc, List.append_assoc]
      exact List.perm_append_comm.append_left old
    · have hne : e.1 ≠ k := fun hk =>
        hfresh (List.mem_map.mpr ⟨(k, old), h, hk.symm⟩)
      have hsame : overwrite k (old ++ [a]) (e :: entries) =
          e :: overwrite k (old ++ [a]) entries := by
        simp [overwrite, hne]
      rw [hsame, List.flatMap_cons, List.flatMap_cons, List.append_assoc]
      exact (ih hnodup h).append_left e.2

/-- **The groups together** have the elements of the list. -/
theorem flatMap_groups_perm (key : α → κ) (as : List α) :
    ((groups key as).entries.flatMap Prod.snd).Perm as := by
  induction as using List.reverseRecOn with
  | nil => exact List.Perm.refl _
  | append_singleton as a ih =>
    rw [groups_concat, insertGroup, getD]
    cases hold : (groups key as).get? (key a) with
    | none =>
      have hfresh : key a ∉ (groups key as).entries.map Prod.fst := by
        intro hmem
        obtain ⟨⟨k, g⟩, hentry, rfl⟩ := List.mem_map.mp hmem
        exact get?_eq_none_iff.mp hold g hentry
      rw [entries_assign_of_not_mem _ hfresh, List.flatMap_append]
      exact ih.append_right [a]
    | some old =>
      have hentry := get?_eq_some_iff.mp hold
      rw [entries_assign_of_mem _ (List.mem_map.mpr ⟨_, hentry, rfl⟩)]
      exact (flatMap_overwrite_perm a (groups key as).nodup_keys hentry).trans (ih.append_right [a])

section Sums

variable {M : Type*} [AddCommMonoid M]

/-- A sum over the list is the sum over its groups. -/
theorem sum_groups (key : α → κ) (f : α → M) (as : List α) :
    ((groups key as).entries.map fun e => (e.2.map f).sum).sum = (as.map f).sum := by
  rw [← ((flatMap_groups_perm key as).map f).sum_eq]
  induction (groups key as).entries with
  | nil => rfl
  | cons e entries ih =>
    rw [List.map_cons, List.sum_cons, ih, List.flatMap_cons, List.map_append, List.sum_append]

/-- **A sum over groups**, with one group taken apart. -/
theorem sum_eq_add_sum_others (w : κ × List α → M) {entries : List (κ × List α)}
    (hnodup : (entries.map Prod.fst).Nodup) (h : (k, g) ∈ entries) :
    (entries.map w).sum = w (k, g) + ((entries.filter (·.1 ≠ k)).map w).sum := by
  induction entries with
  | nil => exact absurd h List.not_mem_nil
  | cons e entries ih =>
    rw [List.map_cons, List.nodup_cons] at hnodup
    obtain ⟨hfresh, hnodup⟩ := hnodup
    rcases List.mem_cons.mp h with rfl | h
    · have hothers : entries.filter (·.1 ≠ k) = entries := by
        refine List.filter_eq_self.mpr fun e he => ?_
        exact decide_eq_true fun hk => hfresh (List.mem_map.mpr ⟨e, he, hk⟩)
      rw [List.filter_cons_of_neg (by simp), hothers, List.map_cons, List.sum_cons]
    · have hne : e.1 ≠ k := fun hk => hfresh (List.mem_map.mpr ⟨(k, g), h, hk.symm⟩)
      rw [List.filter_cons_of_pos (by simpa using hne), List.map_cons, List.map_cons,
        List.sum_cons, ih hnodup h]
      exact add_left_comm ..

end Sums

theorem groups_of_one_key (hsome : as ≠ []) (h : ∀ a ∈ as, key a = k) :
    (groups key as).entries = [(k, as)] := by
  induction as using List.reverseRecOn with
  | nil => exact absurd rfl hsome
  | append_singleton as a ih =>
    have ha : key a = k := h a (by simp)
    rw [groups_concat, insertGroup, ha]
    by_cases has : as = []
    · subst has
      rfl
    · have hentries := ih has fun b hb => h b (List.mem_append_left _ hb)
      have hmem : (k, as) ∈ (groups key as).entries := by
        rw [hentries]
        exact List.mem_singleton_self _
      rw [getD, get?_eq_some_iff.mpr hmem, entries_assign_of_mem _ (List.mem_map.mpr ⟨_, hmem,
        rfl⟩), hentries, overwrite]
      simp

end Grouping
