import Mathlib.Data.List.Sort

/-!
# Interleavings

A list that is made of two others, each in its own order, and what can be said of it from the two.

* `Interleaved.map`, `Interleaved.filter`: what is done entry by entry is done to both.
* `interleaved_insertionSort`: a stable sort of two lists, one behind the other, interleaves the
  sorted lists.
-/

namespace List

variable {α β : Type*}

/-- The third list is made of the entries of the first two, those of each in their order. -/
inductive Interleaved : List α → List α → List α → Prop
  | nil : Interleaved [] [] []
  | left (a : α) {xs ys zs : List α} (rest : Interleaved xs ys zs) :
      Interleaved (a :: xs) ys (a :: zs)
  | right (a : α) {xs ys zs : List α} (rest : Interleaved xs ys zs) :
      Interleaved xs (a :: ys) (a :: zs)

namespace Interleaved

variable {xs ys zs : List α}

theorem of_right : ∀ ys : List α, Interleaved [] ys ys
  | [] => .nil
  | a :: ys => .right a (of_right ys)

theorem subset_left (h : Interleaved xs ys zs) : xs ⊆ zs := by
  induction h with
  | nil => exact List.Subset.refl _
  | left a _ ih => exact List.cons_subset_cons a ih
  | right a _ ih => exact fun b hb => List.mem_cons_of_mem a (ih hb)

theorem map (f : α → β) (h : Interleaved xs ys zs) :
    Interleaved (xs.map f) (ys.map f) (zs.map f) := by
  induction h with
  | nil => exact .nil
  | left a _ ih => exact .left (f a) ih
  | right a _ ih => exact .right (f a) ih

theorem filter (p : α → Bool) (h : Interleaved xs ys zs) :
    Interleaved (xs.filter p) (ys.filter p) (zs.filter p) := by
  induction h with
  | nil => exact .nil
  | left a _ ih =>
    rw [List.filter_cons, List.filter_cons]
    split
    · exact .left a ih
    · exact ih
  | right a _ ih =>
    rw [List.filter_cons, List.filter_cons]
    split
    · exact .right a ih
    · exact ih

variable {r : α → α → Prop} [DecidableRel r] [IsTrans α r]

theorem orderedInsert (a : α) (h : Interleaved xs ys zs) (hsorted : zs.Pairwise r) :
    Interleaved (xs.orderedInsert r a) ys (zs.orderedInsert r a) := by
  induction h with
  | nil => exact .left a .nil
  | @left b xs ys zs rest ih =>
    rw [List.orderedInsert_cons, List.orderedInsert_cons]
    split
    · exact .left a (.left b rest)
    · exact .left b (ih hsorted.of_cons)
  | @right b xs ys zs rest ih =>
    rw [List.orderedInsert_cons]
    split
    · next hab =>
      -- the entries of the first list are all behind `b`
      have hfront : xs.orderedInsert r a = a :: xs := by
        cases xs with
        | nil => rfl
        | cons x xs =>
          refine List.orderedInsert_cons_of_le r xs ?_
          exact IsTrans.trans _ _ _ hab (List.rel_of_pairwise_cons hsorted
            (rest.subset_left List.mem_cons_self))
      rw [hfront]
      exact .left a (.right b rest)
    · exact .right b (ih hsorted.of_cons)

end Interleaved

/-- **A stable sort** of two lists, one behind the other, interleaves the sorted lists. -/
theorem interleaved_insertionSort {r : α → α → Prop} [DecidableRel r] [IsTrans α r]
    [Std.Total r] (xs ys : List α) :
    Interleaved (xs.insertionSort r) (ys.insertionSort r) ((xs ++ ys).insertionSort r) := by
  induction xs with
  | nil => exact .of_right _
  | cons a xs ih =>
    exact ih.orderedInsert a (List.pairwise_insertionSort r _)

end List
