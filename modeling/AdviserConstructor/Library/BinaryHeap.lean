import Mathlib.Data.List.Perm.Basic
import Mathlib.Data.List.Nodup

/-!
# An array heap, and what it keeps when the order does not

The binary heap of a priority queue, stored in a list in level order.  `push` appends and
sifts towards the root; `pop` takes the root, puts the last entry in its place and sifts
towards the leaves and back.  The comparison `lt` is an arbitrary boolean test.

The comparison is *not* assumed to be an order, nor to be the one the heap was built with.
A program that changes the sort keys of entries already inside its heap breaks the heap
order, and from then on nothing can be said about *which* entry `pop` returns.  What
survives is that no entry is lost or doubled:

* `push_perm`: pushing adds exactly the new entry;
* `pop_perm`: popping removes exactly the entry that it returns.

Both hold for every comparison, because sifting only ever exchanges two entries.
-/

namespace BinaryHeap

variable {α : Type*}

/-! ## Exchanging two entries -/

/-- Exchange the entries at `i` and `j`; out of range nothing happens. -/
def exchange (heap : List α) (i j : ℕ) : List α :=
  match heap[i]?, heap[j]? with
  | some x, some y => (heap.set i y).set j x
  | _, _ => heap

theorem exchange_perm (heap : List α) (i j : ℕ) : (exchange heap i j).Perm heap := by
  unfold exchange
  split
  · next x y hi hj =>
    obtain ⟨hi', rfl⟩ := List.getElem?_eq_some_iff.mp hi
    obtain ⟨hj', rfl⟩ := List.getElem?_eq_some_iff.mp hj
    exact List.set_set_perm hi' hj'
  · exact List.Perm.refl _

/-! ## Sifting -/

variable (lt : α → α → Bool)

/-- `lt` on the entries at two positions; `false` when one of them is out of range. -/
def ltAt (heap : List α) (i j : ℕ) : Bool :=
  match heap[i]?, heap[j]? with
  | some x, some y => lt x y
  | _, _ => false

/-- Move the entry at `pos` towards the root while it is smaller than its parent.  The fuel is
a bound on the depth. -/
def siftTowardsRoot : ℕ → List α → ℕ → List α
  | 0, heap, _ => heap
  | fuel + 1, heap, pos =>
      if 0 < pos ∧ ltAt lt heap pos ((pos - 1) / 2) = true then
        siftTowardsRoot fuel (exchange heap pos ((pos - 1) / 2)) ((pos - 1) / 2)
      else heap

theorem siftTowardsRoot_perm (fuel : ℕ) (heap : List α) (pos : ℕ) :
    (siftTowardsRoot lt fuel heap pos).Perm heap := by
  induction fuel generalizing heap pos with
  | zero => exact List.Perm.refl _
  | succ fuel ih =>
    rw [siftTowardsRoot]
    split
    · exact (ih _ _).trans (exchange_perm heap _ _)
    · exact List.Perm.refl _

/-- The child of `pos` to follow on the way down: the right one, unless the left one is
smaller or there is no right one. -/
def followedChild (heap : List α) (pos : ℕ) : ℕ :=
  if 2 * pos + 2 < heap.length ∧ ltAt lt heap (2 * pos + 1) (2 * pos + 2) = false then
    2 * pos + 2
  else 2 * pos + 1

/-- Move the entry at `pos` down to a leaf along the smaller children, then back up to where
it belongs. -/
def siftTowardsLeaves : ℕ → List α → ℕ → List α
  | 0, heap, pos => siftTowardsRoot lt heap.length heap pos
  | fuel + 1, heap, pos =>
      if 2 * pos + 1 < heap.length then
        siftTowardsLeaves fuel (exchange heap pos (followedChild lt heap pos))
          (followedChild lt heap pos)
      else siftTowardsRoot lt heap.length heap pos

theorem siftTowardsLeaves_perm (fuel : ℕ) (heap : List α) (pos : ℕ) :
    (siftTowardsLeaves lt fuel heap pos).Perm heap := by
  induction fuel generalizing heap pos with
  | zero => exact siftTowardsRoot_perm lt _ _ _
  | succ fuel ih =>
    rw [siftTowardsLeaves]
    split
    · exact (ih _ _).trans (exchange_perm heap _ _)
    · exact siftTowardsRoot_perm lt _ _ _

/-! ## Push and pop -/

/-- Append an entry and sift it towards the root. -/
def push (heap : List α) (x : α) : List α :=
  siftTowardsRoot lt heap.length (heap ++ [x]) heap.length

/-- Take the root out; the last entry takes its place and is sifted towards the leaves. -/
def pop (heap : List α) : Option (α × List α) :=
  match heap with
  | [] => none
  | [x] => some (x, [])
  | x :: y :: rest =>
      some (x, siftTowardsLeaves lt (rest.length + 1)
        ((y :: rest).getLast (List.cons_ne_nil y rest) :: (y :: rest).dropLast) 0)

/-- **Pushing adds exactly the new entry.** -/
theorem push_perm (heap : List α) (x : α) : (push lt heap x).Perm (x :: heap) :=
  (siftTowardsRoot_perm lt _ _ _).trans (List.perm_append_singleton x heap)

variable {heap rest : List α}

/-- **Popping removes exactly the entry it returns.** -/
theorem pop_perm {x : α} (h : pop lt heap = some (x, rest)) : heap.Perm (x :: rest) := by
  match heap, h with
  | [y], h =>
    simp only [pop, Option.some.injEq, Prod.mk.injEq] at h
    rw [h.1, ← h.2]
  | y :: z :: tail, h =>
    simp only [pop, Option.some.injEq, Prod.mk.injEq] at h
    obtain ⟨rfl, rfl⟩ := h
    refine List.Perm.cons y (List.Perm.symm ((siftTowardsLeaves_perm lt _ _ _).trans ?_))
    -- the last entry moves to the front of the others
    have hsplit := List.dropLast_append_getLast (List.cons_ne_nil z tail)
    conv_rhs => rw [← hsplit]
    exact (List.perm_append_singleton _ _).symm

theorem mem_push {x y : α} : y ∈ push lt heap x ↔ y = x ∨ y ∈ heap := by
  rw [(push_perm lt heap x).mem_iff, List.mem_cons]

theorem mem_of_pop {x : α} (h : pop lt heap = some (x, rest)) {y : α} :
    y ∈ heap ↔ y = x ∨ y ∈ rest := by
  rw [(pop_perm lt h).mem_iff, List.mem_cons]

theorem nodup_push {x : α} : (push lt heap x).Nodup ↔ x ∉ heap ∧ heap.Nodup := by
  rw [(push_perm lt heap x).nodup_iff, List.nodup_cons]

theorem nodup_of_pop {x : α} (h : pop lt heap = some (x, rest)) :
    heap.Nodup ↔ x ∉ rest ∧ rest.Nodup := by
  rw [(pop_perm lt h).nodup_iff, List.nodup_cons]

end BinaryHeap
