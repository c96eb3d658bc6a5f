import Mathlib.Data.Nat.Basic
import Mathlib.Logic.Equiv.Basic
import Mathlib.Order.Basic
import AdviserConstructor.Library.BinaryHeap

/-!
# The order of an array heap

What the heap of `BinaryHeap` keeps when the comparison is a strict weak order: no entry is
smaller than its parent.  Sifting repairs the one place where this may fail; on the way there the
entries around that place stand in order with one another.

* `push_ordered`, `pop_ordered`: pushing and popping keep the order.
* `pop_minimal`: popping an ordered heap returns an entry that no other one is smaller than.
* `Ordered.congr`: the order survives a change of the comparison that respects every parent and
  child.
-/

namespace BinaryHeap

variable {α : Type*} {lt lt' : α → α → Bool} {heap : List α}

/-! ## Ordered heaps -/

/-- The comparison is a strict weak order. -/
structure StrictWeak (lt : α → α → Bool) : Prop where
  asymm : ∀ {x y}, lt x y = true → lt y x = false
  trans_false : ∀ {x y z}, lt y x = false → lt z y = false → lt z x = false

/-- The entry at `j` is not smaller than the one at `i`. -/
def Above (lt : α → α → Bool) (heap : List α) (i j : ℕ) : Prop :=
  ∀ x y, heap[i]? = some x → heap[j]? = some y → lt y x = false

/-- No entry is smaller than its parent. -/
def Ordered (lt : α → α → Bool) (heap : List α) : Prop :=
  ∀ i, 0 < i → Above lt heap ((i - 1) / 2) i

theorem ordered_nil : Ordered lt ([] : List α) := by
  intro i _ x y hx
  simp at hx

variable {i j p : ℕ}

theorem Above.trans (weak : StrictWeak lt) {k : ℕ} (hj : j < heap.length) (hij : Above lt heap i j)
    (hjk : Above lt heap j k) : Above lt heap i k := by
  intro x z hx hz
  have hy : heap[j]? = some heap[j] := List.getElem?_eq_getElem hj
  exact weak.trans_false (hij _ _ hx hy) (hjk _ _ hy hz)

/-- A comparison that respects every parent and child keeps the order. -/
theorem Ordered.congr (h : Ordered lt heap)
    (hlt : ∀ i x y, 0 < i → heap[(i - 1) / 2]? = some x → heap[i]? = some y →
      lt y x = false → lt' y x = false) : Ordered lt' heap := by
  intro i hi x y hx hy
  exact hlt i x y hi hx hy (h i hi x y hx hy)

theorem Ordered.root (weak : StrictWeak lt) (h : Ordered lt heap) (i : ℕ) :
    Above lt heap 0 i := by
  induction i using Nat.strongRecOn with
  | _ i ih =>
    by_cases hi : i < heap.length
    · rcases Nat.eq_zero_or_pos i with rfl | hpos
      · intro x y hx hy
        obtain rfl : x = y := Option.some.inj (hx.symm.trans hy)
        by_contra hlt
        rw [Bool.not_eq_false] at hlt
        exact absurd (hlt.symm.trans (weak.asymm hlt)) (by decide)
      · exact (ih ((i - 1) / 2) (by omega)).trans weak (by omega) (h i hpos)
    · intro x y _ hy
      rw [List.getElem?_eq_none (by omega)] at hy
      cases hy

/-! ## Exchanges -/

theorem getElem?_exchange (hi : i < heap.length) (hj : j < heap.length) (k : ℕ) :
    (exchange heap i j)[k]? = heap[Equiv.swap i j k]? := by
  unfold exchange
  rw [List.getElem?_eq_getElem hi, List.getElem?_eq_getElem hj]
  rw [Equiv.swap_apply_def, List.getElem?_set, List.length_set]
  by_cases hkj : j = k
  · subst hkj
    by_cases hij : j = i
    · subst hij
      simp [hi]
    · simp [hij, hj]
  · by_cases hki : i = k
    · subst hki
      simp [hkj, hi]
    · simp [hkj, hki, Ne.symm hkj, Ne.symm hki]

theorem length_exchange (heap : List α) (i j : ℕ) : (exchange heap i j).length = heap.length :=
  (exchange_perm heap i j).length_eq

theorem above_exchange_iff (hi : i < heap.length) (hj : j < heap.length) {k l : ℕ} :
    Above lt (exchange heap i j) k l ↔ Above lt heap (Equiv.swap i j k) (Equiv.swap i j l) := by
  unfold Above
  rw [getElem?_exchange hi hj, getElem?_exchange hi hj]

theorem ltAt_eq_false_iff : ltAt lt heap j i = false ↔ Above lt heap i j := by
  unfold ltAt Above
  cases heap[i]? <;> cases heap[j]? <;> simp

theorem above_of_ltAt (weak : StrictWeak lt) (h : ltAt lt heap i j = true) : Above lt heap i j := by
  intro x y hx hy
  rw [ltAt, hx, hy] at h
  exact weak.asymm h

/-! ## Towards the root -/

/-- Everything is in order but the entry at `p`, which may be smaller than its parent; its
children are not. -/
structure UpOrder (lt : α → α → Bool) (heap : List α) (p : ℕ) : Prop where
  order : ∀ i, 0 < i → i ≠ p → Above lt heap ((i - 1) / 2) i
  bridge : ∀ i, 0 < i → (i - 1) / 2 = p → 0 < p → Above lt heap ((p - 1) / 2) i

theorem UpOrder.exchange (weak : StrictWeak lt) (h : UpOrder lt heap p) (hp : p < heap.length)
    (hpos : 0 < p) (hlt : ltAt lt heap p ((p - 1) / 2) = true) :
    UpOrder lt (exchange heap p ((p - 1) / 2)) ((p - 1) / 2) := by
  have hq : (p - 1) / 2 < heap.length := by omega
  have habove := above_of_ltAt weak hlt
  refine ⟨fun i hi hne => ?_, fun i hi hparent hq' => ?_⟩
  · rw [above_exchange_iff hp hq]
    by_cases hip : i = p
    · subst hip
      rw [Equiv.swap_apply_right, Equiv.swap_apply_left]
      exact habove
    · rw [Equiv.swap_apply_of_ne_of_ne hip hne]
      by_cases hparent : (i - 1) / 2 = (p - 1) / 2
      · rw [hparent, Equiv.swap_apply_right]
        exact habove.trans weak hq (hparent ▸ h.order i hi hip)
      · by_cases hchild : (i - 1) / 2 = p
        · rw [hchild, Equiv.swap_apply_left]
          exact h.bridge i hi hchild hpos
        · rw [Equiv.swap_apply_of_ne_of_ne hchild hparent]
          exact h.order i hi hip
  · rw [above_exchange_iff hp hq]
    have hup := h.order ((p - 1) / 2) hq' (by omega)
    rw [Equiv.swap_apply_of_ne_of_ne (by omega : ((p - 1) / 2 - 1) / 2 ≠ p)
      (by omega : ((p - 1) / 2 - 1) / 2 ≠ (p - 1) / 2)]
    by_cases hip : i = p
    · subst hip
      rw [Equiv.swap_apply_left]
      exact hup
    · rw [Equiv.swap_apply_of_ne_of_ne hip (by omega)]
      exact hup.trans weak hq (hparent ▸ h.order i hi hip)

theorem siftTowardsRoot_ordered (weak : StrictWeak lt) {fuel : ℕ} (hfuel : p ≤ fuel)
    (hp : p < heap.length) (h : UpOrder lt heap p) :
    Ordered lt (siftTowardsRoot lt fuel heap p) := by
  induction fuel generalizing heap p with
  | zero =>
      intro i hi
      exact h.order i hi (by omega)
  | succ fuel ih =>
      rw [siftTowardsRoot]
      by_cases hgoes : 0 < p ∧ ltAt lt heap p ((p - 1) / 2) = true
      · rw [if_pos hgoes]
        refine ih (by omega) ?_ (h.exchange weak hp hgoes.1 hgoes.2)
        rw [length_exchange]
        omega
      · rw [if_neg hgoes]
        intro i hi
        by_cases hip : i = p
        · subst hip
          refine ltAt_eq_false_iff.mp ?_
          rw [← Bool.not_eq_true]
          exact fun hlt => hgoes ⟨hi, hlt⟩
        · exact h.order i hi hip

/-! ## Towards the leaves -/

/-- Everything is in order but the entry at `p`; its children are not smaller than its parent. -/
structure DownOrder (lt : α → α → Bool) (heap : List α) (p : ℕ) : Prop where
  order : ∀ i, 0 < i → i ≠ p → (i - 1) / 2 ≠ p → Above lt heap ((i - 1) / 2) i
  bridge : ∀ i, 0 < i → (i - 1) / 2 = p → 0 < p → Above lt heap ((p - 1) / 2) i

theorem followedChild_above (weak : StrictWeak lt) (hp : 2 * p + 1 < heap.length) :
    (followedChild lt heap p < heap.length ∧ (followedChild lt heap p - 1) / 2 = p ∧
      p < followedChild lt heap p) ∧
    ∀ i, 0 < i → (i - 1) / 2 = p → i ≠ followedChild lt heap p →
      Above lt heap (followedChild lt heap p) i := by
  unfold followedChild
  by_cases hright : 2 * p + 2 < heap.length ∧
      ltAt lt heap (2 * p + 1) (2 * p + 2) = false
  · rw [if_pos hright]
    refine ⟨⟨hright.1, by omega, by omega⟩, fun i hi hparent hne => ?_⟩
    obtain rfl : i = 2 * p + 1 := by omega
    exact ltAt_eq_false_iff.mp hright.2
  · rw [if_neg hright]
    refine ⟨⟨hp, by omega, by omega⟩, fun i hi hparent hne => ?_⟩
    obtain rfl : i = 2 * p + 2 := by omega
    by_cases hi' : 2 * p + 2 < heap.length
    · refine above_of_ltAt weak ?_
      rw [← Bool.not_eq_false]
      exact fun hfalse => hright ⟨hi', hfalse⟩
    · intro x y _ hy
      rw [List.getElem?_eq_none (by omega)] at hy
      cases hy

theorem DownOrder.exchange (weak : StrictWeak lt) (h : DownOrder lt heap p)
    (hp : 2 * p + 1 < heap.length) :
    DownOrder lt (exchange heap p (followedChild lt heap p)) (followedChild lt heap p) := by
  obtain ⟨⟨hc, hparent, hlt⟩, hsibling⟩ := followedChild_above weak hp
  generalize followedChild lt heap p = c at hc hparent hlt hsibling
  have hp' : p < heap.length := by omega
  refine ⟨fun i hi hic hne => ?_, fun i hi hchild _ => ?_⟩
  · rw [above_exchange_iff hp' hc]
    by_cases hip : i = p
    · subst hip
      rw [Equiv.swap_apply_left, Equiv.swap_apply_of_ne_of_ne (by omega) (by omega)]
      exact h.bridge c (by omega) hparent hi
    · rw [Equiv.swap_apply_of_ne_of_ne hip hic]
      by_cases hup : (i - 1) / 2 = p
      · rw [hup, Equiv.swap_apply_left]
        exact hsibling i hi hup hic
      · rw [Equiv.swap_apply_of_ne_of_ne hup hne]
        exact h.order i hi hip hup
  · rw [above_exchange_iff hp' hc, hparent, Equiv.swap_apply_left,
      Equiv.swap_apply_of_ne_of_ne (by omega) (by omega)]
    have hbelow := h.order i hi (by omega) (by omega)
    rwa [hchild] at hbelow

theorem siftTowardsLeaves_ordered (weak : StrictWeak lt) {fuel : ℕ}
    (hfuel : heap.length ≤ fuel + p + 1) (hp : p < heap.length) (h : DownOrder lt heap p) :
    Ordered lt (siftTowardsLeaves lt fuel heap p) := by
  have hleaf : ∀ {heap : List α} {p : ℕ}, p < heap.length → ¬2 * p + 1 < heap.length →
      DownOrder lt heap p → Ordered lt (siftTowardsRoot lt heap.length heap p) := by
    intro heap p hp hlast h
    refine siftTowardsRoot_ordered weak hp.le hp ⟨fun i hi hip => ?_, h.bridge⟩
    by_cases hup : (i - 1) / 2 = p
    · -- a leaf has no children
      intro x y _ hy
      rw [List.getElem?_eq_none (by omega)] at hy
      cases hy
    · exact h.order i hi hip hup
  induction fuel generalizing heap p with
  | zero => exact hleaf hp (by omega) h
  | succ fuel ih =>
      rw [siftTowardsLeaves]
      by_cases hgoes : 2 * p + 1 < heap.length
      · rw [if_pos hgoes]
        obtain ⟨⟨hc, hparent, hlt⟩, -⟩ := followedChild_above weak hgoes
        refine ih ?_ ?_ (h.exchange weak hgoes)
        · rw [length_exchange]
          omega
        · rw [length_exchange]
          exact hc
      · rw [if_neg hgoes]
        exact hleaf hp hgoes h

/-! ## Push and pop -/

/-- **Pushing keeps the order.** -/
theorem push_ordered (weak : StrictWeak lt) (h : Ordered lt heap) (x : α) :
    Ordered lt (push lt heap x) := by
  refine siftTowardsRoot_ordered weak le_rfl (by simp) ⟨fun i hi hne => ?_, fun i hi hchild _ => ?_⟩
  · intro y z hy hz
    by_cases hlast : i < heap.length
    · rw [List.getElem?_append_left hlast] at hz
      rw [List.getElem?_append_left (by omega)] at hy
      exact h i hi y z hy hz
    · rw [List.getElem?_eq_none (by simp; omega)] at hz
      cases hz
  · intro y z _ hz
    rw [List.getElem?_eq_none (by simp; omega)] at hz
    cases hz

/-- **Popping keeps the order.** -/
theorem pop_ordered (weak : StrictWeak lt) (h : Ordered lt heap) {x : α} {rest : List α}
    (hpop : pop lt heap = some (x, rest)) : Ordered lt rest := by
  match heap, hpop with
  | [y], hpop =>
      simp only [pop, Option.some.injEq, Prod.mk.injEq] at hpop
      rw [← hpop.2]
      exact ordered_nil
  | y :: z :: tail, hpop =>
      simp only [pop, Option.some.injEq, Prod.mk.injEq] at hpop
      obtain ⟨-, rfl⟩ := hpop
      have hlength : ((z :: tail).getLast (List.cons_ne_nil z tail) ::
          (z :: tail).dropLast).length = tail.length + 1 := by simp
      refine siftTowardsLeaves_ordered weak (by omega) (by omega)
        ⟨fun i hi _ hne => ?_, fun i hi _ hpos => absurd hpos (lt_irrefl 0)⟩
      -- behind the root the entries are those of the heap
      have hkept : ∀ k, 0 < k → k < tail.length + 1 →
          ((z :: tail).getLast (List.cons_ne_nil z tail) :: (z :: tail).dropLast)[k]? =
            (y :: z :: tail)[k]? := by
        intro k hk hklen
        obtain ⟨k, rfl⟩ := Nat.exists_eq_succ_of_ne_zero hk.ne'
        rw [List.getElem?_cons_succ, List.getElem?_cons_succ, List.getElem?_dropLast,
          if_pos (by simp; omega)]
      intro a b ha hb
      by_cases hlast : i < tail.length + 1
      · rw [hkept i hi hlast] at hb
        rw [hkept _ (by omega) (by omega)] at ha
        exact h i hi a b ha hb
      · rw [List.getElem?_eq_none (by omega)] at hb
        cases hb

/-- **Popping an ordered heap returns a minimal entry.** -/
theorem pop_minimal (weak : StrictWeak lt) (h : Ordered lt heap) {x : α} {rest : List α}
    (hpop : pop lt heap = some (x, rest)) {y : α} (hy : y ∈ heap) : lt y x = false := by
  have hroot : heap[0]? = some x := by
    match heap, hpop with
    | [z], hpop =>
        simp only [pop, Option.some.injEq, Prod.mk.injEq] at hpop
        rw [hpop.1, List.getElem?_cons_zero]
    | z :: w :: tail, hpop =>
        simp only [pop, Option.some.injEq, Prod.mk.injEq] at hpop
        rw [hpop.1, List.getElem?_cons_zero]
  obtain ⟨i, hi⟩ := List.mem_iff_getElem?.mp hy
  exact h.root weak i x y hroot hi

end BinaryHeap
