import Mathlib.Tactic.Common

/-!
# Loops that jump ahead

A loop over positions whose body may emit an item, and says from which later position the loop goes
on.  The position may depend on anything that the body has seen, so that the positions visited are
not known beforehand.

* `mem_run`, `mem_run_iff`: an item of the run was emitted at one of the positions visited.
* `pairwise_run`: what an item has in common with all that are emitted behind it.
* `filter_run_eq`: two loops that show the same at every position up to `k`, and that leave these
  positions together, show the same items.
-/

namespace AdviserConstructor

namespace JumpLoop

variable {α β : Type*}

/-- What the body of a loop does at position `i`: the item that it emits, if any, and the position
that the loop goes on from. -/
structure Jump (α : Type*) (i : ℕ) where
  item : Option α
  next : ℕ
  lt_next : i < next

/-- The body does nothing at position `i`. -/
def Jump.skip (i : ℕ) : Jump α i := ⟨none, i + 1, Nat.lt_succ_self i⟩

/-- The items that a loop emits from position `i` on while the position is below `stop`. -/
def run (body : (i : ℕ) → Jump α i) (stop : ℕ) : ℕ → ℕ → List α
  | 0, _ => []
  | fuel + 1, i =>
      if i < stop then (body i).item.toList ++ run body stop fuel (body i).next else []

variable {body other : (i : ℕ) → Jump α i} {stop stop' : ℕ}

variable {fuel i : ℕ}

theorem run_of_stop_le (h : stop ≤ i) : run body stop fuel i = [] := by
  cases fuel with
  | zero => rfl
  | succ fuel => exact if_neg (Nat.not_lt.mpr h)

theorem run_succ (h : i < stop) :
    run body stop (fuel + 1) i = (body i).item.toList ++ run body stop fuel (body i).next :=
  if_pos h

/-- An item of the run was emitted at a position from `i` on. -/
theorem mem_run {a : α} (h : a ∈ run body stop fuel i) :
    ∃ j, i ≤ j ∧ j < stop ∧ (body j).item = some a := by
  induction fuel generalizing i with
  | zero => cases h
  | succ fuel ih =>
    by_cases hi : i < stop
    · rw [run_succ hi, List.mem_append, Option.mem_toList] at h
      rcases h with h | h
      · exact ⟨i, Nat.le_refl i, hi, h⟩
      · obtain ⟨j, hj, hstop, hitem⟩ := ih h
        have hnext := (body i).lt_next
        exact ⟨j, by omega, hstop, hitem⟩
    · rw [run_of_stop_le (by omega)] at h
      cases h

/-- The positions that a loop visits. -/
def visits (body : (i : ℕ) → Jump α i) (stop : ℕ) : ℕ → ℕ → List ℕ
  | 0, _ => []
  | fuel + 1, i => if i < stop then i :: visits body stop fuel (body i).next else []

/-- The items of a run are those that are emitted at the positions visited. -/
theorem mem_run_iff {a : α} :
    a ∈ run body stop fuel i ↔ ∃ j ∈ visits body stop fuel i, (body j).item = some a := by
  induction fuel generalizing i with
  | zero => exact ⟨(nomatch ·), fun ⟨_, h, _⟩ => nomatch h⟩
  | succ fuel ih =>
    by_cases hi : i < stop
    · rw [run_succ hi, List.mem_append, Option.mem_toList, ih, visits, if_pos hi]
      simp only [List.mem_cons, exists_eq_or_imp]
    · rw [run_of_stop_le (by omega), visits, if_neg hi]
      exact ⟨(nomatch ·), fun ⟨_, h, _⟩ => nomatch h⟩

theorem visits_bounds {j : ℕ} (h : j ∈ visits body stop fuel i) : i ≤ j ∧ j < stop := by
  induction fuel generalizing i with
  | zero => cases h
  | succ fuel ih =>
    rw [visits] at h
    by_cases hi : i < stop
    · rw [if_pos hi] at h
      rcases List.mem_cons.mp h with rfl | h
      · exact ⟨Nat.le_refl _, hi⟩
      · have hnext := (body i).lt_next
        have hrest := ih h
        omega
    · rw [if_neg hi] at h
      cases h

/-- **The schedule of a run.**  What holds between an item and whatever is emitted from the position
on that the loop goes on from holds between any two items of the run. -/
theorem pairwise_run {R : α → α → Prop}
    (h : ∀ i < stop, ∀ a, (body i).item = some a → ∀ j, (body i).next ≤ j → j < stop →
      ∀ b, (body j).item = some b → R a b) (fuel i : ℕ) :
    (run body stop fuel i).Pairwise R := by
  induction fuel generalizing i with
  | zero => exact List.Pairwise.nil
  | succ fuel ih =>
    by_cases hi : i < stop
    · rw [run_succ hi]
      cases hitem : (body i).item with
      | none => exact ih _
      | some a =>
        refine List.pairwise_cons.mpr ⟨fun b hb => ?_, ih _⟩
        obtain ⟨j, hj, hjstop, hb⟩ := mem_run hb
        exact h i hi a hitem j hj hjstop b hb
    · rw [run_of_stop_le (by omega)]
      exact List.Pairwise.nil

theorem filter_run_eq_nil {visible : α → Bool}
    (hidden : ∀ j, i ≤ j → ∀ a, (body j).item = some a → visible a = false) :
    (run body stop fuel i).filter visible = [] := by
  refine List.filter_eq_nil_iff.mpr fun a ha hvisible => ?_
  obtain ⟨j, hj, _, hitem⟩ := mem_run ha
  rw [hidden j hj a hitem] at hvisible
  cases hvisible

/-- Two bodies show the same at position `i`, and go on from the same position or both from behind
`k`.  What is shown of an item is `shown`. -/
structure AgreesAt (visible : α → Bool) (shown : α → β) (k : ℕ) {i : ℕ} (x y : Jump α i) :
    Prop where
  item : (x.item.filter visible).map shown = (y.item.filter visible).map shown
  next : x.next = y.next ∨ (k < x.next ∧ k < y.next)

/-- **Two runs.**  Two loops that show the same at every position up to `k`, and nothing behind it,
show the same items, wherever beyond `k` they end. -/
theorem filter_run_eq {visible : α → Bool} {shown : α → β} {k : ℕ}
    (agree : ∀ i ≤ k, AgreesAt visible shown k (body i) (other i))
    (hidden : ∀ i, k < i → ∀ a, (body i).item = some a → visible a = false)
    (hidden' : ∀ i, k < i → ∀ a, (other i).item = some a → visible a = false) (hstop : k < stop)
    (hstop' : k < stop') {fuel' : ℕ} (hfuel : stop ≤ i + fuel) (hfuel' : stop' ≤ i + fuel') :
    ((run body stop fuel i).filter visible).map shown =
      ((run other stop' fuel' i).filter visible).map shown := by
  have hbehind : ∀ {m n i j : ℕ}, k < i → k < j →
      ((run body stop m i).filter visible).map shown =
        ((run other stop' n j).filter visible).map shown := by
    intro m n i j hi hj
    rw [filter_run_eq_nil fun l hl => hidden l (by omega),
      filter_run_eq_nil fun l hl => hidden' l (by omega)]
  induction fuel generalizing fuel' i with
  | zero => exact hbehind (by omega) (by omega)
  | succ fuel ih =>
    by_cases hi : i ≤ k
    · obtain ⟨rounds, rfl⟩ : ∃ rounds, fuel' = rounds + 1 := ⟨fuel' - 1, by omega⟩
      have hlt := (body i).lt_next
      have hitem : ((body i).item.toList.filter visible).map shown =
          ((other i).item.toList.filter visible).map shown := by
        rw [← Option.toList_filter, ← Option.toList_filter, ← Option.toList_map,
          ← Option.toList_map, (agree i hi).item]
      rw [run_succ (by omega), run_succ (by omega), List.filter_append, List.filter_append,
        List.map_append, List.map_append, hitem]
      refine congrArg _ ?_
      rcases (agree i hi).next with hnext | ⟨hnext, hnext'⟩
      · rw [← hnext]
        exact ih (by omega) (by omega)
      · exact hbehind hnext hnext'
    · exact hbehind (by omega) (by omega)

end JumpLoop

end AdviserConstructor
