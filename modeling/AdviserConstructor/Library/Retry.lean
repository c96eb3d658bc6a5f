import Mathlib.Tactic.Common

/-!
# A call that is tried again

A fallible call that may be repeated is a function of the number of the try, because every try may
end in another way.  The tries stop at the first that succeeds, at the first whose error must not
be tried again, and when the allowed number of them is used up.

* `exists_isLast`: if one try is allowed, there is a last one, and its answer is the answer.
* `IsLast.unique`: there is only one.
-/

namespace AdviserConstructor

namespace Retry

variable {ε α : Type*} (retryable : ε → Bool) (call : ℕ → Except ε α)

/-- The tries from number `k` on, when `left` more are allowed behind it: the answer, and the number
of the last try. -/
def attempt : ℕ → ℕ → Except ε α × ℕ
  | 0, k => (call k, k)
  | left + 1, k =>
      match call k with
      | .ok a => (.ok a, k)
      | .error e => if retryable e then attempt left (k + 1) else (.error e, k)

/-- Try number `n` is the last of those that are made when `attempts` are allowed. -/
structure IsLast (attempts n : ℕ) : Prop where
  lt : n < attempts
  earlier : ∀ j < n, ∃ e, call j = .error e ∧ retryable e = true
  stops : n + 1 = attempts ∨ ∀ e, call n = .error e → retryable e = false

variable {retryable call}

theorem attempt_isLast (left k : ℕ)
    (hearlier : ∀ j < k, ∃ e, call j = .error e ∧ retryable e = true) :
    IsLast retryable call (k + left + 1) (attempt retryable call left k).2 ∧
      (attempt retryable call left k).1 = call (attempt retryable call left k).2 := by
  induction left generalizing k with
  | zero => exact ⟨⟨by show k < k + 0 + 1; omega, hearlier, .inl rfl⟩, rfl⟩
  | succ left ih =>
    cases hcall : call k with
    | ok a =>
      have hattempt : attempt retryable call (left + 1) k = (.ok a, k) := by
        rw [attempt, hcall]
      rw [hattempt]
      refine ⟨⟨by show k < _; omega, hearlier, .inr fun e he => ?_⟩, hcall.symm⟩
      rw [hcall] at he
      cases he
    | error e =>
      by_cases hretry : retryable e = true
      · have hattempt :
            attempt retryable call (left + 1) k = attempt retryable call left (k + 1) := by
          rw [attempt, hcall]
          exact if_pos hretry
        have hmore : ∀ j < k + 1, ∃ e, call j = .error e ∧ retryable e = true := by
          intro j hj
          rcases Nat.lt_succ_iff_lt_or_eq.mp hj with hlt | rfl
          · exact hearlier j hlt
          · exact ⟨e, hcall, hretry⟩
        have hrec := ih (k + 1) hmore
        rw [hattempt, show k + (left + 1) + 1 = k + 1 + left + 1 by omega]
        exact hrec
      · have hattempt : attempt retryable call (left + 1) k = (.error e, k) := by
          rw [attempt, hcall]
          exact if_neg hretry
        rw [hattempt]
        refine ⟨⟨by show k < _; omega, hearlier, .inr fun e' he' => ?_⟩, hcall.symm⟩
        rw [hcall] at he'
        cases he'
        exact Bool.eq_false_iff.mpr hretry

/-- **The last try.**  If a try is allowed, there is a last one, and its answer is the answer. -/
theorem exists_isLast {attempts : ℕ} (hpos : 0 < attempts) :
    IsLast retryable call attempts (attempt retryable call (attempts - 1) 0).2 ∧
      (attempt retryable call (attempts - 1) 0).1 =
        call (attempt retryable call (attempts - 1) 0).2 := by
  have h := @attempt_isLast ε α retryable call (attempts - 1) 0
    fun j hj => absurd hj (Nat.not_lt_zero j)
  rwa [show 0 + (attempts - 1) + 1 = attempts by omega] at h

theorem IsLast.le {attempts n m : ℕ} (hn : IsLast retryable call attempts n)
    (hm : IsLast retryable call attempts m) : m ≤ n := by
  by_contra hlt
  obtain ⟨e, he, hretry⟩ := hm.earlier n (by omega)
  rcases hn.stops with hall | hstop
  · have := hm.lt
    omega
  · rw [hstop e he] at hretry
    cases hretry

/-- There is only one last try. -/
theorem IsLast.unique {attempts n m : ℕ} (hn : IsLast retryable call attempts n)
    (hm : IsLast retryable call attempts m) : n = m :=
  Nat.le_antisymm (hm.le hn) (hn.le hm)

theorem IsLast.eq_attempt {attempts n : ℕ} (hn : IsLast retryable call attempts n) :
    (attempt retryable call (attempts - 1) 0) = (call n, n) := by
  have hpos : 0 < attempts := Nat.lt_of_le_of_lt (Nat.zero_le n) hn.lt
  obtain ⟨hlast, hcall⟩ := @exists_isLast ε α retryable call attempts hpos
  have hnum := hn.unique hlast
  rw [← hnum] at hcall
  exact Prod.ext hcall hnum.symm

end Retry

end AdviserConstructor
