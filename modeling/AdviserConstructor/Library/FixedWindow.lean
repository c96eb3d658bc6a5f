import Mathlib.Data.Int.Notation
import Mathlib.Data.List.Basic
import Mathlib.Data.Nat.Find

/-!
# Fixed windows

What is limited in each of several windows, one behind the other, is limited in a window that
slides as well: as long as a window is no longer than any of them, it meets two at most.  Where
every window begins with an entry of its own, it meets one of the two without its first entry.

* `countP_le_add`: what belongs to one of two groups.
* `countP_window_le`: one window, with its first entry.
* `countP_sliding_lt`: **less than twice the limit**, in every window that slides.
-/

namespace FixedWindow

variable {ε : Type*} {log : List ε}

/-- What belongs to one of two groups, group by group. -/
theorem countP_le_add {p q r : ε → Bool} (h : ∀ e ∈ log, p e = true → q e = true ∨ r e = true) :
    log.countP p ≤ log.countP q + log.countP r := by
  induction log with
  | nil => exact Nat.zero_le _
  | cons e log ih =>
    have hrest := ih fun a ha => h a (List.mem_cons_of_mem e ha)
    have he := h e List.mem_cons_self
    rw [List.countP_cons, List.countP_cons, List.countP_cons]
    cases hp : p e with
    | false =>
      rw [if_neg Bool.false_ne_true]
      split <;> split <;> omega
    | true =>
      rcases he hp with hq | hr
      · split <;> omega
      · split <;> omega

section

variable {p : ε → Bool} {time : ε → ℤ} {limit length : ℕ}

/-- A window has its first entry and what is behind it. -/
theorem countP_window_le (log : List ε) (p opens : ε → Bool) (window : ε → ℕ) (i : ℕ) :
    log.countP (fun e => p e && decide (window e = i)) ≤
      log.countP (fun e => p e && opens e && decide (window e = i)) +
        log.countP fun e => p e && !opens e && decide (window e = i) := by
  refine countP_le_add fun e _ he => ?_
  rw [Bool.and_eq_true] at he
  cases ho : opens e with
  | true =>
    left
    rw [he.1, he.2]
    rfl
  | false =>
    right
    rw [he.1, he.2]
    rfl

/-- **Less than twice the limit.**  Each window has one first entry at most, and less than `limit`
others.  A window's length lies between its first entry and the window behind it, and between its
entries and those of the windows behind that one.  Then no stretch of that length has `2 * limit`
entries. -/
theorem countP_sliding_lt (opens : ε → Bool) (window : ε → ℕ)
    (hfirst : ∀ i, log.countP (fun e => p e && opens e && decide (window e = i)) ≤ 1)
    (hlater : ∀ i, log.countP (fun e => p e && !opens e && decide (window e = i)) < limit)
    (hopens : ∀ a ∈ log, ∀ b ∈ log, p a = true → p b = true → opens a = true →
      window a < window b → time a + length ≤ time b)
    (hapart : ∀ a ∈ log, ∀ b ∈ log, p a = true → p b = true → window a + 2 ≤ window b →
      time a + length ≤ time b) (t : ℤ) :
    log.countP (fun e => p e && decide (t ≤ time e ∧ time e < t + length)) < 2 * limit := by
  classical
  let inside : ε → Bool := fun e => p e && decide (t ≤ time e ∧ time e < t + length)
  have hinside : ∀ {e}, inside e = true → p e = true ∧ t ≤ time e ∧ time e < t + length := by
    intro e he
    rw [Bool.and_eq_true] at he
    exact ⟨he.1, of_decide_eq_true he.2⟩
  change log.countP inside < 2 * limit
  -- `first` is the earliest window that has an entry in the stretch
  by_cases hsome : ∃ i, ∃ e ∈ log, inside e = true ∧ window e = i
  · obtain ⟨e₀, he₀, hin₀, hfind⟩ := Nat.find_spec hsome
    have hmin : ∀ e ∈ log, inside e = true → Nat.find hsome ≤ window e :=
      fun e he hin => Nat.find_min' hsome ⟨e, he, hin, rfl⟩
    generalize Nat.find hsome = first at hfind hmin
    have hone := hfirst first
    have hrest := hlater first
    by_cases hopening : ∃ e ∈ log, inside e = true ∧ window e = first ∧ opens e = true
    · obtain ⟨o, ho, hino, hwindow, hopen⟩ := hopening
      have hall : ∀ e ∈ log, inside e = true → (p e && decide (window e = first)) = true := by
        intro e he hin
        obtain ⟨hp, -, hlt⟩ := hinside hin
        have hge := hmin e he hin
        have hsame : window e = first := by
          by_contra hother
          have hgap := hopens o ho e he (hinside hino).1 hp hopen (by omega)
          have hstart := (hinside hino).2.1
          omega
        rw [hp, Bool.true_and, decide_eq_true_iff]
        exact hsame
      have hcount := List.countP_mono_left hall
      have hsplit := countP_window_le log p opens window first
      omega
    · have hsplit : ∀ e ∈ log, inside e = true →
          (p e && !opens e && decide (window e = first)) = true ∨
            (p e && decide (window e = first + 1)) = true := by
        intro e he hin
        obtain ⟨hp, -, hlt⟩ := hinside hin
        have hge := hmin e he hin
        have hnear : window e < first + 2 := by
          by_contra hfar
          have hgap := hapart e₀ he₀ e he (hinside hin₀).1 hp (by omega)
          have hstart := (hinside hin₀).2.1
          omega
        rw [hp, Bool.true_and, Bool.true_and, decide_eq_true_iff, Bool.and_eq_true,
          decide_eq_true_iff]
        by_cases hsame : window e = first
        · left
          refine ⟨?_, hsame⟩
          cases ho : opens e with
          | false => rfl
          | true => exact absurd ⟨e, he, hin, hsame, ho⟩ hopening
        · right
          omega
      have hcount := countP_le_add hsplit
      have hnext := countP_window_le log p opens window (first + 1)
      have hone' := hfirst (first + 1)
      have hrest' := hlater (first + 1)
      omega
  · have hzero : log.countP inside = 0 :=
      List.countP_eq_zero.mpr fun e he hin => hsome ⟨_, e, he, hin, rfl⟩
    have hpos := hlater 0
    omega

end

end FixedWindow
