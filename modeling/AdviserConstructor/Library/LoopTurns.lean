import Mathlib.Data.List.Basic
import Mathlib.Tactic.Common

/-!
# The turns of a loop

A loop is a fold of its body over the items that it goes through.  A statement about what happens
inside the loop needs the state before each of its turns, which the fold alone does not name.

* `turns` lists the turns of a loop over a list, each with the state before it.  The states that the
  loop goes through are those of `List.scanl`, before, between and behind the turns.
* `forall_scanl_of_turns`: what holds at first, and is kept by every turn, holds of all of them.
* `forall_scanl_iff`: if a turn keeps it exactly under a condition on the state before, then it
  holds of all states exactly if every turn meets the condition.
* `log_foldl`: a part of the state to which every turn appends is the list of what the turns have
  appended.
* `flatMap_turns_of_related`: two loops that keep their states related put out related logs.
* `stateBefore` is the state before a turn of a loop `for i in range(start, stop)`, by its number;
  `mem_turns_range'` says that these are the turns of the loop over that range.
-/

namespace AdviserConstructor

namespace LoopTurns

variable {σ α β : Type*}

/-! ## Loops over a list -/

section

variable (body : σ → α → σ)

/-- The turns of a loop: the state before each of them, and its item. -/
def turns : σ → List α → List (σ × α)
  | _, [] => []
  | s, a :: items => (s, a) :: turns (body s a) items

variable {body} {s : σ} {items : List α}

theorem item_mem_of_mem_turns {v : σ × α} (h : v ∈ turns body s items) : v.2 ∈ items := by
  induction items generalizing s with
  | nil => cases h
  | cons a items ih =>
    rcases List.mem_cons.mp h with rfl | h
    · exact List.mem_cons_self
    · exact List.mem_cons_of_mem _ (ih h)

theorem mem_scanl_of_mem_turns {v : σ × α} (h : v ∈ turns body s items) :
    v.1 ∈ items.scanl body s := by
  induction items generalizing s with
  | nil => cases h
  | cons a items ih =>
    rw [List.scanl_cons]
    rcases List.mem_cons.mp h with rfl | h
    · exact List.mem_cons_self
    · exact List.mem_cons_of_mem _ (ih h)

theorem next_mem_scanl {v : σ × α} (h : v ∈ turns body s items) :
    body v.1 v.2 ∈ items.scanl body s := by
  induction items generalizing s with
  | nil => cases h
  | cons a items ih =>
    rw [List.scanl_cons]
    rcases List.mem_cons.mp h with rfl | h
    · refine List.mem_cons_of_mem _ ?_
      cases items <;> simp [List.scanl_cons]
    · exact List.mem_cons_of_mem _ (ih h)

theorem start_mem_scanl : s ∈ items.scanl body s := by
  cases items <;> simp [List.scanl_cons]

theorem foldl_mem_scanl : items.foldl body s ∈ items.scanl body s := by
  induction items generalizing s with
  | nil => exact List.mem_singleton.mpr rfl
  | cons a items ih =>
    rw [List.scanl_cons]
    exact List.mem_cons_of_mem _ ih

/-- **What every turn keeps** holds of all states of the loop. -/
theorem forall_scanl_of_turns {Q : σ → Prop} (hstart : Q s)
    (hturn : ∀ v ∈ turns body s items, Q v.1 → Q (body v.1 v.2)) :
    ∀ t ∈ items.scanl body s, Q t := by
  induction items generalizing s with
  | nil =>
    intro t ht
    rw [List.scanl_nil, List.mem_singleton] at ht
    exact ht ▸ hstart
  | cons a items ih =>
    intro t ht
    rw [List.scanl_cons] at ht
    rcases List.mem_cons.mp ht with rfl | ht
    · exact hstart
    · exact ih (hturn (s, a) List.mem_cons_self hstart)
        (fun v hv => hturn v (List.mem_cons_of_mem _ hv)) t ht

/-- **What every turn keeps under a condition** holds of all states of the loop exactly if every
turn meets the condition. -/
theorem forall_scanl_iff {Q : σ → Prop} {P : σ × α → Prop}
    (hturn : ∀ v ∈ turns body s items, Q v.1 → (Q (body v.1 v.2) ↔ P v)) :
    (∀ t ∈ items.scanl body s, Q t) ↔ Q s ∧ ∀ v ∈ turns body s items, P v := by
  constructor
  · intro h
    refine ⟨h s start_mem_scanl, fun v hv => ?_⟩
    exact (hturn v hv (h _ (mem_scanl_of_mem_turns hv))).mp (h _ (next_mem_scanl hv))
  · rintro ⟨hstart, hturns⟩
    exact forall_scanl_of_turns hstart fun v hv hQ => (hturn v hv hQ).mpr (hturns v hv)

/-- The log of a loop whose turns append to it. -/
theorem log_foldl {log : σ → List β} {out : σ × α → List β}
    (happend : ∀ s a, log (body s a) = log s ++ out (s, a)) (s : σ) (items : List α) :
    log (items.foldl body s) = log s ++ (turns body s items).flatMap out := by
  induction items generalizing s with
  | nil => exact (List.append_nil _).symm
  | cons a items ih =>
    rw [List.foldl_cons, ih, happend, turns, List.flatMap_cons, List.append_assoc]

/-- **Two loops whose states stay related** put out the same, up to what the relation makes of a
single turn. -/
theorem flatMap_turns_of_related {σ' γ : Type*} {body' : σ' → α → σ'} {R : σ → σ' → Prop}
    {out : σ × α → List β} {out' : σ' × α → List γ} {g : β → γ}
    (hbody : ∀ t t' a, R t t' → R (body t a) (body' t' a))
    (hout : ∀ t t' a, R t t' → out' (t', a) = (out (t, a)).map g) {s' : σ'} (hstart : R s s') :
    (turns body' s' items).flatMap out' = ((turns body s items).flatMap out).map g := by
  induction items generalizing s s' with
  | nil => rfl
  | cons a items ih =>
    rw [turns, turns, List.flatMap_cons, List.flatMap_cons, List.map_append, hout s s' a hstart,
      ih (hbody s s' a hstart)]

end

/-! ## Loops over consecutive indices -/

section

variable (body : σ → ℕ → σ) (s₀ : σ) (start : ℕ)

/-- The state of a loop over `start, start + 1, …` before its turn `k`, the first one being 0. -/
def stateBefore : ℕ → σ
  | 0 => s₀
  | k + 1 => body (stateBefore k) (start + k)

theorem stateBefore_succ (k : ℕ) :
    stateBefore body s₀ start (k + 1) = body (stateBefore body s₀ start k) (start + k) := rfl

theorem stateBefore_shift (k : ℕ) :
    stateBefore body (body s₀ start) (start + 1) k = stateBefore body s₀ start (k + 1) := by
  induction k with
  | zero => rfl
  | succ k ih =>
    have hindex : start + 1 + k = start + (k + 1) := by omega
    rw [stateBefore_succ, ih, stateBefore_succ _ _ _ (k + 1), hindex]

/-- The turns of a loop over consecutive indices. -/
theorem mem_turns_range' {n : ℕ} {v : σ × ℕ} :
    v ∈ turns body s₀ (List.range' start n) ↔
      ∃ k < n, v = (stateBefore body s₀ start k, start + k) := by
  induction n generalizing s₀ start with
  | zero => exact ⟨(nomatch ·), fun ⟨k, hk, _⟩ => absurd hk (Nat.not_lt_zero k)⟩
  | succ n ih =>
    have hindex : ∀ k, start + 1 + k = start + (k + 1) := fun k => by omega
    rw [List.range'_succ, turns, List.mem_cons, ih]
    constructor
    · rintro (rfl | ⟨k, hk, rfl⟩)
      · exact ⟨0, Nat.succ_pos n, rfl⟩
      · exact ⟨k + 1, by omega, by rw [stateBefore_shift, hindex]⟩
    · rintro ⟨k, hk, rfl⟩
      cases k with
      | zero => exact .inl rfl
      | succ k => exact .inr ⟨k, by omega, by rw [stateBefore_shift, hindex]⟩

end

end LoopTurns

end AdviserConstructor
