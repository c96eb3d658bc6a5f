import Mathlib.Data.List.Induction

/-!
# Attempts between resets

A log has entries that count as attempts, entries that reset the count, and others.  What has been
counted since the last reset is found entry by entry; the bound that is wanted is one on every
stretch of the log without a reset.

* `countP_le_since`: a stretch without a reset has no more attempts than are counted at its end.
* `Bounded.append`: so a log stays bounded if the count is bounded behind its next entry.
-/

namespace AttemptLog

variable {ε : Type*} (counts resets : ε → Bool)

def next (n : ℕ) (e : ε) : ℕ := if resets e then 0 else if counts e then n + 1 else n

/-- The attempts since the last reset. -/
def since (log : List ε) : ℕ := log.foldl (next counts resets) 0

/-- No stretch without a reset has more than `bound` attempts. -/
def Bounded (bound : ℕ) (log : List ε) : Prop :=
  ∀ front stretch back, log = front ++ stretch ++ back → (∀ e ∈ stretch, resets e = false) →
    stretch.countP counts ≤ bound

variable {counts resets} {bound : ℕ} {log stretch front : List ε} {e : ε}

theorem since_append (log : List ε) (e : ε) :
    since counts resets (log ++ [e]) = next counts resets (since counts resets log) e := by
  rw [since, since, List.foldl_append, List.foldl_cons, List.foldl_nil]

theorem since_of_resets (h : resets e = true) : since counts resets (log ++ [e]) = 0 := by
  rw [since_append, next, if_pos h]

theorem since_of_counts (hcounts : counts e = true) (hresets : resets e = false) :
    since counts resets (log ++ [e]) = since counts resets log + 1 := by
  rw [since_append, next, if_neg (by rw [hresets]; exact Bool.false_ne_true), if_pos hcounts]

theorem since_of_other (hcounts : counts e = false) (hresets : resets e = false) :
    since counts resets (log ++ [e]) = since counts resets log := by
  rw [since_append, next, if_neg (by rw [hresets]; exact Bool.false_ne_true),
    if_neg (by rw [hcounts]; exact Bool.false_ne_true)]

/-- **A stretch without a reset** has no more attempts than are counted at its end. -/
theorem countP_le_since (h : ∀ e ∈ stretch, resets e = false) :
    stretch.countP counts ≤ since counts resets (front ++ stretch) := by
  induction stretch using List.reverseRecOn with
  | nil => exact Nat.zero_le _
  | append_singleton stretch e ih =>
    have hle := ih fun a ha => h a (List.mem_append_left _ ha)
    have hresets := h e (List.mem_append_right _ (List.mem_singleton_self e))
    rw [← List.append_assoc, List.countP_append]
    cases hcounts : counts e with
    | true =>
      rw [since_of_counts hcounts hresets, List.countP_singleton, if_pos hcounts]
      exact Nat.add_le_add_right hle 1
    | false =>
      rw [since_of_other hcounts hresets, List.countP_singleton, if_neg (by rw [hcounts]; decide)]
      exact hle

theorem bounded_nil : Bounded counts resets bound [] := by
  intro front stretch back h _
  have hnil := List.append_eq_nil_iff.mp h.symm
  rw [(List.append_eq_nil_iff.mp hnil.1).2]
  exact Nat.zero_le _

/-- **The next entry** of a bounded log. -/
theorem Bounded.append (h : Bounded counts resets bound log)
    (hsince : since counts resets (log ++ [e]) ≤ bound) :
    Bounded counts resets bound (log ++ [e]) := by
  intro front stretch back hsplit hresets
  rcases List.eq_nil_or_concat back with rfl | ⟨init, last, rfl⟩
  · -- the stretch is the end of the log
    rw [List.append_nil] at hsplit
    rw [hsplit] at hsince
    exact Nat.le_trans (countP_le_since hresets) hsince
  · rw [List.concat_eq_append, ← List.append_assoc] at hsplit
    obtain ⟨hlog, -⟩ := List.append_inj' hsplit rfl
    exact h front stretch init hlog hresets

end AttemptLog
