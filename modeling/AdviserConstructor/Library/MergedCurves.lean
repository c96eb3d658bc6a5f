import AdviserConstructor.Library.Interleaving
import AdviserConstructor.Library.RunningPeak
import Mathlib.Tactic.Linarith
import Mathlib.Tactic.Ring

/-!
# The drawdown of several accounts together

An account that begins with a positive balance and takes its profits one after the other has a curve
of balances.  Two accounts whose profits are taken in one order have the sum of their balances as
their curve.

That a curve never falls by more than a share `d` says that every point keeps `1 - d` of every point
before it.  As long as `d` is not more than the whole, this adds up: together the accounts do not
fall by more than `d` where neither of them does.  So what falls together is no deeper than the
worst of what falls alone.

* `drawdown_le_iff`: a drawdown as a condition on any two points of the curve.
* `drawdown_interleaved_le`: **no deeper than the worst**, for two accounts.
-/

namespace AdviserConstructor

namespace RunningPeak

variable {K : Type*} [Field K] {xs ys zs : List K}

/-! ## Curves of balances -/

/-- The balances of an account, before its profits and behind each of them. -/
def curve (balance : K) : List K → List K
  | [] => [balance]
  | profit :: profits => balance :: curve (balance + profit) profits

theorem curve_eq_cons (balance : K) (profits : List K) :
    ∃ rest, curve balance profits = balance :: rest := by
  cases profits <;> exact ⟨_, rfl⟩

theorem mem_curve_of_interleaved (h : List.Interleaved xs ys zs) :
    ∀ {a b : K}, ∀ e ∈ curve (a + b) zs, ∃ l ∈ curve a xs, ∃ r ∈ curve b ys, e = l + r := by
  induction h with
  | nil =>
    intro a b e he
    exact ⟨a, List.mem_singleton.mpr rfl, b, List.mem_singleton.mpr rfl, List.mem_singleton.mp he⟩
  | left profit _ ih =>
    intro a b e he
    rw [curve, add_right_comm] at he
    rcases List.mem_cons.mp he with rfl | he
    · obtain ⟨rest, hrest⟩ := curve_eq_cons b _
      exact ⟨a, List.mem_cons_self, b, hrest ▸ List.mem_cons_self, rfl⟩
    · obtain ⟨l, hl, r, hr, rfl⟩ := ih e he
      exact ⟨l, List.mem_cons_of_mem _ hl, r, hr, rfl⟩
  | right profit _ ih =>
    intro a b e he
    rw [curve, add_assoc] at he
    rcases List.mem_cons.mp he with rfl | he
    · obtain ⟨rest, hrest⟩ := curve_eq_cons a _
      exact ⟨a, hrest ▸ List.mem_cons_self, b, List.mem_cons_self, rfl⟩
    · obtain ⟨l, hl, r, hr, rfl⟩ := ih e he
      exact ⟨l, hl, r, List.mem_cons_of_mem _ hr, rfl⟩

variable [LinearOrder K] [IsStrictOrderedRing K]

/-! ## Any two points of a curve -/

/-- A point keeps a share of another one before it. -/
def Keeps (share p e : K) : Prop := share * p ≤ e

variable {x d a b share : K}

/-- **A drawdown** of at most a share `d` says that every point keeps `1 - d` of every point before
it. -/
theorem drawdown_le_iff (hx : 0 < x) (h0 : 0 ≤ d) (h1 : d ≤ 1) :
    drawdown (x :: xs) ≤ d ↔ (x :: xs).Pairwise (Keeps (1 - d)) := by
  obtain ⟨hmem, hupper⟩ := isGreatest_drawdown (x :: xs)
  constructor
  · intro hle
    refine List.pairwise_iff_getElem.mpr fun i j hi hj hij => ?_
    -- the greatest of the points up to the later one is positive
    have hfront : (x :: xs).take (j + 1) = (x :: xs).take j ++ [(x :: xs)[j]] :=
      List.take_succ_eq_append_getElem hj
    have hearlier : (x :: xs)[i] ∈ (x :: xs).take j :=
      List.mem_take_iff_getElem.mpr ⟨i, by omega, rfl⟩
    have hfirst : x ∈ (x :: xs).take j := by
      obtain ⟨k, rfl⟩ : ∃ k, j = k + 1 := ⟨j - 1, by omega⟩
      exact List.mem_cons_self
    obtain ⟨hpeak, -⟩ := foldl_peakStep ((x :: xs).take j ++ [(x :: xs)[j]])
    cases hstate : (((x :: xs).take j ++ [(x :: xs)[j]]).foldl peakStep (none, 0)).1 with
    | none =>
      rw [hstate] at hpeak
      exact absurd hpeak (List.append_ne_nil_of_right_ne_nil _ (List.cons_ne_nil _ _))
    | some top =>
      rw [hstate] at hpeak
      obtain ⟨htop, habove⟩ := hpeak
      have hpos : 0 < top := hx.trans_le (habove x (List.mem_append_left _ hfirst))
      have hfall : (top - (x :: xs)[j]) / top ≤ d :=
        (hupper (.inr ⟨_, _, top, hfront ▸ List.take_prefix .., htop, habove, hpos, rfl⟩)).trans hle
      have hkept := (div_le_iff₀ hpos).mp hfall
      have hbelow := habove _ (List.mem_append_left _ hearlier)
      calc (1 - d) * (x :: xs)[i] ≤ (1 - d) * top :=
            mul_le_mul_of_nonneg_left hbelow (sub_nonneg.mpr h1)
        _ ≤ (x :: xs)[j] := by linarith
  · intro hpairwise
    rcases hmem with hzero | ⟨front, e, p, hfront, hp, -, hpos, hfall⟩
    · rw [hzero]
      exact h0
    · rw [hfall, div_le_iff₀ hpos]
      rcases List.mem_append.mp hp with hearlier | hsame
      · have hkept := (List.pairwise_append.mp (hpairwise.sublist hfront.sublist)).2.2 p hearlier e
          (List.mem_singleton.mpr rfl)
        rw [Keeps] at hkept
        linarith
      · rw [List.mem_singleton.mp hsame, sub_self]
        exact mul_nonneg h0 (List.mem_singleton.mp hsame ▸ hpos.le)

/-! ## Two accounts together -/

theorem keeps_of_mem_curve (hshare : share ≤ 1) (ha : 0 ≤ a)
    (h : (curve a xs).Pairwise (Keeps share)) : ∀ e ∈ curve a xs, share * a ≤ e := by
  obtain ⟨rest, hrest⟩ := curve_eq_cons a xs
  rw [hrest] at h ⊢
  intro e he
  rcases List.mem_cons.mp he with rfl | he
  · exact mul_le_of_le_one_left ha hshare
  · exact List.rel_of_pairwise_cons h he

theorem pairwise_curve_of_interleaved (hshare : share ≤ 1) (h : List.Interleaved xs ys zs) :
    ∀ {a b : K}, (∀ e ∈ curve a xs, 0 ≤ e) → (∀ e ∈ curve b ys, 0 ≤ e) →
      (curve a xs).Pairwise (Keeps share) → (curve b ys).Pairwise (Keeps share) →
        (curve (a + b) zs).Pairwise (Keeps share) := by
  induction h with
  | nil => exact fun _ _ _ _ => List.pairwise_singleton ..
  | @left profit xs ys zs rest ih =>
    intro a b hxs hys ha hb
    rw [curve, add_right_comm]
    refine List.pairwise_cons.mpr ⟨fun e he => ?_, ?_⟩
    · obtain ⟨l, hl, r, hr, rfl⟩ := mem_curve_of_interleaved rest e he
      have hleft : share * a ≤ l := List.rel_of_pairwise_cons ha hl
      have hright : share * b ≤ r := by
        obtain ⟨tail, htail⟩ := curve_eq_cons b ys
        exact keeps_of_mem_curve hshare (hys b (htail ▸ List.mem_cons_self)) hb r hr
      rw [Keeps, mul_add]
      exact add_le_add hleft hright
    · exact ih (fun e he => hxs e (List.mem_cons_of_mem _ he)) hys ha.of_cons hb
  | @right profit xs ys zs rest ih =>
    intro a b hxs hys ha hb
    rw [curve, add_assoc]
    refine List.pairwise_cons.mpr ⟨fun e he => ?_, ?_⟩
    · obtain ⟨l, hl, r, hr, rfl⟩ := mem_curve_of_interleaved rest e he
      have hright : share * b ≤ r := List.rel_of_pairwise_cons hb hr
      have hleft : share * a ≤ l := by
        obtain ⟨tail, htail⟩ := curve_eq_cons a xs
        exact keeps_of_mem_curve hshare (hxs a (htail ▸ List.mem_cons_self)) ha l hl
      rw [Keeps, mul_add]
      exact add_le_add hleft hright
    · exact ih hxs (fun e he => hys e (List.mem_cons_of_mem _ he)) ha hb.of_cons

theorem nonneg_of_mem_curve (ha : 0 < a) (h1 : d ≤ 1) (h0 : 0 ≤ d)
    (h : (curve a xs).Pairwise (Keeps (1 - d))) : ∀ e ∈ curve a xs, 0 ≤ e := fun e he =>
  (mul_nonneg (sub_nonneg.mpr h1) ha.le).trans
    (keeps_of_mem_curve (sub_le_self 1 h0) ha.le h e he)

/-- **No deeper than the worst.**  Two accounts that begin with positive balances do not fall by
more than a share `d` together if neither of them does alone. -/
theorem drawdown_interleaved_le (ha : 0 < a) (hb : 0 < b) (h0 : 0 ≤ d) (h1 : d ≤ 1)
    (h : List.Interleaved xs ys zs) (hxs : drawdown (curve a xs) ≤ d)
    (hys : drawdown (curve b ys) ≤ d) : drawdown (curve (a + b) zs) ≤ d := by
  have hiff : ∀ {balance : K} {profits : List K}, 0 < balance →
      (drawdown (curve balance profits) ≤ d ↔
        (curve balance profits).Pairwise (Keeps (1 - d))) := by
    intro balance profits hpos
    obtain ⟨rest, hrest⟩ := curve_eq_cons balance profits
    rw [hrest]
    exact drawdown_le_iff hpos h0 h1
  rw [hiff ha] at hxs
  rw [hiff hb] at hys
  rw [hiff (add_pos ha hb)]
  exact pairwise_curve_of_interleaved (sub_le_self 1 h0) h (nonneg_of_mem_curve ha h1 h0 hxs)
    (nonneg_of_mem_curve hb h1 h0 hys) hxs hys

end RunningPeak

end AdviserConstructor
