import AdviserConstructor.Backtest.KnifeCatcher
import AdviserConstructor.Library.LoopTurns

/-!
# The limit on requotes of the knife catcher

A candle with a signal quotes the pending order again and counts the quote; an order that has been
quoted again `max_requotes` times is dropped.  The statement behind the one that drops it finds no
order pending and a signal, and starts a new order on the same candle, with a count of zero.  So the
quotes go on without end while the candles qualify and the price is not met.

* `pending_requotes`: no order is counted beyond the limit.
* `requoteLimit_iff`: the limit is one exactly if no candle on which it is reached has a signal.
-/

namespace AdviserConstructor

namespace Backtest

open LoopTurns

/-! ## What is quoted on a candle -/

section

variable (p : KnifeParams) (df : Frame)

/-- The variables of the loop before candle `i`. -/
def knifeState (i : ℕ) : KnifeState := stateBefore (knifeBar p df) {} 0 i

/-- The signal of candle `i`, filters included. -/
def knifeSignal (i : ℕ) : Option ℚ :=
  if passesFilters p (df.bar i) then calcSignal p (df.bar i) else none

/-- The order that is quoted on candle `i`, if there is no position. -/
def quotedOn (i : ℕ) : Option PendingKnife :=
  match (knifeState p df i).position with
  | some _ => none
  | none => requote p (knifeState p df i).pending (knifeSignal p df i)

/-- The position that the order of candle `i` becomes on the candle behind it. -/
def filledBehind (i : ℕ) : Option OpenKnife :=
  (quotedOn p df i).bind (fillKnife p (df.bar (i + 1)) (i + 1))

/-- The order that is pending before candle `i` has been quoted again as often as it may be. -/
def LimitReached (i : ℕ) : Prop :=
  ∃ order, (knifeState p df i).pending = some order ∧ p.maxRequotes ≤ order.requotes

instance (i : ℕ) : Decidable (LimitReached p df i) :=
  decidable_of_iff ((knifeState p df i).pending.any fun order => p.maxRequotes ≤ order.requotes) (by
    simp only [LimitReached, Option.any_eq_true, decide_eq_true_eq])

/-- `max_requotes` is a limit: no order is carried through more requotes than that, no order is
quoted on the candle on which it is reached, and no streak of quotes on consecutive candles that are
not filled is longer than it by more than one. -/
structure RequoteLimit : Prop where
  carried : ∀ i < df.length - 1, ∀ order, (knifeState p df i).pending = some order →
    order.requotes ≤ p.maxRequotes
  ends : ∀ i < df.length - 1, LimitReached p df i → quotedOn p df i = none
  streak : ∀ i n : ℕ, (∀ k < n, i + k < df.length - 1 ∧ (quotedOn p df (i + k)).isSome ∧
    filledBehind p df (i + k) = none) → (n : ℤ) ≤ p.maxRequotes + 1

end

/-! ## Quotes -/

section

variable {p : KnifeParams} {df : Frame} {i : ℕ}

theorem knifeState_succ (p : KnifeParams) (df : Frame) (i : ℕ) :
    knifeState p df (i + 1) = knifeBar p df (knifeState p df i) i := by
  rw [knifeState, stateBefore_succ, Nat.zero_add]
  rfl

theorem pending_of_position (p : KnifeParams) (df : Frame) :
    ∀ i, (knifeState p df i).position ≠ none → (knifeState p df i).pending = none := by
  intro i
  induction i with
  | zero => exact fun h => absurd rfl h
  | succ i ih =>
    rw [knifeState_succ, knifeBar]
    cases hpos : (knifeState p df i).position with
    | some pos =>
      dsimp only
      cases knifeExit p.side pos (df.bar i) with
      | some x => exact fun h => absurd rfl h
      | none => exact fun _ => ih (by rw [hpos]; exact Option.some_ne_none pos)
    | none =>
      dsimp only
      split
      · exact fun _ => rfl
      · exact fun h => absurd rfl h

theorem pending_succ (hfilled : filledBehind p df i = none) :
    (knifeState p df (i + 1)).pending = quotedOn p df i := by
  rw [knifeState_succ, knifeBar]
  cases hpos : (knifeState p df i).position with
  | some pos =>
    have hquoted : quotedOn p df i = none := by rw [quotedOn, hpos]
    rw [hquoted]
    dsimp only
    cases knifeExit p.side pos (df.bar i) with
    | some x => rfl
    | none => exact pending_of_position p df i (by rw [hpos]; exact Option.some_ne_none pos)
  | none =>
    have hquoted : quotedOn p df i =
        requote p (knifeState p df i).pending (knifeSignal p df i) := by rw [quotedOn, hpos]
    rw [filledBehind, hquoted] at hfilled
    rw [hquoted]
    dsimp only
    rw [knifeSignal] at hfilled ⊢
    rw [hfilled]

theorem pending_succ_of_filled {pos : OpenKnife} (hfilled : filledBehind p df i = some pos) :
    (knifeState p df (i + 1)).pending = none := by
  have hquoted : quotedOn p df i ≠ none := by
    intro h
    rw [filledBehind, h] at hfilled
    cases hfilled
  rw [knifeState_succ, knifeBar]
  cases hpos : (knifeState p df i).position with
  | some pos =>
    rw [quotedOn, hpos] at hquoted
    exact absurd rfl hquoted
  | none =>
    rw [filledBehind, quotedOn, hpos] at hfilled
    dsimp only at hfilled ⊢
    rw [knifeSignal] at hfilled
    rw [hfilled]

theorem requote_none (p : KnifeParams) (pending : Option PendingKnife) :
    requote p pending none = none := by
  cases pending <;> rfl

theorem requote_some (p : KnifeParams) (pending : Option PendingKnife) (entry : ℚ) :
    requote p pending (some entry) ≠ none := by
  cases pending with
  | none => nofun
  | some order =>
    simp only [requote, Option.bind_some]
    split_ifs
    · nofun
    · nofun
    · nofun

theorem requote_cases {pending : Option PendingKnife} {sig : Option ℚ} {order : PendingKnife}
    (hrequote : p.requoteEachCandle = true) (h : requote p pending sig = some order) :
    (∃ before, pending = some before ∧ before.requotes < p.maxRequotes ∧
        order.requotes = before.requotes + 1) ∨
      ((∀ before, pending = some before → p.maxRequotes ≤ before.requotes) ∧
        order.requotes = 0) := by
  cases sig with
  | none =>
    rw [requote_none] at h
    cases h
  | some entry =>
    cases pending with
    | none =>
      cases h
      exact .inr ⟨nofun, rfl⟩
    | some before =>
      simp only [requote, Option.bind_some, hrequote] at h
      by_cases hlimit : p.maxRequotes ≤ before.requotes
      · rw [if_pos hlimit] at h
        cases h
        refine .inr ⟨fun other hother => ?_, rfl⟩
        cases hother
        exact hlimit
      · rw [if_neg hlimit] at h
        cases h
        exact .inl ⟨before, rfl, not_le.mp hlimit, rfl⟩

theorem quotedOn_requotes (hrequote : p.requoteEachCandle = true) (hmax : 0 ≤ p.maxRequotes)
    (hpending : ∀ order, (knifeState p df i).pending = some order → 0 ≤ order.requotes)
    {order : PendingKnife} (h : quotedOn p df i = some order) :
    0 ≤ order.requotes ∧ order.requotes ≤ p.maxRequotes := by
  rw [quotedOn] at h
  cases hpos : (knifeState p df i).position with
  | some pos =>
    rw [hpos] at h
    cases h
  | none =>
    rw [hpos] at h
    rcases requote_cases hrequote h with ⟨before, hbefore, hlt, hcount⟩ | ⟨_, hcount⟩
    · have hnonneg := hpending before hbefore
      omega
    · omega

/-- **The count.**  No order is counted beyond the limit: one that is carried over a candle is
counted once more below it, and one that is started has the count zero. -/
theorem pending_requotes (hrequote : p.requoteEachCandle = true) (hmax : 0 ≤ p.maxRequotes) :
    ∀ i order, (knifeState p df i).pending = some order →
      0 ≤ order.requotes ∧ order.requotes ≤ p.maxRequotes := by
  intro i
  induction i with
  | zero => exact fun order h => by cases h
  | succ i ih =>
    intro order h
    cases hfilled : filledBehind p df i with
    | some pos =>
      rw [pending_succ_of_filled hfilled] at h
      cases h
    | none =>
      rw [pending_succ hfilled] at h
      exact quotedOn_requotes hrequote hmax (fun before hbefore => (ih before hbefore).1) h

theorem le_requotes_of_streak (hrequote : p.requoteEachCandle = true) {n : ℕ}
    (hends : ∀ j < df.length - 1, LimitReached p df j → quotedOn p df j = none)
    (hstreak : ∀ k < n, i + k < df.length - 1 ∧ (quotedOn p df (i + k)).isSome ∧
      filledBehind p df (i + k) = none)
    (hcount : ∀ order, quotedOn p df i = some order → 0 ≤ order.requotes) :
    ∀ k < n, ∀ order, quotedOn p df (i + k) = some order → (k : ℤ) ≤ order.requotes := by
  intro k
  induction k with
  | zero => exact fun _ order h => hcount order h
  | succ k ih =>
    intro hk order h
    obtain ⟨_, hquoted, hfilled⟩ := hstreak k (by omega)
    obtain ⟨before, hbefore⟩ := Option.isSome_iff_exists.mp hquoted
    have hpending : (knifeState p df (i + (k + 1))).pending = some before :=
      (pending_succ hfilled).trans hbefore
    have hlimit : ¬LimitReached p df (i + (k + 1)) := by
      intro hreached
      rw [hends _ (hstreak (k + 1) hk).1 hreached] at h
      cases h
    rw [quotedOn] at h
    cases hpos : (knifeState p df (i + (k + 1))).position with
    | some pos =>
      rw [hpos] at h
      cases h
    | none =>
      rw [hpos, hpending] at h
      rcases requote_cases hrequote h with ⟨other, hother, _, hnext⟩ | ⟨hreached, _⟩
      · cases hother
        have hprev := ih (by omega) before hbefore
        omega
      · exact absurd ⟨before, hpending, hreached before rfl⟩ hlimit

/-- **The limit on requotes.**  The limit is one exactly if no candle that finds a pending order at
the limit has a signal: such a candle drops the order and starts a new one at once. -/
theorem requoteLimit_iff (p : KnifeParams) (df : Frame) (hrequote : p.requoteEachCandle = true)
    (hmax : 0 ≤ p.maxRequotes) :
    RequoteLimit p df ↔
      ∀ i < df.length - 1, LimitReached p df i → knifeSignal p df i = none := by
  have hbounds := @pending_requotes p df hrequote hmax
  constructor
  · intro h i hi hreached
    have hnone := h.ends i hi hreached
    obtain ⟨order, horder, _⟩ := hreached
    have hpos : (knifeState p df i).position = none := by
      by_contra hpos
      rw [pending_of_position p df i hpos] at horder
      cases horder
    rw [quotedOn, hpos] at hnone
    cases hsig : knifeSignal p df i with
    | none => rfl
    | some entry =>
      rw [hsig] at hnone
      exact absurd hnone (requote_some p _ entry)
  · intro h
    have hends : ∀ i < df.length - 1, LimitReached p df i → quotedOn p df i = none := by
      intro i hi hreached
      rw [quotedOn, h i hi hreached, requote_none]
      cases (knifeState p df i).position <;> rfl
    refine ⟨fun i _ order horder => (hbounds i order horder).2, hends, fun i n hstreak => ?_⟩
    have hquotes : ∀ j order, quotedOn p df j = some order →
        0 ≤ order.requotes ∧ order.requotes ≤ p.maxRequotes := fun j order horder =>
      quotedOn_requotes hrequote hmax (fun before hbefore => (hbounds j before hbefore).1) horder
    cases n with
    | zero =>
      show (0 : ℤ) ≤ p.maxRequotes + 1
      omega
    | succ n =>
      -- the last quote of the streak has been counted `n` times
      obtain ⟨last, hlast⟩ := Option.isSome_iff_exists.mp (hstreak n (Nat.lt_succ_self n)).2.1
      have hcount := le_requotes_of_streak hrequote hends hstreak
        (fun order horder => (hquotes i order horder).1) n (Nat.lt_succ_self n) last hlast
      have hle := (hquotes _ last hlast).2
      omega

end

/-- A candle that falls by `fall` from `start` to its low. -/
def fallingCandle (time : ℤ) (start fall : ℚ) : Bar :=
  ⟨time, start, start, start - fall, start - fall, 1⟩

/-- Candles that fall within themselves and rise from one to the next; the third one falls by
`fall`. -/
def risingFalls (fall : ℚ) : Frame :=
  [fallingCandle 0 100 1, fallingCandle 1 102 1, fallingCandle 2 104 fall, fallingCandle 3 106 0]

/-- The order may be quoted again once. -/
def oneRequote : KnifeParams where
  maxRequotes := 1

/-- The limit is reached on the third candle, which does not qualify. -/
theorem requoteLimit_quiet :
    LimitReached oneRequote (risingFalls 0) 2 ∧ RequoteLimit oneRequote (risingFalls 0) :=
  ⟨by decide +kernel,
    (requoteLimit_iff oneRequote (risingFalls 0) rfl (by decide)).mpr (by decide +kernel)⟩

/-- The limit is reached on the third candle, which qualifies: a third quote of the streak is
made. -/
theorem not_requoteLimit_falling :
    ¬∀ (p : KnifeParams) (df : Frame), p.requoteEachCandle = true → 0 ≤ p.maxRequotes →
      RequoteLimit p df := by
  intro h
  have hstreak := (h oneRequote (risingFalls 1) rfl (by decide)).streak 0 3 (by decide +kernel)
  exact absurd hstreak (by decide)

end Backtest

end AdviserConstructor
