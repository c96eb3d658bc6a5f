import AdviserConstructor.Backtest.AtrOrderBlock
import AdviserConstructor.Library.LoopTurns
import Mathlib.Algebra.Order.BigOperators.Group.List
import Mathlib.Tactic.Linarith

/-!
# The shares of an ATR order-block position

A position is taken off in shares: every target that is hit closes its fraction, and the stop closes
what remains.  The fractions come from the client and are not checked.  If they do not sum to one, a
position whose targets are all hit has closed another share than the whole; and if those that are
hit first sum to more than one, what remains is negative, and is stopped with the wrong sign.

* `SoundLadder`: the fractions sum to one, and no price path closes more than the whole.
* `onLadder_reach`: on a ladder, the targets that are hit are those up to a price, and what remains
  is the whole without their fractions.
* `atrAccounting_iff`: the accounting is right on every frame exactly if the ladder is sound.
-/

namespace AdviserConstructor

namespace Backtest

open LoopTurns

/-! ## The accounting -/

/-- The fractions of the targets that are hit. -/
def hitShare (targets : List Target) : ℚ := ((targets.filter Target.hit).map Target.fraction).sum

/-- What the targets that are hit have brought in. -/
def hitPnl (entry : ℚ) (targets : List Target) : ℚ :=
  ((targets.filter Target.hit).map fun t => (t.take - entry) / entry * t.fraction).sum

/-- A position inside the loop over its targets, behind the first `k` of them. -/
def AtrPosition.reachFirst (pos : AtrPosition) (high : ℚ) (k : ℕ) : AtrPosition :=
  let front : AtrPosition := { pos with targets := pos.targets.take k }
  { front.reach high with targets := (front.reach high).targets ++ pos.targets.drop k }

/-- What remains of a position is not negative, and is the whole without the fractions that are
hit. -/
structure AtrPosition.Accounted (pos : AtrPosition) : Prop where
  nonneg : 0 ≤ pos.remaining
  remaining : pos.remaining = 1 - hitShare pos.targets

/-- The position that bar `v.2` closes, with the way in which it ends. -/
def atrClosing (df : Frame) (v : AtrObState × ℕ) : List (AtrPosition × RowExit) :=
  match v.1.position with
  | none => []
  | some pos =>
      if (df.bar v.2).low ≤ pos.sl then [(pos.stopped, .sl)]
      else if (pos.reach (df.bar v.2).high).targets.all Target.hit then
        [(pos.reach (df.bar v.2).high, .tp)]
      else []

/-- The profit of a position that has ended is that of the targets that are hit, and of what the
stop has closed; together they have closed the whole. -/
structure ClosesWhole (c : AtrPosition × RowExit) : Prop where
  pnl : c.1.pnl = hitPnl c.1.entry c.1.targets +
    if c.2 = .sl then (c.1.sl - c.1.entry) / c.1.entry * c.1.remaining else 0
  whole : hitShare c.1.targets + (if c.2 = .sl then c.1.remaining else 0) = 1

/-- The turns of the loop of `atr_ob_backtest`. -/
def atrTurns (p : AtrObParams) (df : Frame) : List (AtrObState × ℕ) :=
  turns (atrObBar p df) {} (List.range' 1 (df.length - 1))

/-- The accounting of a run: in every state, those inside the loop over the targets included, and
for every position that ends. -/
structure AtrAccounting (p : AtrObParams) (df : Frame) : Prop where
  states : ∀ st ∈ (List.range' 1 (df.length - 1)).scanl (atrObBar p df) {},
    ∀ pos, st.position = some pos → pos.Accounted
  inner : ∀ v ∈ atrTurns p df, ∀ pos, v.1.position = some pos → pos.sl < (df.bar v.2).low →
    ∀ k, (pos.reachFirst (df.bar v.2).high k).Accounted
  closings : ∀ v ∈ atrTurns p df, ∀ c ∈ atrClosing df v, ClosesWhole c

theorem trades_atrObBacktest (p : AtrObParams) (df : Frame) :
    (atrObBacktest p df).trades = (atrTurns p df).flatMap fun v =>
      (atrClosing df v).map fun c => atrTrade p df c.1 v.2 c.2 := by
  refine @log_foldl _ _ _ (atrObBar p df) AtrObState.trades _ (fun st i => ?_) _ _
  rw [atrObBar, atrClosing]
  cases hpos : st.position with
  | none =>
    cases entryRule p df i with
    | none => exact (List.append_nil _).symm
    | some x =>
      dsimp only
      split_ifs
      · exact (List.append_nil _).symm
      · exact (List.append_nil _).symm
  | some pos =>
    dsimp only
    split_ifs
    · rfl
    · rfl
    · exact (List.append_nil _).symm

/-! ## Ladders -/

/-- The fractions of the levels whose multiple, in the direction `a`, is at most `y`. -/
def cutShare (levels : List (ℚ × ℚ)) (a y : ℚ) : ℚ :=
  ((levels.filter fun level => decide (level.1 * a ≤ y)).map Prod.snd).sum

/-- The fractions of the levels between `y` and `x`. -/
def betweenShare (levels : List (ℚ × ℚ)) (a y x : ℚ) : ℚ :=
  ((levels.filter fun level => !decide (level.1 * a ≤ y) && decide (level.1 * a ≤ x)).map
    Prod.snd).sum

/-- No price path closes more than the whole: the levels up to `y`, and behind them those between
`y` and `x`, in the order of the list.  In frames whose candles have their lows above their highs
the ATR may be negative, and the levels are hit from above. -/
structure SoundLadder (levels : List (ℚ × ℚ)) : Prop where
  whole : (levels.map Prod.snd).sum = 1
  covered : ∀ a : ℚ, a = 1 ∨ a = -1 → ∀ y x k,
    cutShare levels a y + betweenShare (levels.take k) a y x ≤ 1

theorem soundLadder_of_nonneg {levels : List (ℚ × ℚ)} (hnonneg : ∀ level ∈ levels, 0 ≤ level.2)
    (hwhole : (levels.map Prod.snd).sum = 1) : SoundLadder levels := by
  refine ⟨hwhole, fun a _ y x k => ?_⟩
  have hsplit : cutShare levels a y + betweenShare levels a y x ≤ (levels.map Prod.snd).sum := by
    clear hwhole
    induction levels with
    | nil => simp [cutShare, betweenShare]
    | cons level levels ih =>
      have hrest := ih fun other hother => hnonneg other (List.mem_cons_of_mem _ hother)
      have hfirst := hnonneg level List.mem_cons_self
      rw [cutShare, betweenShare] at hrest ⊢
      by_cases hy : level.1 * a ≤ y
      · simp only [hy, List.filter_cons, decide_true, if_true, Bool.not_true, Bool.false_and,
          Bool.false_eq_true, if_false, List.map_cons, List.sum_cons]
        linarith
      · by_cases hx : level.1 * a ≤ x
        · simp only [hy, hx, List.filter_cons, decide_false, Bool.false_eq_true, if_false,
            Bool.not_false, decide_true, Bool.and_self, if_true, List.map_cons, List.sum_cons]
          linarith
        · simp only [hy, hx, List.filter_cons, decide_false, Bool.false_eq_true, if_false,
            Bool.and_false, List.map_cons, List.sum_cons]
          linarith
  have htake : betweenShare (levels.take k) a y x ≤ betweenShare levels a y x := by
    refine List.Sublist.sum_le_sum (((List.take_sublist k levels).filter _).map _) ?_
    intro fraction hfraction
    obtain ⟨level, hlevel, rfl⟩ := List.mem_map.mp hfraction
    exact hnonneg level (List.mem_of_mem_filter hlevel)
  linarith

/-! ## Hitting targets -/

/-- What remains of a position is the whole without the fractions that are hit, and its profit is
what these have brought in. -/
structure AtrPosition.Kept (pos : AtrPosition) : Prop where
  remaining : pos.remaining = 1 - hitShare pos.targets
  pnl : pos.pnl = hitPnl pos.entry pos.targets

def Target.mark (high : ℚ) (t : Target) : Target :=
  if t.isReached high then { t with hit := true } else t

theorem sum_hit_mark (g : Target → ℚ) (hg : ∀ t : Target, g { t with hit := true } = g t) (high : ℚ)
    (targets : List Target) :
    (((targets.map (Target.mark high)).filter Target.hit).map g).sum =
      ((targets.filter Target.hit).map g).sum +
        ((targets.filter (Target.isReached high)).map g).sum := by
  induction targets with
  | nil => exact (add_zero _).symm
  | cons t targets ih =>
    rw [List.map_cons, List.filter_cons, List.filter_cons, List.filter_cons, Target.mark]
    by_cases hreached : t.isReached high = true
    · have hnot : t.hit = false := by
        rw [Target.isReached, Bool.and_eq_true, Bool.not_eq_true'] at hreached
        exact hreached.1
      rw [if_pos hreached, if_pos hreached, if_pos rfl, hnot, if_neg Bool.false_ne_true,
        List.map_cons, List.sum_cons, List.map_cons, List.sum_cons, ih, hg]
      ring
    · rw [if_neg hreached, if_neg hreached]
      cases t.hit with
      | false => exact ih
      | true =>
        rw [if_pos rfl, if_pos rfl, List.map_cons, List.sum_cons, List.map_cons, List.sum_cons, ih]
        ring

theorem hitShare_append (targets targets' : List Target) :
    hitShare (targets ++ targets') = hitShare targets + hitShare targets' := by
  simp only [hitShare, List.filter_append, List.map_append, List.sum_append]

theorem hitPnl_append (entry : ℚ) (targets targets' : List Target) :
    hitPnl entry (targets ++ targets') = hitPnl entry targets + hitPnl entry targets' := by
  simp only [hitPnl, List.filter_append, List.map_append, List.sum_append]

theorem hitShare_mark (high : ℚ) (targets : List Target) :
    hitShare (targets.map (Target.mark high)) =
      hitShare targets + ((targets.filter (Target.isReached high)).map Target.fraction).sum :=
  sum_hit_mark Target.fraction (fun _ => rfl) high targets

theorem hitPnl_mark (entry high : ℚ) (targets : List Target) :
    hitPnl entry (targets.map (Target.mark high)) = hitPnl entry targets +
      ((targets.filter (Target.isReached high)).map fun t =>
        (t.take - entry) / entry * t.fraction).sum :=
  sum_hit_mark (fun t => (t.take - entry) / entry * t.fraction) (fun _ => rfl) high targets

/-- **A bar keeps the books**, behind every one of the targets that it reaches. -/
theorem AtrPosition.Kept.reachFirst {pos : AtrPosition} (h : pos.Kept) (high : ℚ) (k : ℕ) :
    (pos.reachFirst high k).Kept := by
  have htargets : (pos.reachFirst high k).targets =
      (pos.targets.take k).map (Target.mark high) ++ pos.targets.drop k := rfl
  have hshare := hitShare_append (pos.targets.take k) (pos.targets.drop k)
  have hpnl := hitPnl_append pos.entry (pos.targets.take k) (pos.targets.drop k)
  rw [List.take_append_drop] at hshare hpnl
  constructor
  · rw [htargets, hitShare_append, hitShare_mark]
    show pos.remaining - _ = _
    linarith only [h.remaining, hshare]
  · rw [htargets, hitPnl_append, show (pos.reachFirst high k).entry = pos.entry from rfl,
      hitPnl_mark]
    show pos.pnl + _ = _
    linarith only [h.pnl, hpnl]

theorem reachFirst_zero (pos : AtrPosition) (high : ℚ) : pos.reachFirst high 0 = pos := by
  cases pos
  simp only [AtrPosition.reachFirst, AtrPosition.reach, List.take_zero, List.drop_zero,
    List.map_nil, List.nil_append, List.filter_nil, List.sum_nil, sub_zero, add_zero]

theorem reach_eq_reachFirst (pos : AtrPosition) (high : ℚ) :
    pos.reach high = pos.reachFirst high pos.targets.length := by
  rw [AtrPosition.reachFirst, List.take_length, List.drop_length, List.append_nil]

/-! ## Hitting the levels of a ladder -/

section

variable {levels : List (ℚ × ℚ)} {a y x : ℚ}

theorem exists_bound (levels : List (ℚ × ℚ)) (a : ℚ) :
    ∃ bound, ∀ level ∈ levels, |level.1 * a| ≤ bound := by
  induction levels with
  | nil => exact ⟨0, fun level h => by cases h⟩
  | cons level levels ih =>
    obtain ⟨bound, hbound⟩ := ih
    refine ⟨max |level.1 * a| bound, fun other hother => ?_⟩
    rcases List.mem_cons.mp hother with rfl | hother
    · exact le_max_left _ _
    · exact (hbound other hother).trans (le_max_right _ _)

theorem exists_cut (levels : List (ℚ × ℚ)) (a : ℚ) :
    ∃ b : ℚ, (b = 1 ∨ b = -1) ∧ ∀ y, ∃ y', ∀ level ∈ levels,
      (level.1 * a ≤ y ↔ level.1 * b ≤ y') := by
  rcases lt_trichotomy a 0 with hneg | rfl | hpos
  · refine ⟨-1, .inr rfl, fun y => ⟨y / -a, fun level _ => ?_⟩⟩
    rw [le_div_iff₀ (neg_pos.mpr hneg), show level.1 * -1 * -a = level.1 * a by ring]
  · -- in no direction all levels are hit at once, or none is
    obtain ⟨bound, hbound⟩ := exists_bound levels 1
    refine ⟨1, .inl rfl, fun y => ⟨if 0 ≤ y then bound else -bound - 1, fun level hlevel => ?_⟩⟩
    obtain ⟨hlow, hhigh⟩ := abs_le.mp (hbound level hlevel)
    rw [mul_zero]
    by_cases hy : 0 ≤ y
    · rw [if_pos hy]
      exact iff_of_true hy hhigh
    · rw [if_neg hy]
      exact iff_of_false hy (by linarith)
  · refine ⟨1, .inl rfl, fun y => ⟨y / a, fun level _ => ?_⟩⟩
    rw [le_div_iff₀ hpos, mul_one]

theorem SoundLadder.covered_of (h : SoundLadder levels) (a y x : ℚ) (k : ℕ) :
    cutShare levels a y + betweenShare (levels.take k) a y x ≤ 1 := by
  obtain ⟨b, hb, hcut⟩ := exists_cut levels a
  obtain ⟨y', hy⟩ := hcut y
  obtain ⟨x', hx⟩ := hcut x
  have hcuts : cutShare levels a y = cutShare levels b y' := by
    rw [cutShare]
    congr 2
    exact List.filter_congr fun level hlevel => decide_eq_decide.mpr (hy level hlevel)
  have hbetween : betweenShare (levels.take k) a y x = betweenShare (levels.take k) b y' x' := by
    rw [betweenShare]
    congr 2
    refine List.filter_congr fun level hlevel => ?_
    have hmem := List.mem_of_mem_take hlevel
    rw [decide_eq_decide.mpr (hy level hmem), decide_eq_decide.mpr (hx level hmem)]
  rw [hcuts, hbetween]
  exact h.covered b hb y' x' k

/-- The target of a level of a position that is entered at `entry`, where the levels up to `y` are
hit. -/
def targetAt (entry a y : ℚ) (level : ℚ × ℚ) : Target :=
  { take := entry + level.1 * a, fraction := level.2, hit := decide (level.1 * a ≤ y) }

/-- A position on a ladder whose levels up to `y` are hit. -/
def OnLadder (levels : List (ℚ × ℚ)) (a y : ℚ) (pos : AtrPosition) : Prop :=
  pos.targets = levels.map (targetAt pos.entry a y)

theorem hitShare_targetAt (entry : ℚ) :
    hitShare (levels.map (targetAt entry a y)) = cutShare levels a y := by
  rw [hitShare, List.filter_map, List.map_map]
  rfl

theorem mark_targetAt (entry a y high : ℚ) (level : ℚ × ℚ) :
    (targetAt entry a y level).mark high = targetAt entry a (max y (high - entry)) level := by
  rw [Target.mark, Target.isReached, targetAt, targetAt]
  simp only [le_max_iff, le_sub_iff_add_le']
  by_cases hy : level.1 * a ≤ y
  · simp [hy]
  · by_cases hx : entry + level.1 * a ≤ high
    · simp [hx]
    · simp [hx]

/-- **A bar on a ladder**: the levels up to its high are hit. -/
theorem OnLadder.reach {pos : AtrPosition} (h : OnLadder levels a y pos) (high : ℚ) :
    OnLadder levels a (max y (high - pos.entry)) (pos.reach high) := by
  show pos.targets.map (Target.mark high) = _
  rw [h, List.map_map]
  exact List.map_congr_left fun level _ => mark_targetAt pos.entry a y high level

theorem OnLadder.hitShare_reachFirst {pos : AtrPosition} (h : OnLadder levels a y pos) (high : ℚ)
    (k : ℕ) : hitShare (pos.reachFirst high k).targets =
      cutShare levels a y + betweenShare (levels.take k) a y (high - pos.entry) := by
  have htargets : (pos.reachFirst high k).targets =
      (pos.targets.take k).map (Target.mark high) ++ pos.targets.drop k := rfl
  have hsplit := hitShare_append (pos.targets.take k) (pos.targets.drop k)
  rw [List.take_append_drop, h, hitShare_targetAt, ← List.map_take] at hsplit
  have hreached : (((levels.take k).map (targetAt pos.entry a y)).filter
      (Target.isReached high)).map Target.fraction =
      ((levels.take k).filter fun level => !decide (level.1 * a ≤ y) &&
        decide (level.1 * a ≤ high - pos.entry)).map Prod.snd := by
    rw [List.filter_map, List.map_map]
    refine congrArg _ (List.filter_congr fun level _ => ?_)
    show (!decide (level.1 * a ≤ y) && decide (pos.entry + level.1 * a ≤ high)) = _
    rw [decide_eq_decide.mpr le_sub_iff_add_le'.symm]
  rw [htargets, hitShare_append, hitShare_mark, betweenShare, h, ← List.map_take, hreached]
  linarith only [hsplit]

end

/-! ## Sound ladders -/

section

variable {p : AtrObParams} {df : Frame}

/-- What holds of the position in every state of a run. -/
def PositionOnLadder (p : AtrObParams) (st : AtrObState) : Prop :=
  ∀ pos, st.position = some pos → pos.Kept ∧ ∃ a y, OnLadder p.tpLevels a y pos

theorem onLadder_entryRule {i : ℕ} {block : BullBlock} {pos : AtrPosition}
    (h : entryRule p df i = some (block, pos)) :
    pos.Kept ∧ ∃ a y, OnLadder p.tpLevels a y pos := by
  rw [entryRule] at h
  cases hblock : carriedBlock p df (i - 1) with
  | none =>
    rw [hblock] at h
    cases h
  | some found =>
    cases hatr : calcAtr df p.atrPeriod (i - 1) with
    | none =>
      rw [hblock, hatr] at h
      cases h
    | some atr =>
      rw [hblock, hatr] at h
      rw [Option.ite_none_right_eq_some] at h
      obtain ⟨_, h⟩ := h
      cases h
      obtain ⟨bound, hbound⟩ := exists_bound p.tpLevels atr
      have hnone : ∀ level ∈ p.tpLevels, ¬level.1 * atr ≤ -bound - 1 := by
        intro level hlevel hle
        have hlow := (abs_le.mp (hbound level hlevel)).1
        linarith only [hle, hlow]
      have hshare : ∀ entry, hitShare (p.tpLevels.map fun level =>
          { take := entry + level.1 * atr, fraction := level.2 }) = 0 ∧
          hitPnl entry (p.tpLevels.map fun level =>
            { take := entry + level.1 * atr, fraction := level.2 }) = 0 := by
        intro entry
        rw [hitShare, hitPnl, List.filter_map]
        have hempty : (p.tpLevels.filter (Target.hit ∘ fun level =>
            { take := entry + level.1 * atr, fraction := level.2 })) = [] :=
          List.filter_eq_nil_iff.mpr fun level _ => Bool.false_ne_true
        rw [hempty]
        exact ⟨rfl, rfl⟩
      refine ⟨⟨?_, (hshare _).2.symm⟩, atr, -bound - 1, ?_⟩
      · show (1 : ℚ) = 1 - _
        rw [(hshare _).1, sub_zero]
      · refine List.map_congr_left fun level hlevel => ?_
        rw [targetAt, decide_eq_false (hnone level hlevel)]

theorem positionOnLadder_atrObBar {st : AtrObState} {i : ℕ} (h : PositionOnLadder p st) :
    PositionOnLadder p (atrObBar p df st i) := by
  intro pos hpos
  rw [atrObBar] at hpos
  cases hbefore : st.position with
  | none =>
    rw [hbefore] at hpos
    cases hentry : entryRule p df i with
    | none =>
      simp only [hentry] at hpos
      exact h pos hpos
    | some x =>
      simp only [hentry] at hpos
      split_ifs at hpos
      · exact h pos hpos
      · cases hpos
        exact onLadder_entryRule hentry
  | some before =>
    rw [hbefore] at hpos
    dsimp only at hpos
    split_ifs at hpos
    cases hpos
    obtain ⟨hkept, a, y, hladder⟩ := h before hbefore
    refine ⟨?_, a, _, hladder.reach _⟩
    rw [reach_eq_reachFirst]
    exact hkept.reachFirst _ _

theorem positionOnLadder_of_mem (p : AtrObParams) (df : Frame) :
    ∀ st ∈ (List.range' 1 (df.length - 1)).scanl (atrObBar p df) {}, PositionOnLadder p st :=
  forall_scanl_of_turns (fun pos hpos => by cases hpos) fun _ _ h => positionOnLadder_atrObBar h

theorem accounted_reachFirst (hsound : SoundLadder p.tpLevels) {pos : AtrPosition}
    (hkept : pos.Kept) {a y : ℚ} (hladder : OnLadder p.tpLevels a y pos) (high : ℚ) (k : ℕ) :
    (pos.reachFirst high k).Accounted := by
  have hafter := hkept.reachFirst high k
  refine ⟨?_, hafter.remaining⟩
  rw [hafter.remaining, hladder.hitShare_reachFirst]
  have hcovered := hsound.covered_of a y (high - pos.entry) k
  linarith only [hcovered]

/-- **A sound ladder** keeps the accounting, on every frame. -/
theorem atrAccounting_of_soundLadder (hsound : SoundLadder p.tpLevels) : AtrAccounting p df := by
  have hstates := positionOnLadder_of_mem p df
  refine ⟨fun st hst pos hpos => ?_, fun v hv pos hpos _ k => ?_, fun v hv c hc => ?_⟩
  · obtain ⟨hkept, a, y, hladder⟩ := hstates st hst pos hpos
    have hhere := accounted_reachFirst hsound hkept hladder 0 0
    rwa [reachFirst_zero] at hhere
  · obtain ⟨hkept, a, y, hladder⟩ := hstates _ (mem_scanl_of_mem_turns hv) pos hpos
    exact accounted_reachFirst hsound hkept hladder _ k
  · rw [atrClosing] at hc
    cases hpos : v.1.position with
    | none =>
      rw [hpos] at hc
      cases hc
    | some pos =>
      obtain ⟨hkept, a, y, hladder⟩ := hstates _ (mem_scanl_of_mem_turns hv) pos hpos
      rw [hpos] at hc
      dsimp only at hc
      split_ifs at hc with hstop hall
      · rw [List.mem_singleton.mp hc]
        refine ⟨?_, ?_⟩
        · exact congrArg (· + _) hkept.pnl
        · show hitShare pos.targets + pos.remaining = 1
          rw [hkept.remaining, add_sub_cancel]
      · rw [List.mem_singleton.mp hc, reach_eq_reachFirst]
        have hafter := hkept.reachFirst (df.bar v.2).high pos.targets.length
        refine ⟨?_, ?_⟩
        · rw [if_neg nofun, add_zero]
          exact hafter.pnl
        · rw [if_neg nofun, add_zero, ← reach_eq_reachFirst, hitShare,
            List.filter_eq_self.mpr (List.all_eq_true.mp hall), hladder.reach (df.bar v.2).high,
            List.map_map]
          exact hsound.whole
      · cases hc

end

/-! ## Ladders that are not sound -/

section

variable {p : AtrObParams} {df : Frame} {st : AtrObState} {i : ℕ} {pos : AtrPosition} {a y x : ℚ}

theorem onLadder_of_fresh (hfresh : pos.targets = p.tpLevels.map fun level =>
      { take := pos.entry + level.1 * a, fraction := level.2 }) (y : ℚ) :
    OnLadder p.tpLevels a y (pos.reach (pos.entry + y)) := by
  show pos.targets.map (Target.mark _) = _
  rw [hfresh, List.map_map]
  refine List.map_congr_left fun level _ => ?_
  show Target.mark _ { take := _, fraction := _ } = _
  rw [Target.mark, Target.isReached, targetAt]
  by_cases hy : level.1 * a ≤ y
  · simp [hy]
    rfl
  · simp [hy]
    rfl

theorem covered_of_accounting (h : AtrAccounting p df) (hturn : (st, i) ∈ atrTurns p df)
    (hnext : (atrObBar p df st i, i + 1) ∈ atrTurns p df) (hpos : st.position = some pos)
    (hfresh : pos.targets = p.tpLevels.map fun level =>
      { take := pos.entry + level.1 * a, fraction := level.2 })
    (hlow : pos.sl < (df.bar i).low) (hlow' : pos.sl < (df.bar (i + 1)).low)
    (hhigh : (df.bar i).high = pos.entry + y) (hhigh' : (df.bar (i + 1)).high = pos.entry + x) :
    (∀ k, cutShare p.tpLevels a y + betweenShare (p.tpLevels.take k) a y x ≤ 1) ∧
      ((∀ level ∈ p.tpLevels, level.1 * a ≤ y) → (p.tpLevels.map Prod.snd).sum = 1) := by
  have hladder := onLadder_of_fresh hfresh y
  by_cases hall : (pos.reach (df.bar i).high).targets.all Target.hit = true
  · -- the first bar hits all levels, and the position ends
    have hwhole := (h.closings _ hturn (pos.reach (df.bar i).high, .tp) (by
      rw [atrClosing, hpos]
      dsimp only
      rw [if_neg (not_le.mpr hlow), if_pos hall]
      exact List.mem_singleton.mpr rfl)).whole
    rw [if_neg nofun, add_zero] at hwhole
    rw [hhigh] at hall hwhole
    rw [hladder, hitShare_targetAt] at hwhole
    rw [hladder, List.all_map, List.all_eq_true] at hall
    have hlevels : ∀ level ∈ p.tpLevels, level.1 * a ≤ y := fun level hlevel =>
      of_decide_eq_true (hall level hlevel)
    constructor
    · intro k
      have hnone : betweenShare (p.tpLevels.take k) a y x = 0 := by
        rw [betweenShare, List.filter_eq_nil_iff.mpr]
        · rfl
        · intro level hlevel
          rw [decide_eq_true (hlevels level (List.mem_of_mem_take hlevel))]
          exact Bool.false_ne_true
      rw [hwhole, hnone, add_zero]
    · intro _
      rw [cutShare, List.filter_eq_self.mpr fun level hlevel =>
        decide_eq_true (hlevels level hlevel)] at hwhole
      exact hwhole
  · constructor
    · intro k
      have hopen : (atrObBar p df st i).position = some (pos.reach (df.bar i).high) := by
        rw [atrObBar, hpos]
        dsimp only
        rw [if_neg (not_le.mpr hlow), if_neg hall]
      have hinner := h.inner _ hnext _ hopen hlow' k
      have hshare := hladder.hitShare_reachFirst (df.bar (i + 1)).high k
      have hentry : (pos.reach (pos.entry + y)).entry = pos.entry := rfl
      rw [hentry, hhigh', add_sub_cancel_left] at hshare
      rw [hhigh, hhigh'] at hinner
      have hremaining := hinner.remaining
      have hnonneg := hinner.nonneg
      linarith only [hshare, hremaining, hnonneg]
    · intro hlevels
      refine absurd ?_ hall
      rw [hhigh, hladder, List.all_map, List.all_eq_true]
      exact fun level hlevel => decide_eq_true (hlevels level hlevel)

end

/-- A bar on which the price stands still. -/
def stillBar (time : ℤ) (price : ℚ) : Bar := ⟨time, price, price, price, price, 1⟩

/-- An impulse on bar 2 that marks bar 3, an entry at 100 on bar 4, where the ATR is 1, and two bars
at a distance of `y` and `x` from it. -/
def probeFrame (y x : ℚ) : Frame :=
  [stillBar 0 90, stillBar 1 90, ⟨2, 110, 110, 90, 95, 1⟩, ⟨3, 95, 96, 95, 96, 1⟩, stillBar 4 100,
    stillBar 5 (100 + y), stillBar 6 (100 + x)]

/-- A malformed candle, which makes the ATR of bar 1 negative; the impulse on bar 2 marks bar 3 and
with it bar 1, which has the same time, so that the entry is at 110 on bar 2. -/
def malformedFrame (y x : ℚ) : Frame :=
  [⟨0, 90, 0, 8, 90, 1⟩, stillBar 1 96, ⟨2, 110, 110, 90, 95, 1⟩, stillBar 1 (110 + y),
    stillBar 4 (110 + x)]

/-- Parameters under which every fall is an impulse, for a ladder, an ATR period, and a buffer. -/
def probeParams (levels : List (ℚ × ℚ)) (atrPeriod : ℕ) (buffer : ℚ) : AtrObParams where
  emaPeriod := 3
  atrPeriod := atrPeriod
  impulseAtr := 0
  obBufferAtr := buffer
  tpLevels := levels

section

variable (levels : List (ℚ × ℚ)) (buffer y x : ℚ)

theorem entryRule_probeFrame :
    (∀ i ≤ 3, entryRule (probeParams levels 1 buffer) (probeFrame y x) i = none) ∧
    entryRule (probeParams levels 1 buffer) (probeFrame y x) 4 =
      some (⟨90, 110⟩,
        { entryI := 4
          entry := 100
          sl := 90 - buffer * 1
          targets := levels.map fun level =>
            { take := 100 + level.1 * 1, fraction := level.2 } }) := by
  have hnone : ∀ j ∈ List.range 3,
      carriedBlock (probeParams levels 1 buffer) (probeFrame y x) j = none := by
    simp [List.range_succ, carriedBlock, markAt, probeFrame, stillBar, Frame.bar, List.range']
  have hblock : carriedBlock (probeParams levels 1 buffer) (probeFrame y x) 3 =
      some ⟨90, 110⟩ := by
    simp [carriedBlock, markAt, fallingImpulse, probeFrame, stillBar, probeParams, Frame.bar,
      List.range', calcAtr, rolling, mean, window, trueRange]
    norm_num
  have hatr : calcAtr (probeFrame y x) 1 3 = some 1 := by
    norm_num [probeFrame, stillBar, Frame.bar, List.range', calcAtr, rolling, mean, window,
      trueRange]
  have hema : calcEma (probeFrame y x).closes 3 3 < 96 := by
    norm_num [calcEma, Frame.closes, Frame.bar, probeFrame, stillBar]
  constructor
  · intro i hi
    rw [entryRule, hnone (i - 1) (List.mem_range.mpr (by omega))]
  · have hclose : ((probeFrame y x).bar 3).close = 96 := rfl
    rw [entryRule]
    simp only [hblock, hatr, hclose, show (probeParams levels 1 buffer).atrPeriod = 1 from rfl,
      show (probeParams levels 1 buffer).emaPeriod = 3 from rfl]
    rw [if_pos ⟨by norm_num, by norm_num, hema⟩]
    rfl

theorem entryRule_malformedFrame :
    (∀ i ≤ 1, entryRule (probeParams levels 2 buffer) (malformedFrame y x) i = none) ∧
    entryRule (probeParams levels 2 buffer) (malformedFrame y x) 2 =
      some (⟨90, 110⟩,
        { entryI := 2
          entry := 110
          sl := 90 - buffer * -1
          targets := levels.map fun level =>
            { take := 110 + level.1 * -1, fraction := level.2 } }) := by
  have hnone : carriedBlock (probeParams levels 2 buffer) (malformedFrame y x) 0 = none := by
    simp [carriedBlock, markAt, malformedFrame, stillBar, Frame.bar]
  have hblock : carriedBlock (probeParams levels 2 buffer) (malformedFrame y x) 1 =
      some ⟨90, 110⟩ := by
    simp [carriedBlock, markAt, fallingImpulse, malformedFrame, stillBar, probeParams, Frame.bar,
      List.range', calcAtr, rolling, mean, window, trueRange]
    norm_num
  have hatr : calcAtr (malformedFrame y x) 2 1 = some (-1) := by
    norm_num [malformedFrame, stillBar, Frame.bar, List.range', calcAtr, rolling, mean, window,
      trueRange]
  have hema : calcEma (malformedFrame y x).closes 3 1 < 96 := by
    norm_num [calcEma, Frame.closes, Frame.bar, malformedFrame, stillBar]
  constructor
  · intro i hi
    rw [entryRule, show i - 1 = 0 by omega, hnone]
  · have hclose : ((malformedFrame y x).bar 1).close = 96 := rfl
    rw [entryRule]
    simp only [hblock, hatr, hclose, show (probeParams levels 2 buffer).atrPeriod = 2 from rfl,
      show (probeParams levels 2 buffer).emaPeriod = 3 from rfl]
    rw [if_pos ⟨by norm_num, by norm_num, hema⟩]
    rfl

end

theorem stateBefore_of_entryRule {p : AtrObParams} {df : Frame} {n : ℕ} {block : BullBlock}
    {pos : AtrPosition} (hnone : ∀ i ≤ n, entryRule p df i = none)
    (hentry : entryRule p df (1 + n) = some (block, pos)) :
    stateBefore (atrObBar p df) {} 1 (n + 1) = { position := some pos, usedOb := [block] } := by
  have hbefore : ∀ k ≤ n, stateBefore (atrObBar p df) {} 1 k = {} := by
    intro k
    induction k with
    | zero => exact fun _ => rfl
    | succ k ih =>
      intro hk
      rw [stateBefore_succ, ih (by omega), atrObBar]
      rw [hnone (1 + k) (by omega)]
  rw [stateBefore_succ, hbefore n le_rfl, atrObBar]
  rw [hentry]
  dsimp only
  rw [if_neg fun h => by cases h.2]
  rfl

/-- **A ladder under which the accounting is right on every frame is sound.** -/
theorem soundLadder_of_accounting {levels : List (ℚ × ℚ)}
    (h : ∀ (p : AtrObParams) (df : Frame), p.tpLevels = levels → AtrAccounting p df) :
    SoundLadder levels := by
  -- the stop of the probes lies below both of their last bars
  have hbelow : ∀ y x : ℚ, 90 - (|y| + |x|) < 100 + y ∧ 90 - (|y| + |x|) < 100 + x := by
    intro y x
    have hy := neg_abs_le y
    have hx := neg_abs_le x
    have hy' := abs_nonneg y
    have hx' := abs_nonneg x
    constructor
    · linarith
    · linarith
  have hrising : ∀ y x, (∀ k, cutShare levels 1 y + betweenShare (levels.take k) 1 y x ≤ 1) ∧
      ((∀ level ∈ levels, level.1 * 1 ≤ y) → (levels.map Prod.snd).sum = 1) := by
    intro y x
    obtain ⟨hnone, hentry⟩ := entryRule_probeFrame levels (|y| + |x|) y x
    obtain ⟨hlow, hlow'⟩ := hbelow y x
    have hhigh : ((probeFrame y x).bar 5).high = 100 + y := rfl
    have hhigh' : ((probeFrame y x).bar 6).high = 100 + x := rfl
    refine @covered_of_accounting (probeParams levels 1 (|y| + |x|)) (probeFrame y x) _ 5 _ 1 y x
      (h _ _ rfl) ((mem_turns_range' _ _ _).mpr ⟨4, (by decide : 4 < 6), rfl⟩)
      ((mem_turns_range' _ _ _).mpr ⟨5, (by decide : 5 < 6), rfl⟩)
      (congrArg AtrObState.position (stateBefore_of_entryRule hnone hentry)) rfl ?_ ?_ hhigh hhigh'
    · rw [mul_one]
      exact hlow
    · rw [mul_one]
      exact hlow'
  have hfalling : ∀ y x k,
      cutShare levels (-1) y + betweenShare (levels.take k) (-1) y x ≤ 1 := by
    intro y x
    obtain ⟨hnone, hentry⟩ := entryRule_malformedFrame levels (-(|y| + |x|)) y x
    obtain ⟨hlow, hlow'⟩ := hbelow y x
    have hhigh : ((malformedFrame y x).bar 3).high = 110 + y := rfl
    have hhigh' : ((malformedFrame y x).bar 4).high = 110 + x := rfl
    refine (@covered_of_accounting (probeParams levels 2 (-(|y| + |x|))) (malformedFrame y x)
      _ 3 _ (-1) y x (h _ _ rfl) ((mem_turns_range' _ _ _).mpr ⟨2, (by decide : 2 < 4), rfl⟩)
      ((mem_turns_range' _ _ _).mpr ⟨3, (by decide : 3 < 4), rfl⟩)
      (congrArg AtrObState.position (stateBefore_of_entryRule hnone hentry)) rfl ?_ ?_ hhigh
      hhigh').1
    · rw [neg_mul_neg, mul_one]
      exact hlow.trans (by show 100 + y < 110 + y; linarith)
    · rw [neg_mul_neg, mul_one]
      exact hlow'.trans (by show 100 + x < 110 + x; linarith)
  obtain ⟨bound, hbound⟩ := exists_bound levels 1
  refine ⟨(hrising bound bound).2 fun level hlevel => (abs_le.mp (hbound level hlevel)).2, ?_⟩
  rintro a (rfl | rfl) y x k
  · exact (hrising y x).1 k
  · exact hfalling y x k

/-- **The shares of a position.**  The accounting is right on every frame, whatever the other
parameters, exactly if the ladder is sound. -/
theorem atrAccounting_iff (levels : List (ℚ × ℚ)) :
    (∀ (p : AtrObParams) (df : Frame), p.tpLevels = levels → AtrAccounting p df) ↔
      SoundLadder levels :=
  ⟨soundLadder_of_accounting, fun hsound _ _ hlevels =>
    atrAccounting_of_soundLadder (hlevels.symm ▸ hsound)⟩

/-- The default ladder is sound. -/
example : SoundLadder (AtrObParams.tpLevels {}) :=
  soundLadder_of_nonneg (by decide +kernel) (by decide +kernel)

/-- Two targets, each of which closes nine tenths. -/
def overfullLadder : List (ℚ × ℚ) := [(1, 9 / 10), (2, 9 / 10)]

/-- Behind both targets of the overfull ladder less than nothing remains. -/
theorem not_atrAccounting_overfull :
    ¬∀ (p : AtrObParams) (df : Frame), AtrAccounting p df := by
  intro h
  have hclosed : ∃ v ∈ atrTurns (probeParams overfullLadder 1 0) (probeFrame 1 2),
      ∃ c ∈ atrClosing (probeFrame 1 2) v, c.2 = .tp ∧ hitShare c.1.targets = 9 / 5 := by
    decide +kernel
  obtain ⟨v, hv, c, hc, htp, hshare⟩ := hclosed
  have hwhole := ((h _ _).closings v hv c hc).whole
  rw [htp, hshare, if_neg nofun] at hwhole
  exact absurd hwhole (by norm_num)

end Backtest

end AdviserConstructor
