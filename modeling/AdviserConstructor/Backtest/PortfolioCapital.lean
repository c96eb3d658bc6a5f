import AdviserConstructor.Backtest.Portfolio
import AdviserConstructor.Library.InsertionDict
import Mathlib.Algebra.Order.BigOperators.Group.List
import Mathlib.Data.List.DropRight
import Mathlib.Tactic.FieldSimp
import Mathlib.Tactic.Positivity

/-!
# The capital of the strategies of a portfolio

How `run_portfolio` splits the total capital: `_normalized_weights` enters the positive weights
under the stripped names, the last one of a name for all of its strategies, and divides by the sum
of all of them; each strategy that has trades then looks its weight up under its name as it is
written.

* `get?_weightMap`: the weight under a name is the last positive one that is written there;
* `sharesCapital_iff`: when the capitals are in proportion to the weights, do not exceed the total,
  and leave no strategy out;
* `fairWeights_of_equal`: it is enough that the names are written without blanks around them and
  that strategies of one name have one weight;
* `allocations_runPortfolio`: the portfolio of strategies that are run on an engine is one of these.
-/

namespace AdviserConstructor

namespace Backtest

namespace PortfolioCapital

/-! ## The split -/

/-- A strategy as the split sees it: its name, its weight, and the profits of its trades, which an
engine has made or which it brings along. -/
structure Entry where
  name : String
  weight : ℚ := 0
  pnls : List ℚ := []
  deriving DecidableEq

/-- The loop of `_normalized_weights` goes on without the strategy. -/
def Entry.isSkipped (s : Entry) : Bool := strip s.name = "" ∨ s.weight ≤ 0

/-- `weight_map`. -/
def weightMap (items : List Entry) : InsertionDict String ℚ :=
  items.foldl
    (fun map item => if item.isSkipped then map else map.assign (strip item.name) item.weight)
    .empty

/-- `total`. -/
def totalWeight (items : List Entry) : ℚ :=
  (items.map fun item => if item.isSkipped then 0 else item.weight).sum

/-- `_normalized_weights`, as it is asked for a name. -/
def normalizedWeights (items : List Entry) (name : String) : ℚ :=
  if totalWeight items ≤ 0 then
    let names := (items.map fun item => strip item.name).filter fun n => decide (n ≠ "")
    if name ∈ names then 1 / names.length else 0
  else (weightMap items).getD name 0 / totalWeight items

/-- Whether the second loop of `run_portfolio` gives the strategy a capital. -/
def isFunded (items : List Entry) (s : Entry) : Bool :=
  s.pnls ≠ [] ∧ 0 < normalizedWeights items s.name

/-- The strategies that are given a capital, with it. -/
def allocations (items : List Entry) (totalCapital : ℚ) : List (Entry × ℚ) :=
  if items = [] ∨ totalCapital ≤ 0 then []
  else (items.filter (isFunded items)).map fun s =>
    (s, totalCapital * normalizedWeights items s.name)

/-! ## What the weights are -/

/-- The name is written without blanks around it, and is not blank. -/
def Entry.IsNamed (s : Entry) : Prop := strip s.name = s.name ∧ s.name ≠ ""

/-- The last positive weight that is written under a name. -/
def lastWeight (items : List Entry) (name : String) : Option ℚ :=
  ((items.filter fun s => !s.isSkipped && strip s.name = name).getLast?).map Entry.weight

theorem isSkipped_eq_false_iff {s : Entry} :
    s.isSkipped = false ↔ strip s.name ≠ "" ∧ 0 < s.weight := by
  rw [Entry.isSkipped, decide_eq_false_iff_not, not_or, not_le]

/-- **The weight under a name** is the last positive one. -/
theorem get?_weightMap (items : List Entry) (name : String) :
    (weightMap items).get? name = lastWeight items name := by
  induction items using List.reverseRecOn with
  | nil => rfl
  | append_singleton items item ih =>
    have hstep : weightMap (items ++ [item]) =
        if item.isSkipped then weightMap items
        else (weightMap items).assign (strip item.name) item.weight := by
      rw [weightMap, weightMap, List.foldl_append, List.foldl_cons, List.foldl_nil]
    rw [hstep, lastWeight, List.filter_append]
    cases hskip : item.isSkipped with
    | true =>
      rw [if_pos rfl, ih, List.filter_cons_of_neg (by simp [hskip]), List.filter_nil,
        List.append_nil]
      rfl
    | false =>
      rw [if_neg Bool.false_ne_true]
      by_cases hname : strip item.name = name
      · rw [List.filter_cons_of_pos (by simp [hskip, hname]), hname,
          InsertionDict.get?_assign_self, List.getLast?_append]
        rfl
      · rw [List.filter_cons_of_neg (by simp [hname]), List.filter_nil, List.append_nil,
          InsertionDict.get?_assign_of_ne (Ne.symm hname), ih]
        rfl

theorem lastWeight_eq_some {items : List Entry} {name : String} {w : ℚ}
    (h : lastWeight items name = some w) :
    0 < w ∧ ∃ s ∈ items, strip s.name = name ∧ name ≠ "" ∧ s.weight = w := by
  obtain ⟨s, hlast, rfl⟩ := Option.map_eq_some_iff.mp h
  obtain ⟨hs, hfilter⟩ := List.mem_filter.mp (List.mem_of_getLast? hlast)
  rw [Bool.and_eq_true, Bool.not_eq_true', decide_eq_true_eq] at hfilter
  obtain ⟨hskip, hname⟩ := hfilter
  obtain ⟨hne, hpos⟩ := isSkipped_eq_false_iff.mp hskip
  exact ⟨hpos, s, hs, hname, hname ▸ hne, rfl⟩

theorem lastWeight_isSome {items : List Entry} {s : Entry} (hs : s ∈ items)
    (hskip : s.isSkipped = false) : ∃ w, lastWeight items (strip s.name) = some w := by
  have hmem : s ∈ items.filter fun t => !t.isSkipped && strip t.name = strip s.name :=
    List.mem_filter.mpr ⟨hs, by simp [hskip]⟩
  cases hlast : (items.filter fun t => !t.isSkipped && strip t.name = strip s.name).getLast? with
  | none =>
    rw [List.getLast?_eq_none_iff] at hlast
    rw [hlast] at hmem
    cases hmem
  | some t => exact ⟨t.weight, by rw [lastWeight, hlast]; rfl⟩

theorem strip_strip (text : String) : strip (strip text) = strip text := by
  unfold strip
  rw [String.toList_ofList]
  generalize hfront : text.toList.dropWhile isSpace = front
  have hidem : (front.reverse.dropWhile isSpace).dropWhile isSpace =
      front.reverse.dropWhile isSpace := @List.dropWhile_idempotent _ isSpace _
  -- the text begins as before, with a character that is no blank
  have hself : (front.reverse.dropWhile isSpace).reverse.dropWhile isSpace =
      (front.reverse.dropWhile isSpace).reverse := by
    have hprefix : (front.reverse.dropWhile isSpace).reverse <+: front := by
      have hsuffix : front.reverse.dropWhile isSpace <:+ front.reverse :=
        List.dropWhile_suffix isSpace
      rw [← List.reverse_prefix, List.reverse_reverse] at hsuffix
      exact hsuffix
    obtain ⟨rest, hrest⟩ := hprefix
    cases htrim : (front.reverse.dropWhile isSpace).reverse with
    | nil => rfl
    | cons c tail =>
      rw [htrim] at hrest
      have hc : ¬ isSpace c = true := by
        have hne : text.toList.dropWhile isSpace ≠ [] := by
          rw [hfront, ← hrest]
          exact List.cons_ne_nil _ _
        have hhead := List.head_dropWhile_not isSpace hne
        simp only [hfront, ← hrest, List.cons_append, List.head_cons] at hhead
        rw [hhead]
        exact Bool.false_ne_true
      exact List.dropWhile_cons_of_neg hc
  rw [hself, List.reverse_reverse, hidem]

theorem isNamed_of_strip {s t : Entry} (h : strip t.name = s.name) (hne : s.name ≠ "") :
    s.IsNamed := by
  refine ⟨?_, hne⟩
  rw [← h, strip_strip]

theorem Entry.IsNamed.isSkipped_eq_false {s : Entry} (h : s.IsNamed) (hpos : 0 < s.weight) :
    s.isSkipped = false := by
  refine isSkipped_eq_false_iff.mpr ⟨?_, hpos⟩
  rw [h.1]
  exact h.2

/-! ## The total -/

theorem totalWeight_nonneg (items : List Entry) : 0 ≤ totalWeight items := by
  refine List.sum_nonneg fun x hx => ?_
  obtain ⟨s, -, rfl⟩ := List.mem_map.mp hx
  cases hskip : s.isSkipped with
  | true => exact le_rfl
  | false => exact (isSkipped_eq_false_iff.mp hskip).2.le

theorem totalWeight_nonpos_iff {items : List Entry} :
    totalWeight items ≤ 0 ↔ ∀ s ∈ items, s.isSkipped = true := by
  constructor
  · intro hzero s hs
    by_contra hentered
    rw [Bool.not_eq_true] at hentered
    have hle : s.weight ≤ totalWeight items := by
      have hmem : s.weight ∈ items.map fun item => if item.isSkipped then 0 else item.weight :=
        List.mem_map.mpr ⟨s, hs, by rw [hentered]; rfl⟩
      refine List.single_le_sum (fun x hx => ?_) _ hmem
      obtain ⟨t, -, rfl⟩ := List.mem_map.mp hx
      cases hskip : t.isSkipped with
      | true => exact le_rfl
      | false => exact (isSkipped_eq_false_iff.mp hskip).2.le
    exact absurd (isSkipped_eq_false_iff.mp hentered).2 (not_lt.mpr (hle.trans hzero))
  · intro hall
    have hzero : (items.map fun item => if item.isSkipped then (0 : ℚ) else item.weight) =
        items.map fun _ => 0 := List.map_congr_left fun s hs => by rw [if_pos (hall s hs)]
    rw [totalWeight, hzero]
    simp

theorem lastWeight_eq_none {items : List Entry} (h : totalWeight items ≤ 0) (name : String) :
    lastWeight items name = none := by
  have hnone : items.filter (fun s => !s.isSkipped && strip s.name = name) = [] :=
    List.filter_eq_nil_iff.mpr fun s hs => by simp [totalWeight_nonpos_iff.mp h s hs]
  rw [lastWeight, hnone]
  rfl

theorem isFunded_iff {items : List Entry} (htotal : 0 < totalWeight items) {s : Entry} :
    isFunded items s = true ↔ s.pnls ≠ [] ∧ ∃ w, lastWeight items s.name = some w := by
  rw [isFunded, decide_eq_true_eq, normalizedWeights, if_neg (not_le.mpr htotal),
    InsertionDict.getD, get?_weightMap]
  refine and_congr_right fun _ => ?_
  cases hlast : lastWeight items s.name with
  | none => exact iff_of_false (by simp) (by simp)
  | some w => exact iff_of_true (div_pos (lastWeight_eq_some hlast).1 htotal) ⟨w, rfl⟩

theorem isFunded_iff_of_nonpos {items : List Entry} (htotal : totalWeight items ≤ 0) {s : Entry}
    (hs : s ∈ items) : isFunded items s = true ↔ s.pnls ≠ [] ∧ s.IsNamed := by
  rw [isFunded, decide_eq_true_eq, normalizedWeights, if_pos htotal]
  refine and_congr_right fun _ => ?_
  constructor
  · intro hpos
    by_cases hname : s.name ∈ (items.map fun item => strip item.name).filter
        fun n => decide (n ≠ "")
    · obtain ⟨hmem, hne⟩ := List.mem_filter.mp hname
      obtain ⟨t, -, ht⟩ := List.mem_map.mp hmem
      exact isNamed_of_strip ht (of_decide_eq_true hne)
    · rw [if_neg hname] at hpos
      exact absurd hpos (lt_irrefl 0)
  · intro hnamed
    have hname : s.name ∈ (items.map fun item => strip item.name).filter fun n => decide (n ≠ "") :=
      List.mem_filter.mpr ⟨List.mem_map.mpr ⟨s, hs, hnamed.1⟩, decide_eq_true hnamed.2⟩
    rw [if_pos hname]
    have hlength := List.length_pos_of_mem hname
    positivity

/-! ## Fair shares -/

/-- The capitals are in proportion to the strategies' own weights, they sum to no more than the
total capital, and no strategy with a weight and trades goes without. -/
structure SharesCapital (items : List Entry) (totalCapital : ℚ) : Prop where
  proportional : ∃ k, ∀ a ∈ allocations items totalCapital, a.2 = k * a.1.weight
  within : ((allocations items totalCapital).map Prod.snd).sum ≤ totalCapital
  included : ∀ s ∈ items, 0 < s.weight → s.pnls ≠ [] →
    s ∈ (allocations items totalCapital).map Prod.fst

/-- The strategies with trades whose name has a weight. -/
def weighed (items : List Entry) : List Entry :=
  items.filter fun s => s.pnls ≠ [] ∧ (lastWeight items s.name).isSome

/-- The condition on the names and weights: strategies with a weight and trades are named as they
are entered; if no weight is entered at all, no strategy that is so named has trades; and the last
weight under the name of a strategy with trades is its own weight, or the same multiple of its own
for all of them, as long as this does not exceed the total. -/
structure FairWeights (items : List Entry) : Prop where
  named : ∀ s ∈ items, 0 < s.weight → s.pnls ≠ [] → s.IsNamed
  entered : (∀ s ∈ items, s.isSkipped = true) → ∀ s ∈ items, s.IsNamed → s.pnls = []
  ratio : ∃ k, (∀ s ∈ weighed items, lastWeight items s.name = some (k * s.weight)) ∧
    k * ((weighed items).map Entry.weight).sum ≤ totalWeight items

section Shares

variable {items : List Entry} {totalCapital : ℚ}

theorem allocations_eq (hcapital : 0 < totalCapital) :
    allocations items totalCapital = (items.filter (isFunded items)).map fun s =>
      (s, totalCapital * normalizedWeights items s.name) := by
  rw [allocations]
  by_cases hitems : items = []
  · rw [hitems]
    rfl
  · rw [if_neg (not_or.mpr ⟨hitems, not_le.mpr hcapital⟩)]

theorem mem_map_fst_allocations (hcapital : 0 < totalCapital) {s : Entry} :
    s ∈ (allocations items totalCapital).map Prod.fst ↔ s ∈ items ∧ isFunded items s = true := by
  rw [allocations_eq hcapital, List.map_map]
  change s ∈ (items.filter (isFunded items)).map id ↔ _
  rw [List.map_id, List.mem_filter]

theorem sharesCapital_iff_of_nonpos (hcapital : 0 < totalCapital)
    (hweights : ∀ s ∈ items, 0 ≤ s.weight) (htotal : totalWeight items ≤ 0) :
    SharesCapital items totalCapital ↔ FairWeights items := by
  have hskipped := totalWeight_nonpos_iff.mp htotal
  have hnotNamed : ∀ s ∈ items, 0 < s.weight → ¬ s.IsNamed := by
    intro s hs hpos hnamed
    have hskip := hnamed.isSkipped_eq_false hpos
    rw [hskipped s hs] at hskip
    cases hskip
  constructor
  · rintro ⟨⟨k, hk⟩, -, hincluded⟩
    have hnone : ∀ s ∈ items, isFunded items s = true → False := by
      intro s hs hfunded
      obtain ⟨-, hnamed⟩ := (isFunded_iff_of_nonpos htotal hs).mp hfunded
      have hzero : s.weight = 0 :=
        le_antisymm (not_lt.mp fun hpos => hnotNamed s hs hpos hnamed) (hweights s hs)
      have hshare := hk (s, totalCapital * normalizedWeights items s.name) (by
        rw [allocations_eq hcapital]
        exact List.mem_map.mpr ⟨s, List.mem_filter.mpr ⟨hs, hfunded⟩, rfl⟩)
      rw [hzero, mul_zero] at hshare
      exact absurd hshare (mul_pos hcapital (of_decide_eq_true hfunded).2).ne'
    refine ⟨fun s hs hpos htrades => ?_, fun _ s hs hnamed => ?_, 0, fun s hs => ?_, ?_⟩
    · have hfunded := (mem_map_fst_allocations hcapital).mp (hincluded s hs hpos htrades)
      exact (hnone s hs hfunded.2).elim
    · by_contra htrades
      exact hnone s hs ((isFunded_iff_of_nonpos htotal hs).mpr ⟨htrades, hnamed⟩)
    · have hsome := (of_decide_eq_true (List.mem_filter.mp hs).2).2
      rw [lastWeight_eq_none htotal] at hsome
      cases hsome
    · rw [zero_mul]
      exact totalWeight_nonneg items
  · rintro ⟨hnamed, hentered, -⟩
    have hnone : allocations items totalCapital = [] := by
      rw [allocations_eq hcapital, List.map_eq_nil_iff, List.filter_eq_nil_iff]
      intro s hs hfunded
      obtain ⟨htrades, hs'⟩ := (isFunded_iff_of_nonpos htotal hs).mp hfunded
      exact htrades (hentered hskipped s hs hs')
    refine ⟨⟨0, fun a ha => ?_⟩, ?_, fun s hs hpos htrades => ?_⟩
    · rw [hnone] at ha
      cases ha
    · rw [hnone]
      exact hcapital.le
    · exact absurd (hnamed s hs hpos htrades) (hnotNamed s hs hpos)

theorem allocations_eq_of_pos (hcapital : 0 < totalCapital) (htotal : 0 < totalWeight items) :
    allocations items totalCapital = (weighed items).map fun s =>
      (s, totalCapital * ((lastWeight items s.name).getD 0 / totalWeight items)) := by
  have hfilter : items.filter (isFunded items) = weighed items := by
    refine List.filter_congr fun s _ => ?_
    rw [Bool.eq_iff_iff, isFunded_iff htotal, decide_eq_true_eq, Option.isSome_iff_exists]
  rw [allocations_eq hcapital, hfilter]
  refine List.map_congr_left fun s _ => ?_
  rw [normalizedWeights, if_neg (not_le.mpr htotal), InsertionDict.getD, get?_weightMap]

theorem mem_weighed {s : Entry} :
    s ∈ weighed items ↔ s ∈ items ∧ s.pnls ≠ [] ∧ ∃ w, lastWeight items s.name = some w := by
  rw [weighed, List.mem_filter, decide_eq_true_eq, Option.isSome_iff_exists]

theorem sum_allocations (hcapital : 0 < totalCapital) (htotal : 0 < totalWeight items) {k : ℚ}
    (hk : ∀ s ∈ weighed items, lastWeight items s.name = some (k * s.weight)) :
    ((allocations items totalCapital).map Prod.snd).sum =
      totalCapital / totalWeight items * (k * ((weighed items).map Entry.weight).sum) := by
  rw [allocations_eq_of_pos hcapital htotal, List.map_map, ← List.sum_map_mul_left,
    ← List.sum_map_mul_left]
  congr 1
  refine List.map_congr_left fun s hs => ?_
  rw [Function.comp_apply, hk s hs, Option.getD_some]
  ring

theorem sharesCapital_iff_of_pos (hcapital : 0 < totalCapital) (htotal : 0 < totalWeight items) :
    SharesCapital items totalCapital ↔ FairWeights items := by
  have hwithin : ∀ {k : ℚ}, (∀ s ∈ weighed items, lastWeight items s.name = some (k * s.weight)) →
      (((allocations items totalCapital).map Prod.snd).sum ≤ totalCapital ↔
        k * ((weighed items).map Entry.weight).sum ≤ totalWeight items) := by
    intro k hk
    rw [sum_allocations hcapital htotal hk, div_mul_eq_mul_div, div_le_iff₀ htotal]
    exact mul_le_mul_iff_right₀ hcapital
  constructor
  · rintro ⟨⟨k, hk⟩, hsum, hincluded⟩
    have hratio : ∀ s ∈ weighed items, lastWeight items s.name =
        some (k * (totalWeight items / totalCapital) * s.weight) := by
      intro s hs
      have hshare := hk
        (s, totalCapital * ((lastWeight items s.name).getD 0 / totalWeight items)) (by
        rw [allocations_eq_of_pos hcapital htotal]
        exact List.mem_map.mpr ⟨s, hs, rfl⟩)
      obtain ⟨-, -, w, hw⟩ := mem_weighed.mp hs
      rw [hw] at hshare ⊢
      dsimp only [Option.getD_some] at hshare
      congr 1
      field_simp at hshare ⊢
      linarith
    refine ⟨fun s hs hpos htrades => ?_, fun hskipped => ?_, _, hratio, (hwithin hratio).mp hsum⟩
    · have hfunded := (mem_map_fst_allocations hcapital).mp (hincluded s hs hpos htrades)
      obtain ⟨-, w, hw⟩ := (isFunded_iff htotal).mp hfunded.2
      obtain ⟨-, t, -, hname, hne, -⟩ := lastWeight_eq_some hw
      exact isNamed_of_strip hname hne
    · exact absurd (totalWeight_nonpos_iff.mpr hskipped) (not_le.mpr htotal)
  · rintro ⟨hnamed, -, k, hk, hsum⟩
    refine ⟨⟨totalCapital / totalWeight items * k, fun a ha => ?_⟩, (hwithin hk).mpr hsum,
      fun s hs hpos htrades => ?_⟩
    · rw [allocations_eq_of_pos hcapital htotal] at ha
      obtain ⟨s, hs, rfl⟩ := List.mem_map.mp ha
      rw [hk s hs, Option.getD_some]
      ring
    · have hs' := hnamed s hs hpos htrades
      obtain ⟨w, hw⟩ := lastWeight_isSome hs (hs'.isSkipped_eq_false hpos)
      rw [hs'.1] at hw
      exact (mem_map_fst_allocations hcapital).mpr ⟨hs, (isFunded_iff htotal).mpr ⟨htrades, w, hw⟩⟩

end Shares

/-- **The capital is shared fairly exactly if the names and weights are fair.** -/
theorem sharesCapital_iff (items : List Entry) (totalCapital : ℚ) (hcapital : 0 < totalCapital)
    (hweights : ∀ s ∈ items, 0 ≤ s.weight) :
    SharesCapital items totalCapital ↔ FairWeights items := by
  rcases le_or_gt (totalWeight items) 0 with htotal | htotal
  · exact sharesCapital_iff_of_nonpos hcapital hweights htotal
  · exact sharesCapital_iff_of_pos hcapital htotal

/-! ## Names that are fair -/

theorem totalWeight_eq_sum_filter (items : List Entry) :
    totalWeight items = ((items.filter fun s => !s.isSkipped).map Entry.weight).sum := by
  induction items with
  | nil => rw [totalWeight, List.map_nil, List.filter_nil, List.map_nil]
  | cons s items ih =>
    unfold totalWeight at ih ⊢
    rw [List.map_cons, List.sum_cons, ih]
    cases hskip : s.isSkipped with
    | true => simp [hskip]
    | false => simp [hskip]

/-- **Names as they are entered, and one weight for each, are fair.** -/
theorem fairWeights_of_equal {items : List Entry}
    (hnamed : ∀ s ∈ items, 0 < s.weight → s.pnls ≠ [] → s.IsNamed)
    (hequal : ∀ s ∈ items, ∀ t ∈ items, strip s.name = strip t.name → s.weight = t.weight)
    (hentered : ∃ s ∈ items, s.isSkipped = false) : FairWeights items := by
  have hlast : ∀ s ∈ weighed items,
      lastWeight items s.name = some s.weight ∧ s.isSkipped = false := by
    intro s hs
    obtain ⟨hmem, -, w, hw⟩ := mem_weighed.mp hs
    obtain ⟨hpos, t, ht, hname, hne, hweight⟩ := lastWeight_eq_some hw
    have hs' : s.IsNamed := isNamed_of_strip hname hne
    have hsame : s.weight = w := by
      rw [← hweight]
      exact hequal s hmem t ht (hs'.1.trans hname.symm)
    exact ⟨hsame ▸ hw, hs'.isSkipped_eq_false (hsame ▸ hpos)⟩
  refine ⟨hnamed, fun hskipped => ?_, 1, fun s hs => ?_, ?_⟩
  · obtain ⟨s, hs, hskip⟩ := hentered
    rw [hskipped s hs] at hskip
    cases hskip
  · rw [one_mul]
    exact (hlast s hs).1
  · -- the weighed strategies are among the entered ones
    have hsub : (weighed items).Sublist (items.filter fun s => !s.isSkipped) := by
      have hself : (weighed items).filter (fun s => !s.isSkipped) = weighed items :=
        List.filter_eq_self.mpr fun s hs => by rw [(hlast s hs).2]; rfl
      rw [← hself]
      exact List.filter_sublist.filter _
    rw [one_mul, totalWeight_eq_sum_filter]
    refine (hsub.map Entry.weight).sum_le_sum fun x hx => ?_
    obtain ⟨s, hs, rfl⟩ := List.mem_map.mp hx
    have hentered := (List.mem_filter.mp hs).2
    rw [Bool.not_eq_true'] at hentered
    exact (isSkipped_eq_false_iff.mp hentered).2.le

/-- Two strategies of one weight each. -/
def gridAndKnife : List Entry :=
  [{ name := "Grid BOT", weight := 1, pnls := [5] },
   { name := "Knife Catcher", weight := 3, pnls := [-2] }]

theorem sharesCapital_gridAndKnife : SharesCapital gridAndKnife 1000 := by
  have hequal : ∀ s ∈ gridAndKnife, ∀ t ∈ gridAndKnife,
      strip s.name = strip t.name → s.weight = t.weight := by decide +kernel
  have hnamed : ∀ s ∈ gridAndKnife, strip s.name = s.name ∧ s.name ≠ "" := by decide +kernel
  exact (sharesCapital_iff gridAndKnife 1000 (by norm_num) (by decide +kernel)).mpr
    (fairWeights_of_equal (fun s hs _ _ => hnamed s hs) hequal (by decide +kernel))

/-- One built-in strategy with two configurations. -/
def twoBuilders : List Entry :=
  [{ name := "VWAP Builder", weight := 1, pnls := [5] },
   { name := "VWAP Builder", weight := 3, pnls := [-2] }]

/-- Both configurations are given the weight that was written last, three quarters of the capital
each. -/
theorem not_sharesCapital_twoBuilders :
    (∀ s ∈ twoBuilders, 0 ≤ s.weight) ∧ 0 < (twoBuilders.map Entry.weight).sum ∧
      (allocations twoBuilders 1000).map Prod.snd = [750, 750] ∧
      ¬ SharesCapital twoBuilders 1000 := by
  have hallocations : (allocations twoBuilders 1000).map Prod.snd = [750, 750] := by
    decide +kernel
  refine ⟨by decide +kernel, by decide +kernel, hallocations, fun hshares => ?_⟩
  have hwithin := hshares.within
  rw [hallocations] at hwithin
  norm_num at hwithin

/-! ## The portfolio of engine runs -/

/-- A strategy that is run on an engine. -/
def entryOf (s : PortfolioStrategy) : Entry where
  name := s.name
  weight := s.weight
  pnls := s.trades.map TradeRow.pnlUsdt

theorem positiveWeights_eq (items : List PortfolioStrategy) :
    positiveWeights items = ((items.map entryOf).filter fun s => !s.isSkipped).map fun s =>
      (strip s.name, s.weight) := by
  induction items with
  | nil => rfl
  | cons s items ih =>
    have hskip : (entryOf s).isSkipped = decide (strip s.name = "" ∨ s.weight ≤ 0) := rfl
    rw [positiveWeights, List.filterMap_cons, List.map_cons]
    by_cases h : strip s.name = "" ∨ s.weight ≤ 0
    · rw [if_pos h, List.filter_cons_of_neg (by rw [hskip, decide_eq_true h]; simp)]
      exact ih
    · rw [if_neg h, List.filter_cons_of_pos (by rw [hskip, decide_eq_false h]; rfl), List.map_cons,
        ← ih]
      rfl

theorem lookup_reverse_eq (entries : List Entry) (name : String) :
    ((entries.map fun s => (strip s.name, s.weight)).reverse.lookup name) =
      ((entries.filter fun s => strip s.name = name).getLast?).map Entry.weight := by
  induction entries using List.reverseRecOn with
  | nil => rfl
  | append_singleton entries s ih =>
    rw [List.map_append, List.reverse_append, List.map_singleton, List.reverse_singleton,
      List.singleton_append, List.lookup_cons, List.filter_append]
    by_cases hname : strip s.name = name
    · rw [hname, beq_self_eq_true, List.filter_cons_of_pos (by simp [hname]), List.getLast?_append]
      rfl
    · rw [beq_false_of_ne (Ne.symm hname), List.filter_cons_of_neg (by simp [hname]),
        List.filter_nil, List.append_nil]
      exact ih

theorem normalizedWeight_eq (items : List PortfolioStrategy) (name : String) :
    normalizedWeight items name = normalizedWeights (items.map entryOf) name := by
  have htotal : ((positiveWeights items).map Prod.snd).sum = totalWeight (items.map entryOf) := by
    rw [positiveWeights_eq, totalWeight_eq_sum_filter, List.map_map]
    rfl
  have hlookup : (positiveWeights items).reverse.lookup name =
      lastWeight (items.map entryOf) name := by
    rw [positiveWeights_eq, lookup_reverse_eq, lastWeight, List.filter_filter]
    have hfilter : (items.map entryOf).filter
        (fun s => decide (strip s.name = name) && !s.isSkipped) =
          (items.map entryOf).filter fun s => !s.isSkipped && decide (strip s.name = name) :=
      List.filter_congr fun s _ => Bool.and_comm ..
    rw [hfilter]
  have hnames : (items.map fun s => strip s.name) =
      (items.map entryOf).map fun s => strip s.name := by
    rw [List.map_map]
    rfl
  unfold normalizedWeight normalizedWeights
  dsimp only
  rw [htotal, hlookup, hnames, InsertionDict.getD, get?_weightMap]

/-- **The portfolio explains these capitals.** -/
theorem allocations_runPortfolio (items : List PortfolioStrategy) (totalCapital : ℚ) :
    (runPortfolio items totalCapital).explanations.map
        (fun stats => (stats.strategy, stats.capital)) =
      (allocations (items.map entryOf) totalCapital).map fun a => (a.1.name, a.2) := by
  rcases le_or_gt totalCapital 0 with hcapital | hcapital
  · rw [runPortfolio, if_pos (Or.inr hcapital), allocations, if_pos (Or.inr hcapital)]
    rfl
  · have hfunded : ∀ s : PortfolioStrategy,
        isFunded (items.map entryOf) (entryOf s) = isCounted items s := by
      intro s
      rw [isFunded, ← normalizedWeight_eq, Bool.decide_and]
      congr 1
      cases htrades : s.trades <;> simp [entryOf, htrades]
    rw [explanations_runPortfolio hcapital, allocations_eq hcapital, List.filter_map, List.map_map,
      List.map_map, List.map_map]
    have hfilter : items.filter (isFunded (items.map entryOf) ∘ entryOf) =
        items.filter (isCounted items) := List.filter_congr fun s _ => hfunded s
    rw [hfilter]
    refine List.map_congr_left fun s _ => ?_
    simp only [Function.comp_apply, strategyStats, capitalOf, normalizedWeight_eq, entryOf]

end PortfolioCapital

end Backtest

end AdviserConstructor
