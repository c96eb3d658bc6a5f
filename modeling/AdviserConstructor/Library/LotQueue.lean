import Mathlib.Algebra.Order.BigOperators.Group.List
import Mathlib.Algebra.Order.Field.Basic
import Mathlib.Tactic.Linarith
import Mathlib.Tactic.Ring

/-!
# Queues of lots

A lot is a quantity bought or sold at one price.  `closeLots` closes a quantity against a queue of
lots, oldest first; a lot that is left with no more than `dust` is given up.

Everything is over an ordered field.  `valued f` is the sum of the lots' quantities weighted with a
function of the price: with the gain of a lot per unit, it is what closing the whole queue would
realize.

* `closeLots_spec`: if all quantities are multiples of a step above the dust, then nothing is lost:
  what a close takes out of the queue is what it uses up of the quantity, in any weight, and it ends
  with the quantity used up or the queue empty;
* `turn_spec`: a quantity traded against one queue, with what is left of it opened as a lot of the
  other, moves the value of the two queues by the traded quantity alone, however it is split;
* `turn_beyond`: of what has been traded on either side, the first units are closed against each
  other, as many as both sides have, and the queues hold the units beyond.
-/

namespace LotQueue

/-- A quantity at a price. -/
structure Lot (K : Type*) where
  qty : K
  entryPrice : K
  deriving DecidableEq, Repr

/-- What a close has realized, the quantity it could not close, and the lots that are left. -/
structure Closed (K : Type*) where
  gain : K
  remaining : K
  lots : List (Lot K)

variable {K : Type*} [Field K]

/-- The lots' quantities, weighted with a function of the price. -/
def valued (f : K → K) (lots : List (Lot K)) : K :=
  (lots.map fun lot => f lot.entryPrice * lot.qty).sum

def quantity (lots : List (Lot K)) : K := (lots.map Lot.qty).sum

/-! ## Weights -/

@[simp] theorem valued_nil (f : K → K) : valued f ([] : List (Lot K)) = 0 := rfl

@[simp] theorem valued_cons (f : K → K) (lot : Lot K) (lots : List (Lot K)) :
    valued f (lot :: lots) = f lot.entryPrice * lot.qty + valued f lots := by
  simp [valued]

theorem valued_append (f : K → K) (lots lots' : List (Lot K)) :
    valued f (lots ++ lots') = valued f lots + valued f lots' := by
  simp [valued]

@[simp] theorem quantity_nil : quantity ([] : List (Lot K)) = 0 := rfl

@[simp] theorem quantity_cons (lot : Lot K) (lots : List (Lot K)) :
    quantity (lot :: lots) = lot.qty + quantity lots := by
  simp [quantity]

theorem quantity_append (lots lots' : List (Lot K)) :
    quantity (lots ++ lots') = quantity lots + quantity lots' := by
  simp [quantity]

theorem valued_add_const (f : K → K) (c : K) (lots : List (Lot K)) :
    valued (fun price => f price + c) lots = valued f lots + c * quantity lots := by
  induction lots with
  | nil => simp
  | cons lot lots ih =>
    rw [valued_cons, valued_cons, quantity_cons, ih]
    ring

/-! ## Closing lots -/

variable [LinearOrder K]

/-- Close a quantity against the lots, oldest first; `gain` is what a unit realizes. -/
def closeLots (dust : K) (gain : K → K) : K → List (Lot K) → Closed K
  | remaining, [] => ⟨0, remaining, []⟩
  | remaining, lot :: lots =>
      if 0 < remaining then
        let closeQty := min remaining lot.qty
        if lot.qty - closeQty ≤ dust then
          let closed := closeLots dust gain (remaining - closeQty) lots
          { closed with gain := gain lot.entryPrice * closeQty + closed.gain }
        else
          -- a lot that is left over has used up the quantity
          { gain := gain lot.entryPrice * closeQty
            remaining := remaining - closeQty
            lots := { lot with qty := lot.qty - closeQty } :: lots }
      else ⟨0, remaining, lot :: lots⟩

/-- What is left of a quantity opens a lot behind the others. -/
def openLot (remaining price : K) (lots : List (Lot K)) : List (Lot K) :=
  if 0 < remaining then lots ++ [⟨remaining, price⟩] else lots

/-! ## Quantities on a grid -/

def OnGrid (step q : K) : Prop := ∃ k : ℕ, q = k * step

/-- A lot of a positive multiple of the step. -/
def IsLot (step : K) (lot : Lot K) : Prop := OnGrid step lot.qty ∧ 0 < lot.qty

section Grid

variable [IsStrictOrderedRing K] {step q r : K}

theorem OnGrid.nonneg (hstep : 0 < step) (h : OnGrid step q) : 0 ≤ q := by
  obtain ⟨k, rfl⟩ := h
  positivity

theorem OnGrid.eq_zero (h : OnGrid step q) (hstep : 0 < step) (hq : q < step) : q = 0 := by
  obtain ⟨k, rfl⟩ := h
  have hk : (k : K) < 1 := by
    by_contra hone
    have hle := mul_le_mul_of_nonneg_right (not_lt.mp hone) hstep.le
    rw [one_mul] at hle
    exact absurd hq (not_lt.mpr hle)
  have : k = 0 := by
    have hlt : k < 1 := by exact_mod_cast hk
    omega
  rw [this, Nat.cast_zero, zero_mul]

theorem OnGrid.sub (hstep : 0 < step) (hq : OnGrid step q) (hr : OnGrid step r) (h : r ≤ q) :
    OnGrid step (q - r) := by
  obtain ⟨k, rfl⟩ := hq
  obtain ⟨l, rfl⟩ := hr
  have hle : l ≤ k := by
    have := le_of_mul_le_mul_right h hstep
    exact_mod_cast this
  exact ⟨k - l, by rw [Nat.cast_sub hle, sub_mul]⟩

end Grid

/-! ## Closing -/

section Close

variable [IsStrictOrderedRing K] {step dust : K}

/-- What a close leaves behind and what it has done, in one statement. -/
structure Closes (step : K) (gain : K → K) (remaining : K) (lots : List (Lot K))
    (closed : Closed K) : Prop where
  isLot : ∀ lot ∈ closed.lots, IsLot step lot
  onGrid : OnGrid step closed.remaining
  /-- the quantity is used up, or the queue is -/
  ends : closed.remaining = 0 ∨ closed.lots = []
  quantity_eq : quantity lots = quantity closed.lots + (remaining - closed.remaining)
  gain_eq : valued gain lots = valued gain closed.lots + closed.gain

/-- **A close loses nothing** on the grid. -/
theorem closeLots_spec (gain : K → K) (hdust : 0 ≤ dust) (hstep : dust < step) {remaining : K}
    {lots : List (Lot K)} (hremaining : OnGrid step remaining)
    (hlots : ∀ lot ∈ lots, IsLot step lot) :
    Closes step gain remaining lots (closeLots dust gain remaining lots) := by
  have hpos : 0 < step := hdust.trans_lt hstep
  induction lots generalizing remaining with
  | nil =>
    exact
      { isLot := hlots
        onGrid := hremaining
        ends := Or.inr rfl
        quantity_eq := by simp [closeLots]
        gain_eq := by simp [closeLots] }
  | cons lot lots ih =>
    obtain ⟨hlot, hrest⟩ := List.forall_mem_cons.mp hlots
    by_cases hmore : 0 < remaining
    · rcases le_total lot.qty remaining with hle | hle
      · -- the lot is closed and the search goes on
        have hused : lot.qty - min remaining lot.qty = 0 := by rw [min_eq_right hle, sub_self]
        have hclosed : closeLots dust gain remaining (lot :: lots) =
            { closeLots dust gain (remaining - lot.qty) lots with
              gain := gain lot.entryPrice * lot.qty +
                (closeLots dust gain (remaining - lot.qty) lots).gain } := by
          rw [min_eq_right hle] at hused
          simp only [closeLots, if_pos hmore, min_eq_right hle, hused, if_pos hdust]
        have hspec := ih (hremaining.sub hpos hlot.1 hle) hrest
        rw [hclosed]
        refine ⟨hspec.isLot, hspec.onGrid, hspec.ends, ?_, ?_⟩
        · rw [quantity_cons, hspec.quantity_eq]
          ring
        · rw [valued_cons, hspec.gain_eq]
          ring
      · have hmin : min remaining lot.qty = remaining := min_eq_left hle
        have hgrid : OnGrid step (lot.qty - remaining) := hlot.1.sub hpos hremaining hle
        by_cases hleft : lot.qty - remaining ≤ dust
        · -- nothing is left of the lot, and the quantity is used up with it
          have hzero : lot.qty - remaining = 0 := hgrid.eq_zero hpos (hleft.trans_lt hstep)
          have hclosed : closeLots dust gain remaining (lot :: lots) =
              { closeLots dust gain 0 lots with
                gain := gain lot.entryPrice * remaining + (closeLots dust gain 0 lots).gain } := by
            simp only [closeLots, if_pos hmore, hmin, if_pos hleft, sub_self]
          have hspec := @ih 0 ⟨0, by simp⟩ hrest
          rw [hclosed]
          refine ⟨hspec.isLot, hspec.onGrid, hspec.ends, ?_, ?_⟩
          · rw [quantity_cons, hspec.quantity_eq]
            linarith
          · rw [valued_cons, hspec.gain_eq, sub_eq_zero.mp hzero]
            ring
        · have hclosed : closeLots dust gain remaining (lot :: lots) =
              { gain := gain lot.entryPrice * remaining
                remaining := 0
                lots := { lot with qty := lot.qty - remaining } :: lots } := by
            simp only [closeLots, if_pos hmore, hmin, if_neg hleft, sub_self]
          rw [hclosed]
          refine ⟨?_, ⟨0, by simp⟩, Or.inl rfl, ?_, ?_⟩
          · rw [List.forall_mem_cons]
            exact ⟨⟨hgrid, hdust.trans_lt (not_le.mp hleft)⟩, hrest⟩
          · rw [quantity_cons, quantity_cons]
            ring
          · rw [valued_cons, valued_cons]
            ring
    · -- nothing to close
      have hzero : remaining = 0 :=
        le_antisymm (not_lt.mp hmore) (hremaining.nonneg hpos)
      have hclosed : closeLots dust gain remaining (lot :: lots) =
          ⟨0, remaining, lot :: lots⟩ := by
        simp only [closeLots, if_neg hmore]
      rw [hclosed]
      exact
        { isLot := hlots
          onGrid := hremaining
          ends := Or.inl hzero
          quantity_eq := by simp
          gain_eq := by simp }

end Close

/-! ## Closing on one side and opening on the other -/

section Turn

theorem isLot_openLot {step remaining price : K} {lots : List (Lot K)} (h : OnGrid step remaining)
    (hlots : ∀ lot ∈ lots, IsLot step lot) :
    ∀ lot ∈ openLot remaining price lots, IsLot step lot := by
  intro lot hlot
  unfold openLot at hlot
  split at hlot
  · rcases List.mem_append.mp hlot with hold | hnew
    · exact hlots lot hold
    · rw [List.mem_singleton.mp hnew]
      exact ⟨h, ‹0 < remaining›⟩
  · exact hlots lot hlot

theorem valued_openLot {remaining price : K} {lots : List (Lot K)} (f : K → K)
    (h : 0 ≤ remaining) :
    valued f (openLot remaining price lots) = valued f lots + f price * remaining := by
  unfold openLot
  split
  · rw [valued_append]
    simp
  · have hzero : remaining = 0 := le_antisymm (not_lt.mp ‹_›) h
    rw [hzero, mul_zero, add_zero]

theorem quantity_openLot {remaining price : K} {lots : List (Lot K)} (h : 0 ≤ remaining) :
    quantity (openLot remaining price lots) = quantity lots + remaining := by
  unfold openLot
  split
  · rw [quantity_append]
    simp
  · have hzero : remaining = 0 := le_antisymm (not_lt.mp ‹_›) h
    rw [hzero, add_zero]

variable [IsStrictOrderedRing K] {step dust : K}

/-- What a turn does to the two queues: `against` is the one that is closed, `own` the one that may
get a lot.  They are weighted so that the gain of a unit closed differs from the weight of its lot
by `change`. -/
structure Turned (step : K) (weight ownWeight : K → K) (change qty : K)
    (against own : List (Lot K)) (closed : Closed K) (opened : List (Lot K)) : Prop where
  against_isLot : ∀ lot ∈ closed.lots, IsLot step lot
  own_isLot : ∀ lot ∈ opened, IsLot step lot
  one_side : closed.lots = [] ∨ opened = []
  quantity_eq : quantity opened - quantity closed.lots = quantity own - quantity against + qty
  value_eq : closed.gain + valued weight closed.lots + valued ownWeight opened =
    valued weight against + valued ownWeight own + change * qty

/-- **A turn moves the value by the traded quantity**, however the quantity is split between lots
that are closed and a lot that is opened. -/
theorem turn_spec (gain weight ownWeight : K → K) (change price : K) (hdust : 0 ≤ dust)
    (hstep : dust < step) {qty : K} {against own : List (Lot K)} (hqty : OnGrid step qty)
    (hagainst : ∀ lot ∈ against, IsLot step lot) (hown : ∀ lot ∈ own, IsLot step lot)
    (hside : against = [] ∨ own = []) (hgain : ∀ entryPrice, gain entryPrice =
      weight entryPrice + change) (hprice : ownWeight price = change) :
    Turned step weight ownWeight change qty against own (closeLots dust gain qty against)
      (openLot (closeLots dust gain qty against).remaining price own) := by
  have hclosed := closeLots_spec gain hdust hstep hqty hagainst
  have hremaining := hclosed.onGrid.nonneg (hdust.trans_lt hstep)
  have hweights : gain = fun entryPrice => weight entryPrice + change := funext hgain
  refine ⟨hclosed.isLot, isLot_openLot hclosed.onGrid hown, ?_, ?_, ?_⟩
  · rcases hclosed.ends with hzero | hempty
    · rw [openLot, hzero, if_neg (lt_irrefl 0)]
      rcases hside with hnone | hnone
      · left
        rw [hnone, closeLots]
      · exact Or.inr hnone
    · exact Or.inl hempty
  · rw [quantity_openLot hremaining, hclosed.quantity_eq]
    ring
  · -- the gain is the value that has left the queue, in the weight of the gain
    have hleft := hclosed.gain_eq
    have hbefore := valued_add_const weight change against
    have hafter := valued_add_const weight change (closeLots dust gain qty against).lots
    rw [← hweights] at hbefore hafter
    rw [valued_openLot _ hremaining, hprice]
    calc (closeLots dust gain qty against).gain
          + valued weight (closeLots dust gain qty against).lots
          + (valued ownWeight own + change * (closeLots dust gain qty against).remaining)
        = valued gain against - change * quantity (closeLots dust gain qty against).lots +
            (valued ownWeight own + change * (closeLots dust gain qty against).remaining) := by
          rw [hleft, hafter]
          ring
      _ = valued weight against + valued ownWeight own + change * qty := by
          rw [hbefore, hclosed.quantity_eq]
          ring

end Turn

/-! ## Units in the order in which they were traded -/

section Units

/-- The first `n` units of the lots, weighted with a function of the price. -/
def firstUnits (f : K → K) : K → List (Lot K) → K
  | _, [] => 0
  | n, lot :: lots =>
      f lot.entryPrice * min n lot.qty + firstUnits f (n - min n lot.qty) lots

/-- The queue holds what has been traded, beyond the first `matched` units. -/
def Beyond (matched : K) (traded queue : List (Lot K)) : Prop :=
  ∀ (f : K → K) (n : K), 0 ≤ n →
    firstUnits f n queue = firstUnits f (matched + n) traded - firstUnits f matched traded

theorem firstUnits_zero (f : K → K) {lots : List (Lot K)} (h : ∀ lot ∈ lots, 0 ≤ lot.qty) :
    firstUnits f 0 lots = 0 := by
  induction lots with
  | nil => rfl
  | cons lot lots ih =>
    obtain ⟨hlot, hrest⟩ := List.forall_mem_cons.mp h
    rw [firstUnits, min_eq_left hlot, sub_zero, ih hrest, mul_zero, add_zero]

theorem IsLot.nonneg {step : K} {lot : Lot K} (h : IsLot step lot) : 0 ≤ lot.qty := h.2.le

variable [IsStrictOrderedRing K] {step dust n : K} {lots lots' : List (Lot K)}

theorem quantity_nonneg (h : ∀ lot ∈ lots, 0 ≤ lot.qty) : 0 ≤ quantity lots :=
  List.sum_nonneg fun x hx => by
    obtain ⟨lot, hlot, rfl⟩ := List.mem_map.mp hx
    exact h lot hlot

theorem firstUnits_append (f : K → K) (h : ∀ lot ∈ lots, 0 ≤ lot.qty) (hn : 0 ≤ n) :
    firstUnits f n (lots ++ lots') =
      firstUnits f n lots + firstUnits f (n - min n (quantity lots)) lots' := by
  induction lots generalizing n with
  | nil => simp [firstUnits, hn]
  | cons lot lots ih =>
    obtain ⟨hlot, hrest⟩ := List.forall_mem_cons.mp h
    have hleft : 0 ≤ n - min n lot.qty := sub_nonneg.mpr (min_le_left _ _)
    have hrestLeft : n - min n lot.qty - min (n - min n lot.qty) (quantity lots) =
        n - min n (quantity (lot :: lots)) := by
      have hquantity := quantity_nonneg hrest
      rw [quantity_cons]
      rcases le_total n lot.qty with hle | hle
      · rw [min_eq_left hle, min_eq_left (by linarith : n ≤ lot.qty + quantity lots), sub_self,
          min_eq_left hquantity, sub_zero]
      · rw [min_eq_right hle]
        rcases le_total (n - lot.qty) (quantity lots) with hle' | hle'
        · rw [min_eq_left hle', min_eq_left (by linarith : n ≤ lot.qty + quantity lots)]
          ring
        · rw [min_eq_right hle', min_eq_right (by linarith : lot.qty + quantity lots ≤ n)]
          ring
    rw [List.cons_append, firstUnits, firstUnits, ih hrest hleft, hrestLeft, add_assoc]

theorem firstUnits_eq_valued (f : K → K) (h : ∀ lot ∈ lots, 0 ≤ lot.qty)
    (hn : quantity lots ≤ n) : firstUnits f n lots = valued f lots := by
  induction lots generalizing n with
  | nil => rfl
  | cons lot lots ih =>
    obtain ⟨hlot, hrest⟩ := List.forall_mem_cons.mp h
    have hquantity := quantity_nonneg hrest
    rw [quantity_cons] at hn
    rw [firstUnits, min_eq_right (by linarith), ih hrest (by linarith), valued_cons]

theorem firstUnits_one (h : ∀ lot ∈ lots, 0 ≤ lot.qty) (hn : 0 ≤ n) :
    firstUnits (fun _ => 1) n lots = min n (quantity lots) := by
  induction lots generalizing n with
  | nil => rw [firstUnits, quantity_nil, min_eq_right hn]
  | cons lot lots ih =>
    obtain ⟨hlot, hrest⟩ := List.forall_mem_cons.mp h
    have hquantity := quantity_nonneg hrest
    rw [firstUnits, ih hrest (sub_nonneg.mpr (min_le_left _ _)), quantity_cons, one_mul]
    rcases le_total n lot.qty with hle | hle
    · rw [min_eq_left hle, sub_self, min_eq_left hquantity, add_zero, min_eq_left (by linarith)]
    · rw [min_eq_right hle, ← min_add_add_left, add_sub_cancel]

/-- **A close takes the oldest units** and leaves the others. -/
theorem firstUnits_closeLots (f gain : K → K) (hdust : 0 ≤ dust) (hstep : dust < step)
    {remaining : K} (hremaining : OnGrid step remaining) (hlots : ∀ lot ∈ lots, IsLot step lot)
    (hn : 0 ≤ n) :
    firstUnits f n (closeLots dust gain remaining lots).lots =
      firstUnits f (remaining + n) lots - firstUnits f remaining lots := by
  have hpos : 0 < step := hdust.trans_lt hstep
  induction lots generalizing remaining with
  | nil => simp [closeLots, firstUnits]
  | cons lot lots ih =>
    obtain ⟨hlot, hrest⟩ := List.forall_mem_cons.mp hlots
    have hzero : firstUnits f 0 lots = 0 := firstUnits_zero f fun lot h => (hrest lot h).nonneg
    by_cases hmore : 0 < remaining
    · rcases le_total lot.qty remaining with hle | hle
      · -- the lot is closed and the search goes on
        have hused : lot.qty - lot.qty ≤ dust := by
          rw [sub_self]
          exact hdust
        have hnext := ih (hremaining.sub hpos hlot.1 hle) hrest
        rw [closeLots, if_pos hmore]
        simp only [min_eq_right hle, if_pos hused]
        rw [hnext, firstUnits, firstUnits, min_eq_right hle,
          min_eq_right (by linarith : lot.qty ≤ remaining + n)]
        have hshift : remaining - lot.qty + n = remaining + n - lot.qty := by ring
        rw [hshift]
        ring
      · have hmin : min remaining lot.qty = remaining := min_eq_left hle
        have hboth : min (remaining + n) lot.qty = remaining + min n (lot.qty - remaining) := by
          rw [← min_add_add_left, add_sub_cancel]
        rw [closeLots, if_pos hmore]
        simp only [hmin]
        by_cases hleft : lot.qty - remaining ≤ dust
        · -- nothing is left of the lot, and the quantity is used up with it
          have hnone : lot.qty - remaining = 0 :=
            (hlot.1.sub hpos hremaining hle).eq_zero hpos (hleft.trans_lt hstep)
          have hnext := @ih 0 ⟨0, by simp⟩ hrest
          simp only [if_pos hleft, sub_self]
          rw [hnext, firstUnits, firstUnits, hmin, hboth, hnone, min_eq_right hn, sub_self, hzero,
            add_zero, zero_add, add_sub_cancel_left]
          ring
        · simp only [if_neg hleft]
          rw [firstUnits, firstUnits, firstUnits, hmin, hboth, sub_self, hzero]
          have hshift : remaining + n - (remaining + min n (lot.qty - remaining)) =
              n - min n (lot.qty - remaining) := by ring
          rw [hshift]
          ring
    · have hnone : remaining = 0 := le_antisymm (not_lt.mp hmore) (hremaining.nonneg hpos)
      rw [closeLots, if_neg hmore, hnone, zero_add,
        firstUnits_zero f fun lot h => (hlots lot h).nonneg, sub_zero]

theorem Beyond.valued_eq {matched : K} {traded queue : List (Lot K)}
    (h : Beyond matched traded queue) (hmatched : 0 ≤ matched)
    (htraded : ∀ lot ∈ traded, 0 ≤ lot.qty) (hqueue : ∀ lot ∈ queue, 0 ≤ lot.qty) (f : K → K) :
    valued f queue = valued f traded - firstUnits f matched traded := by
  have hn : 0 ≤ quantity queue + quantity traded :=
    add_nonneg (quantity_nonneg hqueue) (quantity_nonneg htraded)
  have hall := h f _ hn
  have hlots := quantity_nonneg hqueue
  have hmore := quantity_nonneg htraded
  rwa [firstUnits_eq_valued f hqueue (by linarith), firstUnits_eq_valued f htraded (by linarith)]
    at hall

theorem Beyond.quantity_eq {matched : K} {traded queue : List (Lot K)}
    (h : Beyond matched traded queue) (hmatched : 0 ≤ matched)
    (htraded : ∀ lot ∈ traded, 0 ≤ lot.qty) (hqueue : ∀ lot ∈ queue, 0 ≤ lot.qty) :
    quantity queue = quantity traded - min matched (quantity traded) := by
  have hvalued := h.valued_eq hmatched htraded hqueue fun _ => 1
  have hone : ∀ lots : List (Lot K), valued (fun _ => (1 : K)) lots = quantity lots := by
    intro lots
    induction lots with
    | nil => rfl
    | cons lot lots ih => rw [valued_cons, quantity_cons, ih, one_mul]
  rwa [hone, hone, firstUnits_one htraded hmatched] at hvalued

theorem eq_nil_of_quantity (h : ∀ lot ∈ lots, IsLot step lot) (hzero : quantity lots ≤ 0) :
    lots = [] := by
  cases lots with
  | nil => rfl
  | cons lot lots =>
    obtain ⟨hlot, hrest⟩ := List.forall_mem_cons.mp h
    have hquantity := quantity_nonneg fun lot h => (hrest lot h).nonneg
    rw [quantity_cons] at hzero
    exact absurd hlot.2 (not_lt.mpr (by linarith))

theorem firstUnits_add_of_le (f : K → K) (h : ∀ lot ∈ lots, 0 ≤ lot.qty) {m : K}
    (hm : quantity lots ≤ m) (hn : 0 ≤ n) : firstUnits f (m + n) lots = firstUnits f m lots := by
  rw [firstUnits_eq_valued f h hm, firstUnits_eq_valued f h (by linarith)]

theorem firstUnits_openLot (f : K → K) {remaining price : K} (h : ∀ lot ∈ lots, 0 ≤ lot.qty)
    (hremaining : 0 ≤ remaining) (hn : 0 ≤ n) :
    firstUnits f n (openLot remaining price lots) =
      firstUnits f n lots + f price * min (n - min n (quantity lots)) remaining := by
  have hleft : 0 ≤ n - min n (quantity lots) := sub_nonneg.mpr (min_le_left _ _)
  unfold openLot
  split
  · rw [firstUnits_append f h hn]
    simp only [firstUnits, add_zero]
  · have hzero : remaining = 0 := le_antisymm (not_lt.mp ‹_›) hremaining
    rw [hzero, min_eq_right hleft, mul_zero, add_zero]

/-- **The units are matched in the order in which they were traded.**  A turn closes the units of
its side that the other side still has beyond the matched ones, and leaves the rest to its own. -/
theorem turn_beyond (gain : K → K) (price : K) (hdust : 0 ≤ dust) (hstep : dust < step) {qty : K}
    {against own againstTraded ownTraded : List (Lot K)} (hqty : OnGrid step qty)
    (hpos : 0 < qty) (hagainst : ∀ lot ∈ against, IsLot step lot)
    (hown : ∀ lot ∈ own, IsLot step lot) (hagainstTraded : ∀ lot ∈ againstTraded, 0 ≤ lot.qty)
    (hownTraded : ∀ lot ∈ ownTraded, 0 ≤ lot.qty)
    (hbeyondAgainst : Beyond (min (quantity ownTraded) (quantity againstTraded)) againstTraded
      against)
    (hbeyondOwn : Beyond (min (quantity ownTraded) (quantity againstTraded)) ownTraded own) :
    Beyond (min (quantity ownTraded + qty) (quantity againstTraded)) againstTraded
      (closeLots dust gain qty against).lots ∧
    Beyond (min (quantity ownTraded + qty) (quantity againstTraded)) (ownTraded ++ [⟨qty, price⟩])
      (openLot (closeLots dust gain qty against).remaining price own) := by
  have hclosed := closeLots_spec gain hdust hstep hqty hagainst
  have hremaining := hclosed.onGrid.nonneg (hdust.trans_lt hstep)
  have hagainstNonneg : ∀ lot ∈ against, 0 ≤ lot.qty := fun lot h => (hagainst lot h).nonneg
  have hownNonneg : ∀ lot ∈ own, 0 ≤ lot.qty := fun lot h => (hown lot h).nonneg
  have hO := quantity_nonneg hownTraded
  have hA := quantity_nonneg hagainstTraded
  have hmatched := le_min hO hA
  have hagainstQuantity := hbeyondAgainst.quantity_eq hmatched hagainstTraded hagainstNonneg
  have hownQuantity := hbeyondOwn.quantity_eq hmatched hownTraded hownNonneg
  have hleftQuantity := quantity_nonneg fun lot h => (hclosed.isLot lot h).nonneg
  have hmoved := hclosed.quantity_eq
  have hlast : ∀ (f : K → K) (k : K), 0 ≤ k → firstUnits f k (ownTraded ++ [⟨qty, price⟩]) =
      firstUnits f k ownTraded + f price * min (k - min k (quantity ownTraded)) qty := by
    intro f k hk
    rw [← firstUnits_openLot f hownTraded hpos.le hk, openLot, if_pos hpos]
  rcases le_total (quantity againstTraded) (quantity ownTraded) with hle | hle
  · -- the other side has no units left, so all of the quantity is opened
    have hmin : min (quantity ownTraded + qty) (quantity againstTraded) =
        quantity againstTraded := min_eq_right (by linarith)
    rw [min_eq_right hle] at hagainstQuantity hownQuantity hbeyondAgainst hbeyondOwn
    rw [min_self, sub_self] at hagainstQuantity
    rw [min_eq_left hle] at hownQuantity
    have hnone : against = [] := eq_nil_of_quantity hagainst hagainstQuantity.le
    subst hnone
    rw [hmin, closeLots]
    refine ⟨hbeyondAgainst, fun f n hn => ?_⟩
    rw [firstUnits_openLot f hownNonneg hpos.le hn, hlast f _ (add_nonneg hA hn), hlast f _ hA,
      hbeyondOwn f n hn, hownQuantity, min_eq_left hle, sub_self, min_eq_left hpos.le, mul_zero]
    have hrest : n - min n (quantity ownTraded - quantity againstTraded) =
        quantity againstTraded + n - min (quantity againstTraded + n) (quantity ownTraded) := by
      have := min_add_add_left (quantity againstTraded) n
        (quantity ownTraded - quantity againstTraded)
      rw [add_sub_cancel] at this
      rw [this]
      ring
    rw [hrest]
    ring
  · -- the own side has none
    rw [min_eq_left hle] at hagainstQuantity hownQuantity hbeyondAgainst hbeyondOwn
    rw [min_self, sub_self] at hownQuantity
    rw [min_eq_left hle] at hagainstQuantity
    have hnone : own = [] := eq_nil_of_quantity hown hownQuantity.le
    subst hnone
    have hopened : (closeLots dust gain qty against).remaining = quantity ownTraded + qty -
        min (quantity ownTraded + qty) (quantity againstTraded) := by
      rcases hclosed.ends with hzero | hempty
      · rw [hzero] at hmoved ⊢
        rw [min_eq_left (by linarith), sub_self]
      · rw [hempty, quantity_nil] at hmoved
        rw [min_eq_right (by linarith)]
        linarith
    have hmore : quantity ownTraded ≤
        min (quantity ownTraded + qty) (quantity againstTraded) := le_min (by linarith) hle
    constructor
    · intro f n hn
      rw [firstUnits_closeLots f gain hdust hstep hqty hagainst hn,
        hbeyondAgainst f _ (add_nonneg hpos.le hn), hbeyondAgainst f _ hpos.le]
      rcases le_total (quantity ownTraded + qty) (quantity againstTraded) with hfew | hfew
      · rw [min_eq_left hfew, add_assoc]
        ring
      · rw [min_eq_right hfew, ← add_assoc, firstUnits_add_of_le f hagainstTraded hfew hn,
          firstUnits_add_of_le f hagainstTraded le_rfl hn]
        ring
    · intro f n hn
      rw [firstUnits_openLot f hownNonneg hremaining hn, hlast f _ (by linarith),
        hlast f _ (by linarith), firstUnits_add_of_le f hownTraded hmore hn, quantity_nil,
        min_eq_right hn, sub_zero, hopened]
      set matched := min (quantity ownTraded + qty) (quantity againstTraded) with hmatchedEq
      have hcap : matched ≤ quantity ownTraded + qty := min_le_left _ _
      have hshift := min_add_add_left (matched - quantity ownTraded) n
        (quantity ownTraded + qty - matched)
      rw [min_eq_right hmore, min_eq_right (by linarith : quantity ownTraded ≤ matched + n),
        min_eq_left (by linarith : matched - quantity ownTraded ≤ qty)]
      have hsum : matched - quantity ownTraded + (quantity ownTraded + qty - matched) = qty := by
        ring
      have hunits : matched - quantity ownTraded + n = matched + n - quantity ownTraded := by ring
      rw [hsum, hunits] at hshift
      rw [hshift, firstUnits]
      ring

end Units

end LotQueue
