import AdviserConstructor.Library.Paging
import Mathlib.Algebra.Order.Field.Rat
import Mathlib.Tactic.Linarith

/-!
# The candles of a time range

`_fetch_ohlcv_range` of `app/services/execution/ccxt_adapter.py`: the loop that asks an exchange for
candles page after page until it has as many as were asked for, comes across one behind the end of
the range, or gets nothing new.

* `takeRows_eq`: what one page adds to the rows;
* `rangeLoop_eq`: from any point of a fetch on, the loop comes to an end with the rows that it has
  and what the history has left of the range, cut off at the limit;
* `fetchOhlcvRange_eq`: so a fetch returns exactly the first candles of the range.
-/

namespace AdviserConstructor
namespace OhlcvRange

/-! ## The loop -/

/-- A row of `fetch_ohlcv`: the time in milliseconds at which the candle opens, and the figures
behind it. -/
structure OhlcvRow where
  time : ℤ
  figures : List ℚ
  deriving DecidableEq

/-- What a fetch asks for. -/
structure Range where
  sinceMs : ℤ
  endMs : Option ℤ
  limit : ℤ

/-- `rows[:limit]`, where a negative limit counts from the end. -/
def sliceTo (rows : List OhlcvRow) (limit : ℤ) : List OhlcvRow :=
  if 0 ≤ limit then rows.take limit.toNat else rows.take (rows.length + limit).toNat

namespace Range

def maxBatch (r : Range) : ℤ := min (max r.limit 1) 1000

/-- `end_ms is not None and ts > end_ms`. -/
def pastEnd (r : Range) (item : OhlcvRow) : Bool := r.endMs.any fun endMs => endMs < item.time

/-- The rows behind a page, and whether the page has a candle behind the end. -/
def takeRows (r : Range) : List OhlcvRow → List OhlcvRow → List OhlcvRow × Bool
  | [], rows => (rows, false)
  | item :: batch, rows =>
      if r.pastEnd item then (rows, true)
      else takeRows r batch (if r.sinceMs ≤ item.time then rows ++ [item] else rows)

end Range

/-- An exchange: its answer to a call, by the number of the call, the cursor, and how many rows the
call asks for. -/
abbrev Exchange := ℕ → ℤ → ℤ → List OhlcvRow

/-- The loop from a call on; `none` if there is no fuel for it to come to an end. -/
def rangeLoop (exchange : Exchange) (r : Range) :
    ℕ → ℕ → ℤ → List OhlcvRow → Option (List OhlcvRow)
  | 0, _, _, _ => none
  | fuel + 1, call, cursor, rows =>
      if (rows.length : ℤ) < r.limit then
        let batch := exchange call cursor r.maxBatch
        match batch.getLast? with
        | none => some (sliceTo rows r.limit)
        | some last =>
            match r.takeRows batch rows with
            | (rows, true) => some (sliceTo rows r.limit)
            | (rows, false) =>
                let nextCursor := last.time + 1
                if nextCursor ≤ cursor then some (sliceTo rows r.limit)
                else rangeLoop exchange r fuel (call + 1) nextCursor rows
      else some (sliceTo rows r.limit)

/-- `_fetch_ohlcv_range`. -/
def fetchOhlcvRange (exchange : Exchange) (r : Range) (fuel : ℕ) : Option (List OhlcvRow) :=
  rangeLoop exchange r fuel 0 r.sinceMs []

/-! ## Histories -/

/-- The candles that an exchange has, one for each time, in ascending order. -/
structure History where
  candles : List OhlcvRow
  ascending : candles.Pairwise fun a b => a.time < b.time

namespace History

def notBefore (h : History) (cursor : ℤ) : List OhlcvRow :=
  Paging.notBefore OhlcvRow.time cursor h.candles

/-- An answer to a call: the first candles not before the cursor, as many as the exchange likes up
to the batch size, and none only if none are left. -/
structure Answer (h : History) (cursor batchSize : ℤ) (batch : List OhlcvRow) : Prop where
  first : batch <+: h.notBefore cursor
  size : (batch.length : ℤ) ≤ batchSize
  nonempty : batch = [] → h.notBefore cursor = []

/-- Every call is answered from the history. -/
def Serves (h : History) (exchange : Exchange) : Prop :=
  ∀ call cursor batchSize, 1 ≤ batchSize →
    h.Answer cursor batchSize (exchange call cursor batchSize)

/-- The candles of a range: those from `since` to the end. -/
def inRange (h : History) (r : Range) : List OhlcvRow :=
  h.candles.filter fun c => r.sinceMs ≤ c.time ∧ ∀ endMs ∈ r.endMs, c.time ≤ endMs

end History

/-! ## One page -/

theorem sliceTo_eq {rows : List OhlcvRow} {limit : ℤ} (h : 0 ≤ limit ∨ rows = []) :
    sliceTo rows limit = rows.take limit.toNat := by
  unfold sliceTo
  split
  · rfl
  · rcases h with hlimit | rfl
    · exact absurd hlimit ‹_›
    · rw [List.take_nil, List.take_nil]

theorem one_le_maxBatch (r : Range) : 1 ≤ r.maxBatch :=
  le_min (le_max_right ..) (by norm_num)

theorem pastEnd_eq_false_iff {r : Range} {item : OhlcvRow} :
    r.pastEnd item = false ↔ ∀ endMs ∈ r.endMs, item.time ≤ endMs := by
  unfold Range.pastEnd
  cases r.endMs with
  | none => simp
  | some endMs => simp

theorem pastEnd_mono {r : Range} {a b : OhlcvRow} (h : a.time ≤ b.time) (ha : r.pastEnd a = true) :
    r.pastEnd b = true := by
  by_contra hb
  rw [Bool.not_eq_true, pastEnd_eq_false_iff] at hb
  have hfalse : r.pastEnd a = false := pastEnd_eq_false_iff.mpr fun e he => h.trans (hb e he)
  rw [ha] at hfalse
  cases hfalse

/-- The part of a list of candles that is not behind the end. -/
def Range.untilEnd (r : Range) (items : List OhlcvRow) : List OhlcvRow :=
  items.filter fun item => !r.pastEnd item

theorem untilEnd_eq_nil {r : Range} {item : OhlcvRow} {items : List OhlcvRow}
    (h : ∀ b ∈ items, item.time ≤ b.time) (hend : r.pastEnd item = true) :
    r.untilEnd items = [] := by
  refine List.filter_eq_nil_iff.mpr fun b hb => ?_
  rw [pastEnd_mono (h b hb) hend]
  simp

/-- **What one page adds**: its candles up to the end; the fetch returns if it has others. -/
theorem takeRows_eq {r : Range} {batch rows : List OhlcvRow}
    (hsorted : Paging.Ascending OhlcvRow.time batch) (hsince : ∀ c ∈ batch, r.sinceMs ≤ c.time) :
    r.takeRows batch rows = (rows ++ r.untilEnd batch, batch.any r.pastEnd) := by
  induction batch generalizing rows with
  | nil =>
    rw [Range.takeRows, Range.untilEnd, List.filter_nil, List.append_nil, List.any_nil]
  | cons item batch ih =>
    obtain ⟨hle, hbatch⟩ := List.pairwise_cons.mp hsorted
    rw [Range.takeRows, List.any_cons]
    cases hend : r.pastEnd item with
    | true =>
      have hnone : r.untilEnd (item :: batch) = [] := by
        refine @untilEnd_eq_nil r item _ (fun b hb => ?_) hend
        rcases List.mem_cons.mp hb with rfl | hb
        · exact le_rfl
        · exact hle b hb
      rw [if_pos rfl, hnone, List.append_nil, Bool.true_or]
    | false =>
      have hcons : r.untilEnd (item :: batch) = item :: r.untilEnd batch :=
        List.filter_cons_of_pos (by rw [hend]; rfl)
      rw [if_neg Bool.false_ne_true, if_pos (hsince item List.mem_cons_self), Bool.false_or, hcons,
        ih hbatch fun c hc => hsince c (List.mem_cons_of_mem _ hc), List.append_assoc,
        List.singleton_append]

/-! ## The whole fetch -/

namespace History

variable {h : History}

theorem ascending_le (h : History) : Paging.Ascending OhlcvRow.time h.candles :=
  h.ascending.imp fun hlt => hlt.le

theorem notBefore_behind {cursor : ℤ} {page rest : List OhlcvRow} {last : OhlcvRow}
    (hpage : h.notBefore cursor = page ++ rest) (hlast : last ∈ page.getLast?) :
    h.notBefore (last.time + 1) = rest := by
  refine (Paging.notBefore_behind_eq_iff h.ascending_le hpage hlast).mpr fun c hc => ?_
  have hsorted : (page ++ rest).Pairwise fun a b => a.time < b.time :=
    hpage ▸ h.ascending.sublist List.filter_sublist
  have hlt := (List.pairwise_append.mp hsorted).2.2 last (List.mem_of_mem_getLast? hlast) c hc
  exact hlt.ne'

end History

/-- **The loop from any point on**: it comes to an end, with its rows and what the history has left
of the range. -/
theorem rangeLoop_eq {h : History} {exchange : Exchange} (hserves : h.Serves exchange) {r : Range}
    {fuel call : ℕ} {cursor : ℤ} {rows : List OhlcvRow} (hcursor : r.sinceMs ≤ cursor)
    (hrows : 0 ≤ r.limit ∨ rows = []) (hfuel : (h.notBefore cursor).length < fuel) :
    rangeLoop exchange r fuel call cursor rows =
      some ((rows ++ r.untilEnd (h.notBefore cursor)).take r.limit.toNat) := by
  induction fuel generalizing call cursor rows with
  | zero => exact absurd hfuel (Nat.not_lt_zero _)
  | succ fuel ih =>
    by_cases hmore : (rows.length : ℤ) < r.limit
    · have hlimit : 0 ≤ r.limit := (Int.natCast_nonneg _).trans hmore.le
      obtain ⟨hfirst, -, hnonempty⟩ := hserves call cursor r.maxBatch (one_le_maxBatch r)
      obtain ⟨rest, hpage⟩ := hfirst
      rw [rangeLoop, if_pos hmore]
      dsimp only
      generalize exchange call cursor r.maxBatch = batch at hpage hnonempty ⊢
      cases hlast : batch.getLast? with
      | none =>
        have hnil := hnonempty (List.getLast?_eq_none_iff.mp hlast)
        rw [sliceTo_eq (Or.inl hlimit), hnil, Range.untilEnd, List.filter_nil, List.append_nil]
      | some last =>
        have hsorted := (h.ascending_le).notBefore cursor
        change Paging.Ascending OhlcvRow.time (h.notBefore cursor) at hsorted
        rw [← hpage] at hsorted
        obtain ⟨hbatch, -, hbehind⟩ := List.pairwise_append.mp hsorted
        have hge : ∀ c ∈ batch, cursor ≤ c.time := fun c hc =>
          (Paging.mem_notBefore.mp (hpage ▸ List.mem_append_left rest hc)).2
        have hsplit : r.untilEnd (batch ++ rest) = r.untilEnd batch ++ r.untilEnd rest :=
          List.filter_append ..
        rw [takeRows_eq hbatch fun c hc => hcursor.trans (hge c hc), ← hpage]
        cases hend : batch.any r.pastEnd with
        | true =>
          -- a candle of the page is behind the end, and so is all that follows the page
          obtain ⟨item, hitem, hpast⟩ := List.any_eq_true.mp hend
          rw [hsplit, untilEnd_eq_nil (hbehind item hitem) hpast, List.append_nil]
          dsimp only
          rw [sliceTo_eq (Or.inl hlimit)]
        | false =>
          have hmem := List.mem_of_mem_getLast? hlast
          have hlt : cursor < last.time + 1 := Int.lt_add_one_of_le (hge last hmem)
          have hrest := History.notBefore_behind hpage.symm hlast
          have hpos := List.length_pos_of_mem hmem
          have hlength : (h.notBefore (last.time + 1)).length < fuel := by
            rw [← hpage, List.length_append] at hfuel
            rw [hrest]
            omega
          dsimp only
          rw [if_neg (not_le.mpr hlt), ih (hcursor.trans hlt.le) (Or.inl hlimit) hlength, hrest,
            hsplit, List.append_assoc]
    · rw [rangeLoop, if_neg hmore, sliceTo_eq hrows]
      rcases hrows with hlimit | rfl
      · rw [List.take_append_of_le_length (by omega)]
      · have hzero : r.limit.toNat = 0 := by
          rw [List.length_nil] at hmore
          omega
        rw [hzero, List.take_zero, List.take_zero]

/-- **A fetch is exact**: however the exchange cuts its pages, it comes to an end with exactly the
first candles of the range, each once and in order. -/
theorem fetchOhlcvRange_eq (h : History) (exchange : Exchange) (hserves : h.Serves exchange)
    (r : Range) (fuel : ℕ) (hfuel : h.candles.length < fuel) :
    fetchOhlcvRange exchange r fuel = some ((h.inRange r).take r.limit.toNat) := by
  have hlength : (h.notBefore r.sinceMs).length < fuel :=
    (List.length_filter_le ..).trans_lt hfuel
  have hrange : r.untilEnd (h.notBefore r.sinceMs) = h.inRange r := by
    unfold Range.untilEnd History.notBefore Paging.notBefore History.inRange
    rw [List.filter_filter]
    refine List.filter_congr fun c _ => ?_
    rw [Bool.eq_iff_iff, Bool.and_eq_true, Bool.not_eq_true', pastEnd_eq_false_iff,
      decide_eq_true_eq, decide_eq_true_eq]
    exact And.comm
  rw [fetchOhlcvRange, rangeLoop_eq hserves le_rfl (Or.inr rfl) hlength, hrange, List.nil_append]

/-- An exchange that gives one candle per call. -/
def History.onePerCall (h : History) : Exchange := fun _ cursor _ => (h.notBefore cursor).take 1

theorem serves_onePerCall (h : History) : h.Serves h.onePerCall := by
  intro call cursor batchSize hsize
  refine ⟨List.take_prefix .., ?_, fun hnil => ?_⟩
  · have hle : ((h.notBefore cursor).take 1).length ≤ 1 := List.length_take_le ..
    exact (Int.ofNat_le.mpr hle).trans hsize
  · exact (List.take_eq_nil_iff.mp hnil).resolve_left one_ne_zero

def threeHours : History where
  candles := [⟨0, [1]⟩, ⟨3600000, [2]⟩, ⟨7200000, [3]⟩]
  ascending := by simp

/-- The candles from the second hour on, one per call. -/
theorem fetchOhlcvRange_threeHours :
    fetchOhlcvRange threeHours.onePerCall ⟨1, some 7200000, 5⟩ 4 =
      some [⟨3600000, [2]⟩, ⟨7200000, [3]⟩] := by
  rw [fetchOhlcvRange_eq threeHours _ (serves_onePerCall threeHours) _ 4 (by decide)]
  decide

end OhlcvRange
end AdviserConstructor
