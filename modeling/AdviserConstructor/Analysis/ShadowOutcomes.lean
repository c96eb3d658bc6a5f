import AdviserConstructor.Exchange.OhlcvRange
import AdviserConstructor.Library.PrintBars
import Mathlib.Data.Int.Interval
import Mathlib.Data.List.Sort

/-!
# Shadow outcomes

`app/services/oa_shadow.py`: every forecast is recorded with the end of its horizon, and once that
has come, the move of the market is filled in from hourly candles.  A candle is looked up by the
time at which it opens, for the signal as for the end of the horizon; its close is known an hour
later.

The market is a tape of trades.  An exchange makes candles of it as far as it has come when they are
fetched, the last of which is still forming.  Whether it has a candle for an hour without a trade is
left open.  Times are milliseconds, which is what exchanges and the fetch work with.

* `candle_congr`: a candle that has ended is the same for all markets that agree so far.
* `settled_of_lastInstant`, `known_of_lastInstant`: at the last instant of an hour a backfill does
  not look ahead.
* `exists_move_ne`: at any other time the stored move depends on what is traded behind the horizon.
* `noLookAhead_backfill_iff`: a backfill does not look ahead exactly for signals at the last instant
  of an hour.
-/

namespace AdviserConstructor

namespace Shadow

open OhlcvRange PrintBars

/-! ## Markets and candles -/

/-- What is traded, beside the time. -/
structure Deal where
  price : ℚ
  amount : ℚ
  deriving DecidableEq, Repr

abbrev Market := Tape Deal

def hourMs : ℤ := 3600000

/-- The columns of a candle, from the prices and amounts of its trades. -/
def figuresOf (first : Deal) (rest : List Deal) : List ℚ :=
  [first.price, (rest.map Deal.price).foldl max first.price,
    (rest.map Deal.price).foldl min first.price,
    ((first :: rest).getLast (List.cons_ne_nil _ _)).price,
    ((first :: rest).map Deal.amount).sum]

section

variable (reports : ℤ → Bool)

/-- The candle of an hour, as an exchange has it at a time: of its trades, or the price before it,
if the exchange reports an hour without trades. -/
def candle (m : Market) (now hour : ℤ) : Option OhlcvRow :=
  match (m.members hourMs hour now).map Prod.snd with
  | first :: rest => some ⟨hour * hourMs, figuresOf first rest⟩
  | [] =>
      if reports hour then
        (m.before hourMs hour).getLast?.map fun p =>
          ⟨hour * hourMs, [p.2.price, p.2.price, p.2.price, p.2.price, 0]⟩
      else none

/-- The hours of a market up to a time. -/
def hours (m : Market) (now : ℤ) : List ℤ :=
  match m.prints with
  | [] => []
  | first :: _ =>
      (List.range (now / hourMs + 1 - first.1 / hourMs).toNat).map fun i : ℕ =>
        first.1 / hourMs + (i : ℤ)

theorem candle_time {m : Market} {now hour : ℤ} {row : OhlcvRow}
    (h : candle reports m now hour = some row) : row.time = hour * hourMs := by
  rw [candle] at h
  split at h
  · rw [← Option.some.inj h]
  · split at h
    · obtain ⟨p, -, rfl⟩ := Option.map_eq_some_iff.mp h
      rfl
    · cases h

theorem pairwise_hours (m : Market) (now : ℤ) : (hours m now).Pairwise (· < ·) := by
  rw [hours]
  split
  · exact List.Pairwise.nil
  · refine List.Pairwise.map _ (fun a b (hlt : a < b) => ?_) List.pairwise_lt_range
    omega

/-- The candles that an exchange has at a time. -/
def candlesAt (m : Market) (now : ℤ) : History where
  candles := (hours m now).filterMap (candle reports m now)
  ascending := by
    refine List.Pairwise.filterMap _ (fun hour hour' hlt row hrow row' hrow' => ?_)
      (pairwise_hours m now)
    rw [candle_time reports hrow, candle_time reports hrow']
    exact Int.mul_lt_mul_of_pos_right hlt (by decide)

end

/-! ## Forecasts -/

/-- `OaShadowOutcome`. -/
structure ShadowOutcome where
  historyId : ℕ
  symbol : String
  signalTimeUtc : ℤ
  horizonEndUtc : ℤ
  realizedMovePct : Option ℚ := none
  entered : Bool := false
  deriving DecidableEq, Repr

/-- `OA_SHADOW_HORIZON_HOURS`. -/
def oaShadowHorizonHours : ℤ := 72

/-- The row that `record_candidate` adds. -/
def recordCandidate (historyId : ℕ) (symbol : String) (coreCompletedAt : Option ℤ)
    (createdAt : ℤ) : ShadowOutcome :=
  let signalTime := coreCompletedAt.getD createdAt
  { historyId := historyId
    symbol := symbol
    signalTimeUtc := signalTime
    horizonEndUtc := signalTime + oaShadowHorizonHours * hourMs }

/-! ## The realized move -/

/-- The column `close` of a row. -/
def close (row : OhlcvRow) : Option ℚ := row.figures[3]?

/-- `close.asof(when)`: the last close that is there up to a time. -/
def asof (df : List OhlcvRow) (time : ℤ) : Option ℚ :=
  (df.filter fun row => row.time ≤ time).reverse.findSome? close

/-- The variables `entry` and `exit_price` of `compute_realized_move_pct`. -/
def entryPrice (df : List OhlcvRow) (signalTime horizonEnd : ℤ) : Option ℚ :=
  asof (df.filter fun row => row.time ≤ horizonEnd) signalTime

def exitPrice (df : List OhlcvRow) (horizonEnd : ℤ) : Option ℚ :=
  asof (df.filter fun row => row.time ≤ horizonEnd) horizonEnd

/-- `compute_realized_move_pct`. -/
def computeRealizedMovePct (df : List OhlcvRow) (signalTime horizonEnd : ℤ) : Option ℚ :=
  (entryPrice df signalTime horizonEnd).bind fun entry =>
    (exitPrice df horizonEnd).bind fun exit =>
      if entry ≤ 0 then none else some ((exit - entry) / entry * 100)

/-! ## The backfill -/

/-- The range of candles that is fetched for a forecast: `_BACKFILL_BARS` of `_BACKFILL_TIMEFRAME`,
from `_BACKFILL_ENTRY_PAD` before the signal. -/
def backfillRange (row : ShadowOutcome) : Range where
  sinceMs := row.signalTimeUtc - 2 * hourMs
  endMs := some row.horizonEndUtc
  limit := 200

/-- The result of `backfill_due`. -/
structure BackfillStats where
  due : ℕ := 0
  filled : ℕ := 0
  skipped : ℕ := 0
  errors : ℕ := 0
  deriving DecidableEq, Repr

/-- A row of `backfill_due`: what is fetched for it, if nothing raises, and whether a position was
opened from its forecast. -/
def backfillRow (df : Option (List OhlcvRow)) (wasEntered : Bool) (row : ShadowOutcome)
    (stats : BackfillStats) : ShadowOutcome × BackfillStats :=
  match df with
  | none => (row, { stats with errors := stats.errors + 1 })
  | some df =>
      match computeRealizedMovePct df row.signalTimeUtc row.horizonEndUtc with
      | none => (row, { stats with skipped := stats.skipped + 1 })
      | some move =>
          ({ row with realizedMovePct := some move, entered := wasEntered },
            { stats with filled := stats.filled + 1 })

/-- `backfill_due`, over the rows that no other worker has locked. -/
def backfillDue (now : ℤ) (fetched : ShadowOutcome → Option (List OhlcvRow))
    (wasEntered : ℕ → Bool) :
    List ShadowOutcome → BackfillStats → List ShadowOutcome × BackfillStats
  | [], stats => ([], stats)
  | row :: rows, stats =>
      if row.realizedMovePct = none ∧ row.horizonEndUtc ≤ now then
        let backfilled := backfillRow (fetched row) (wasEntered row.historyId) row
          { stats with due := stats.due + 1 }
        let rest := backfillDue now fetched wasEntered rows backfilled.2
        (backfilled.1 :: rest.1, rest.2)
      else
        let rest := backfillDue now fetched wasEntered rows stats
        (row :: rest.1, rest.2)

section

variable {reports : ℤ → Bool} {m m' : Market} {now now' t hour : ℤ} {row : OhlcvRow}
  {df df' : List OhlcvRow}

/-! ## The candles of a time -/

/-- **A candle that has ended** is the same for all markets that agree so far. -/
theorem candle_congr (hended : Ended hourMs hour t) (hagree : m.upTo t = m'.upTo t)
    (hnow : t ≤ now) (hnow' : t ≤ now') :
    candle reports m now hour = candle reports m' now' hour := by
  have hopen : hour * hourMs ≤ t + 1 := by
    unfold Ended hourMs at hended
    unfold hourMs
    omega
  rw [candle, candle, members_congr hended hagree hnow hnow', before_congr hopen hagree]

theorem exists_print_of_candle (h : candle reports m now hour = some row) :
    ∃ p ∈ m.prints, p.1 < (hour + 1) * hourMs := by
  rw [candle] at h
  split at h
  · rename_i first rest hmembers
    have hmem : first ∈ (m.members hourMs hour now).map Prod.snd := by
      rw [hmembers]
      exact List.mem_cons_self
    obtain ⟨p, hp, -⟩ := List.mem_map.mp hmem
    obtain ⟨hprint, hin⟩ := List.mem_filter.mp hp
    exact ⟨p, hprint, (of_decide_eq_true hin).2.1⟩
  · split at h
    · obtain ⟨p, hlast, -⟩ := Option.map_eq_some_iff.mp h
      obtain ⟨hprint, hbefore⟩ := List.mem_filter.mp (List.mem_of_getLast? hlast)
      refine ⟨p, hprint, (of_decide_eq_true hbefore).trans ?_⟩
      unfold hourMs
      omega
    · cases h

theorem mem_hours : hour ∈ hours m now ↔
    (∃ p ∈ m.prints, p.1 < (hour + 1) * hourMs) ∧ hour * hourMs ≤ now := by
  have hordered := m.ordered
  rw [hours]
  cases hprints : m.prints with
  | nil => simp
  | cons first rest =>
    rw [hprints] at hordered
    have hfirst : (∃ p ∈ first :: rest, p.1 < (hour + 1) * hourMs) ↔
        first.1 < (hour + 1) * hourMs := by
      constructor
      · rintro ⟨p, hp, hlt⟩
        rcases List.mem_cons.mp hp with rfl | hp
        · exact hlt
        · exact ((List.pairwise_cons.mp hordered).1 p hp).trans_lt hlt
      · exact fun hlt => ⟨first, List.mem_cons_self, hlt⟩
    rw [hfirst]
    rw [List.mem_map]
    unfold hourMs
    constructor
    · rintro ⟨i, hi, rfl⟩
      have hlt := List.mem_range.mp hi
      omega
    · rintro ⟨hfrom, hto⟩
      refine ⟨(hour - first.1 / 3600000).toNat, List.mem_range.mpr ?_, ?_⟩ <;> omega

theorem mem_candlesAt : row ∈ (candlesAt reports m now).candles ↔
    ∃ hour, hour * hourMs ≤ now ∧ candle reports m now hour = some row := by
  show row ∈ (hours m now).filterMap (candle reports m now) ↔ _
  rw [List.mem_filterMap]
  constructor
  · rintro ⟨hour, hhour, hrow⟩
    exact ⟨hour, (mem_hours.mp hhour).2, hrow⟩
  · rintro ⟨hour, hbegun, hrow⟩
    exact ⟨hour, mem_hours.mpr ⟨exists_print_of_candle hrow, hbegun⟩, hrow⟩

/-! ## What a backfill reads -/

/-- The rows that are fetched for a forecast at a time. -/
def rowsOf (reports : ℤ → Bool) (m : Market) (o : ShadowOutcome) (now : ℤ) : List OhlcvRow :=
  (candlesAt reports m now).inRange (backfillRange o)

variable {o : ShadowOutcome}

theorem mem_rowsOf : row ∈ rowsOf reports m o now ↔
    ∃ hour, (hour * hourMs ≤ now ∧ o.signalTimeUtc - 2 * hourMs ≤ hour * hourMs ∧
      hour * hourMs ≤ o.horizonEndUtc) ∧ candle reports m now hour = some row := by
  rw [rowsOf, History.inRange, List.mem_filter, mem_candlesAt, decide_eq_true_eq]
  constructor
  · rintro ⟨⟨hour, hbegun, hrow⟩, hsince, hend⟩
    have htime := candle_time reports hrow
    refine ⟨hour, ⟨hbegun, ?_, ?_⟩, hrow⟩
    · rw [← htime]
      exact hsince
    · rw [← htime]
      exact hend o.horizonEndUtc rfl
  · rintro ⟨hour, ⟨hbegun, hsince, hend⟩, hrow⟩
    have htime := candle_time reports hrow
    refine ⟨⟨hour, hbegun, hrow⟩, ?_, fun endMs hendMs => ?_⟩
    · rw [htime]
      exact hsince
    · rw [htime, ← Option.some.inj (Option.mem_def.mp hendMs)]
      exact hend

theorem pairwise_rowsOf : (rowsOf reports m o now).Pairwise fun a b => a.time < b.time :=
  (candlesAt reports m now).ascending.sublist List.filter_sublist

theorem signal_lt_horizon (hhorizon : o.horizonEndUtc = o.signalTimeUtc + 72 * hourMs) :
    o.signalTimeUtc < o.horizonEndUtc := by
  rw [hhorizon]
  unfold hourMs
  omega

theorem length_le_of_increasing {l : List ℤ} {a b : ℤ} (hlt : l.Pairwise (· < ·))
    (hin : ∀ k ∈ l, a ≤ k ∧ k ≤ b) : l.length ≤ (b + 1 - a).toNat := by
  have hnodup : l.Nodup := hlt.imp fun h => h.ne
  have hsub : l.toFinset ⊆ Finset.Icc a b := fun k hk =>
    Finset.mem_Icc.mpr (hin k (List.mem_toFinset.mp hk))
  have hcard := Finset.card_le_card hsub
  rwa [List.toFinset_card_of_nodup hnodup, Int.card_Icc] at hcard

theorem length_rowsOf_le (hhorizon : o.horizonEndUtc = o.signalTimeUtc + 72 * hourMs) :
    (rowsOf reports m o now).length ≤ 75 := by
  have hhour : ∀ row ∈ rowsOf reports m o now, ∃ hour, row.time = hour * hourMs ∧
      o.signalTimeUtc - 2 * hourMs ≤ hour * hourMs ∧ hour * hourMs ≤ o.horizonEndUtc := by
    intro row hrow
    obtain ⟨hour, ⟨-, hsince, hend⟩, hcandle⟩ := mem_rowsOf.mp hrow
    exact ⟨hour, candle_time reports hcandle, hsince, hend⟩
  have hlt : ((rowsOf reports m o now).map fun row => row.time / hourMs).Pairwise (· < ·) := by
    refine List.pairwise_map.mpr (pairwise_rowsOf.imp_of_mem fun {a b} ha hb hlt => ?_)
    obtain ⟨l, hl, -⟩ := hhour b hb
    rw [hl] at hlt ⊢
    unfold hourMs at hlt ⊢
    omega
  have hlength := @length_le_of_increasing _ ((o.signalTimeUtc + hourMs - 1) / hourMs - 2)
    ((o.signalTimeUtc + hourMs - 1) / hourMs + 72) hlt ?_
  · rw [List.length_map] at hlength
    omega
  · intro k hk
    obtain ⟨row, hrow, rfl⟩ := List.mem_map.mp hk
    obtain ⟨hour, htime, hsince, hend⟩ := hhour row hrow
    rw [htime]
    rw [hhorizon] at hend
    unfold hourMs at hsince hend ⊢
    omega

/-- **Rows that have ended**: if all bars up to a time have, two markets that agree so far give the
same rows up to it. -/
theorem rowsOf_congr (hlast : t % hourMs = hourMs - 1) (hagree : m.upTo t = m'.upTo t)
    (hnow : t ≤ now) (hnow' : t ≤ now') :
    (rowsOf reports m o now).filter (fun row => row.time ≤ t) =
      (rowsOf reports m' o now').filter (fun row => row.time ≤ t) := by
  have hsub : ∀ {m m' : Market} {now now' : ℤ}, m.upTo t = m'.upTo t → t ≤ now → t ≤ now' →
      ∀ row, row ∈ (rowsOf reports m o now).filter (fun row => row.time ≤ t) →
        row ∈ (rowsOf reports m' o now').filter (fun row => row.time ≤ t) := by
    intro m m' now now' hagree hnow hnow' row hrow
    obtain ⟨hmem, hle⟩ := List.mem_filter.mp hrow
    obtain ⟨hour, ⟨-, hrange⟩, hcandle⟩ := mem_rowsOf.mp hmem
    have hopen : hour * hourMs ≤ t := by
      rw [← candle_time reports hcandle]
      exact of_decide_eq_true hle
    have hended := ended_of_le (by decide) hlast hopen
    refine List.mem_filter.mpr ⟨mem_rowsOf.mpr ⟨hour, ⟨hopen.trans hnow', hrange⟩, ?_⟩, hle⟩
    rw [← candle_congr hended hagree hnow hnow']
    exact hcandle
  refine List.Pairwise.eq_of_mem_iff (pairwise_rowsOf.sublist List.filter_sublist)
    (pairwise_rowsOf.sublist List.filter_sublist) fun row => ?_
  exact ⟨hsub hagree hnow hnow' row, hsub hagree.symm hnow' hnow row⟩

/-! ## Prices as of a time -/

theorem asof_congr (h : df.filter (fun row => row.time ≤ t) = df'.filter fun row => row.time ≤ t) :
    asof df t = asof df' t := by
  rw [asof, asof, h]

theorem asof_filter {horizon : ℤ} (hle : t ≤ horizon) :
    asof (df.filter fun row => row.time ≤ horizon) t = asof df t := by
  rw [asof, List.filter_filter]
  refine congrArg (fun rows => rows.reverse.findSome? close) (List.filter_congr fun row _ => ?_)
  rw [Bool.eq_iff_iff, Bool.and_eq_true, decide_eq_true_eq, decide_eq_true_eq]
  exact ⟨And.left, fun hrow => ⟨hrow, hrow.trans hle⟩⟩

/-- **A look-up** gives the close of the last bar that opens up to its time. -/
theorem asof_eq {price : ℚ} (hsorted : df.Pairwise fun a b => a.time < b.time) (hmem : row ∈ df)
    (hle : row.time ≤ t) (hlast : ∀ other ∈ df, other.time ≤ t → other.time ≤ row.time)
    (hclose : close row = some price) : asof df t = some price := by
  obtain ⟨front, back, rfl⟩ := List.append_of_mem hmem
  have hback : back.filter (fun row => row.time ≤ t) = [] := by
    refine List.filter_eq_nil_iff.mpr fun other hother hdec => ?_
    have hlt := (List.pairwise_cons.mp (List.pairwise_append.mp hsorted).2.1).1 other hother
    have hle := hlast other (List.mem_append_right _ (List.mem_cons_of_mem _ hother))
      (of_decide_eq_true hdec)
    omega
  have hrow : (row :: back).filter (fun row => row.time ≤ t) = [row] := by
    rw [List.filter_cons_of_pos, hback]
    exact decide_eq_true hle
  rw [asof, List.filter_append, hrow, List.reverse_append, List.reverse_singleton,
    List.singleton_append, List.findSome?_cons, hclose]

theorem closes_of_getLast? {p : ℤ × Deal}
    (hlast : (m.members hourMs hour now).getLast? = some p) :
    ∃ row, candle reports m now hour = some row ∧ close row = some p.2.price := by
  rw [candle]
  have hmap := List.getLast?_map (f := Prod.snd) (l := m.members hourMs hour now)
  rw [hlast] at hmap
  generalize (m.members hourMs hour now).map Prod.snd = deals at hmap
  cases deals with
  | nil => exact absurd hmap (by simp)
  | cons first rest =>
    have hend : (first :: rest).getLast (List.cons_ne_nil _ _) = p.2 :=
      Option.some.inj ((List.getLast?_eq_some_getLast _).symm.trans hmap)
    refine ⟨_, rfl, ?_⟩
    show some ((first :: rest).getLast (List.cons_ne_nil _ _)).price = _
    rw [hend]

/-- **The price as of a time** is that of the last trade of its hour, be it later than the time. -/
theorem asof_rowsOf {p : ℤ × Deal} (hsince : o.signalTimeUtc ≤ t) (hend : t ≤ o.horizonEndUtc)
    (hnow : t ≤ now) (hlast : (m.members hourMs (t / hourMs) now).getLast? = some p) :
    asof (rowsOf reports m o now) t = some p.2.price := by
  obtain ⟨row, hrow, hclose⟩ := @closes_of_getLast? reports _ _ _ _ hlast
  have htime := candle_time reports hrow
  have hopen := div_mul_le (show 0 < hourMs by decide) t
  have hlt := lt_div_add_one_mul (show 0 < hourMs by decide) t
  refine asof_eq pairwise_rowsOf (mem_rowsOf.mpr ⟨t / hourMs, ⟨?_, ?_, ?_⟩, hrow⟩) ?_ ?_ hclose
  · exact hopen.trans hnow
  · unfold hourMs at hlt ⊢
    omega
  · exact hopen.trans hend
  · rw [htime]
    exact hopen
  · intro other hother hle
    obtain ⟨hour, -, hcandle⟩ := mem_rowsOf.mp hother
    rw [candle_time reports hcandle] at hle ⊢
    rw [htime]
    unfold hourMs at hle ⊢
    omega

end

/-! ## Backfills -/

/-- A backfill that comes across a forecast, with others before and behind it: it is due, and what
is fetched for it is what an exchange has of its market at that time. -/
structure Backfill (reports : ℤ → Bool) (m : Market) (o : ShadowOutcome) where
  now : ℤ
  before : List ShadowOutcome
  behind : List ShadowOutcome
  wasEntered : ℕ → Bool
  fetched : ShadowOutcome → Option (List OhlcvRow)
  exchange : OhlcvRange.Exchange
  fuel : ℕ
  due : o.horizonEndUtc ≤ now
  serves : (candlesAt reports m now).Serves exchange
  enough : (candlesAt reports m now).candles.length < fuel
  fetched_eq : fetched o = fetchOhlcvRange exchange (backfillRange o) fuel

namespace Backfill

variable {reports : ℤ → Bool} {m : Market} {o : ShadowOutcome}

/-- The move that a backfill stores for the forecast. -/
def stored (b : Backfill reports m o) : Option ℚ :=
  (backfillDue b.now b.fetched b.wasEntered (b.before ++ o :: b.behind) {}).1[b.before.length]?.bind
    ShadowOutcome.realizedMovePct

/-- The entry price that a backfill uses for the forecast. -/
def entry (b : Backfill reports m o) : Option ℚ :=
  (b.fetched o).bind fun df => entryPrice df o.signalTimeUtc o.horizonEndUtc

/-- A backfill of the forecast alone. -/
def alone (reports : ℤ → Bool) (m : Market) (o : ShadowOutcome) (now : ℤ)
    (hdue : o.horizonEndUtc ≤ now) : Backfill reports m o where
  now := now
  before := []
  behind := []
  wasEntered := fun _ => false
  fetched := fun row => fetchOhlcvRange (candlesAt reports m now).onePerCall (backfillRange row)
    ((candlesAt reports m now).candles.length + 1)
  exchange := (candlesAt reports m now).onePerCall
  fuel := (candlesAt reports m now).candles.length + 1
  due := hdue
  serves := serves_onePerCall _
  enough := Nat.lt_succ_self _
  fetched_eq := rfl

theorem fetched_rows (b : Backfill reports m o)
    (hhorizon : o.horizonEndUtc = o.signalTimeUtc + 72 * hourMs) :
    b.fetched o = some (rowsOf reports m o b.now) := by
  have hlength : (rowsOf reports m o b.now).length ≤ 200 :=
    (length_rowsOf_le hhorizon).trans (by decide)
  rw [b.fetched_eq, fetchOhlcvRange_eq _ _ b.serves _ _ b.enough]
  exact congrArg some (List.take_of_length_le hlength)

theorem entry_eq (b : Backfill reports m o)
    (hhorizon : o.horizonEndUtc = o.signalTimeUtc + 72 * hourMs) :
    b.entry = asof (rowsOf reports m o b.now) o.signalTimeUtc := by
  have hle := (signal_lt_horizon hhorizon).le
  rw [entry, b.fetched_rows hhorizon, Option.bind_some, entryPrice, asof_filter hle]

end Backfill

theorem getElem?_backfillDue {now : ℤ} {fetched : ShadowOutcome → Option (List OhlcvRow)}
    {wasEntered : ℕ → Bool} {before behind : List ShadowOutcome} {o : ShadowOutcome}
    {stats : BackfillStats} (hopen : o.realizedMovePct = none) (hdue : o.horizonEndUtc ≤ now) :
    (backfillDue now fetched wasEntered (before ++ o :: behind) stats).1[before.length]?.bind
      ShadowOutcome.realizedMovePct =
      (fetched o).bind fun df => computeRealizedMovePct df o.signalTimeUtc o.horizonEndUtc := by
  induction before generalizing stats with
  | nil =>
    rw [List.nil_append, backfillDue, if_pos ⟨hopen, hdue⟩]
    show (backfillRow _ _ _ _).1.realizedMovePct = _
    cases fetched o with
    | none => exact hopen
    | some df =>
      rw [Option.bind_some, backfillRow]
      cases computeRealizedMovePct df o.signalTimeUtc o.horizonEndUtc with
      | none => exact hopen
      | some move => rfl
  | cons row before ih =>
    rw [List.cons_append, backfillDue]
    split
    · exact ih
    · exact ih

theorem Backfill.stored_eq {reports : ℤ → Bool} {m : Market} {o : ShadowOutcome}
    (b : Backfill reports m o) (hopen : o.realizedMovePct = none)
    (hhorizon : o.horizonEndUtc = o.signalTimeUtc + 72 * hourMs) :
    b.stored = (asof (rowsOf reports m o b.now) o.signalTimeUtc).bind fun entry =>
      (asof (rowsOf reports m o b.now) o.horizonEndUtc).bind fun exit =>
        if entry ≤ 0 then none else some ((exit - entry) / entry * 100) := by
  have hle := (signal_lt_horizon hhorizon).le
  rw [stored, getElem?_backfillDue hopen b.due, b.fetched_rows hhorizon, Option.bind_some,
    computeRealizedMovePct, entryPrice, exitPrice, asof_filter hle, asof_filter le_rfl]

/-! ## Looking ahead -/

/-- A backfill does not look ahead: markets that agree up to the end of the horizon give the same
move, whenever it is filled in, and those that agree up to the signal the same entry price. -/
structure NoLookAhead (reports : ℤ → Bool) (o : ShadowOutcome) : Prop where
  settled : ∀ {m m' : Market}, m.upTo o.horizonEndUtc = m'.upTo o.horizonEndUtc →
    ∀ (b : Backfill reports m o) (b' : Backfill reports m' o), b.stored = b'.stored
  known : ∀ {m m' : Market}, m.upTo o.signalTimeUtc = m'.upTo o.signalTimeUtc →
    ∀ (b : Backfill reports m o) (b' : Backfill reports m' o), b.entry = b'.entry

section

variable {reports : ℤ → Bool} {o : ShadowOutcome}
  (hhorizon : o.horizonEndUtc = o.signalTimeUtc + 72 * hourMs)

include hhorizon

/-- At the last instant of an hour the bar of the signal has ended. -/
theorem known_of_lastInstant (hlast : o.signalTimeUtc % hourMs = hourMs - 1) {m m' : Market}
    (hagree : m.upTo o.signalTimeUtc = m'.upTo o.signalTimeUtc) (b : Backfill reports m o)
    (b' : Backfill reports m' o) : b.entry = b'.entry := by
  have hle := (signal_lt_horizon hhorizon).le
  rw [b.entry_eq hhorizon, b'.entry_eq hhorizon]
  exact asof_congr (rowsOf_congr hlast hagree (hle.trans b.due) (hle.trans b'.due))

/-- So has that of the end of the horizon, and all before it. -/
theorem settled_of_lastInstant (hopen : o.realizedMovePct = none)
    (hlast : o.signalTimeUtc % hourMs = hourMs - 1) {m m' : Market}
    (hagree : m.upTo o.horizonEndUtc = m'.upTo o.horizonEndUtc) (b : Backfill reports m o)
    (b' : Backfill reports m' o) : b.stored = b'.stored := by
  have hend : o.horizonEndUtc % hourMs = hourMs - 1 := by
    rw [hhorizon, Int.add_mul_emod_self_right, hlast]
  have hle := (signal_lt_horizon hhorizon).le
  have hrows := @rowsOf_congr reports m m' b.now b'.now o.horizonEndUtc o hend hagree b.due b'.due
  have hentry : asof (rowsOf reports m o b.now) o.signalTimeUtc =
      asof (rowsOf reports m' o b'.now) o.signalTimeUtc := by
    rw [← asof_filter hle, hrows, asof_filter hle]
  rw [b.stored_eq hopen hhorizon, b'.stored_eq hopen hhorizon, hentry, asof_congr hrows]

/-- **The move behind the horizon**: unless the signal is at the last instant of an hour, a single
print right behind the horizon decides the move that is stored. -/
theorem exists_move_ne (hopen : o.realizedMovePct = none)
    (hlast : o.signalTimeUtc % hourMs ≠ hourMs - 1) :
    ∃ (m m' : Market) (b : Backfill reports m o) (b' : Backfill reports m' o),
      m.upTo o.horizonEndUtc = m'.upTo o.horizonEndUtc ∧ b.stored = some 0 ∧
        b'.stored = some 100 := by
  have hhour : (0 : ℤ) < hourMs := by decide
  have hend : ¬ Ended hourMs (o.horizonEndUtc / hourMs) o.horizonEndUtc := by
    rw [ended_iff hhour, hhorizon, Int.add_mul_emod_self_right]
    exact hlast
  have hlate : o.signalTimeUtc ≤ o.horizonEndUtc ∧
      Ended hourMs (o.signalTimeUtc / hourMs) o.horizonEndUtc := by
    unfold Ended hourMs at *
    omega
  let start : Market := ⟨[(o.signalTimeUtc, ⟨1, 1⟩)], List.pairwise_singleton _ _⟩
  have hstored : ∀ price : ℚ,
      (Backfill.alone reports (start.extend o.horizonEndUtc ⟨price, 1⟩) o (o.horizonEndUtc + 1)
        (by omega)).stored = some ((price - 1) / 1 * 100) := by
    intro price
    have hsignal : ((start.extend o.horizonEndUtc ⟨price, 1⟩).members hourMs
        (o.signalTimeUtc / hourMs) (o.horizonEndUtc + 1)).getLast? =
        some (o.signalTimeUtc, ⟨1, 1⟩) := by
      have hin : o.signalTimeUtc / hourMs * hourMs ≤ o.signalTimeUtc ∧
          o.signalTimeUtc < (o.signalTimeUtc / hourMs + 1) * hourMs ∧
          o.signalTimeUtc ≤ o.horizonEndUtc + 1 :=
        ⟨div_mul_le hhour _, lt_div_add_one_mul hhour _, by omega⟩
      rw [members_extend hlate.2 (by omega), Tape.members, List.filter_cons_of_pos]
      · rfl
      · exact decide_eq_true hin
    have hexit := @getLast?_members_extend _ hourMs (o.horizonEndUtc / hourMs) o.horizonEndUtc
      (o.horizonEndUtc + 1) start ⟨price, 1⟩ ((div_mul_le hhour _).trans (by omega))
      (by unfold Ended at hend; omega) le_rfl
    rw [Backfill.stored_eq _ hopen hhorizon,
      asof_rowsOf le_rfl hlate.1 (hlate.1.trans (Backfill.due _)) hsignal,
      asof_rowsOf hlate.1 le_rfl (Backfill.due _) hexit, Option.bind_some, Option.bind_some]
    exact if_neg (by norm_num)
  refine ⟨_, _, _, _, upTo_extend.trans upTo_extend.symm, (hstored 1).trans ?_,
    (hstored 2).trans ?_⟩
  · norm_num
  · norm_num

/-- **The price behind the signal**: unless the signal is at the last instant of an hour, a single
print right behind it decides the entry price. -/
theorem exists_entry_ne (hlast : o.signalTimeUtc % hourMs ≠ hourMs - 1) :
    ∃ (m m' : Market) (b : Backfill reports m o) (b' : Backfill reports m' o),
      m.upTo o.signalTimeUtc = m'.upTo o.signalTimeUtc ∧ b.entry = some 1 ∧ b'.entry = some 2 := by
  have hhour : (0 : ℤ) < hourMs := by decide
  have hnot : ¬ Ended hourMs (o.signalTimeUtc / hourMs) o.signalTimeUtc := by
    rw [ended_iff hhour]
    exact hlast
  have hlate := signal_lt_horizon hhorizon
  let start : Market := ⟨[], List.Pairwise.nil⟩
  have hentry : ∀ price : ℚ,
      (Backfill.alone reports (start.extend o.signalTimeUtc ⟨price, 1⟩) o o.horizonEndUtc
        le_rfl).entry = some price := by
    intro price
    have hexit := @getLast?_members_extend _ hourMs (o.signalTimeUtc / hourMs) o.signalTimeUtc
      o.horizonEndUtc start ⟨price, 1⟩ ((div_mul_le hhour _).trans (by omega))
      (by unfold Ended at hnot; omega) hlate
    rw [Backfill.entry_eq _ hhorizon]
    exact asof_rowsOf le_rfl hlate.le hlate.le hexit
  exact ⟨_, _, _, _, upTo_extend.trans upTo_extend.symm, hentry 1, hentry 2⟩

end

/-- **Looking ahead**: a backfill does not look ahead exactly for the signals at the last instant of
an hour. -/
theorem noLookAhead_backfill_iff (reports : ℤ → Bool) (historyId : ℕ) (symbol : String)
    (coreCompletedAt : Option ℤ) (createdAt : ℤ) :
    NoLookAhead reports (recordCandidate historyId symbol coreCompletedAt createdAt) ↔
      coreCompletedAt.getD createdAt % hourMs = hourMs - 1 := by
  constructor
  · intro hno
    by_contra hlast
    obtain ⟨m, m', b, b', hagree, hentry, hentry'⟩ :=
      @exists_entry_ne reports (recordCandidate historyId symbol coreCompletedAt createdAt) rfl
        hlast
    have hsame := hno.known hagree b b'
    rw [hentry, hentry'] at hsame
    exact absurd hsame (by decide)
  · intro hlast
    exact ⟨settled_of_lastInstant rfl rfl hlast, known_of_lastInstant rfl hlast⟩

/-- A forecast at half past an hour looks ahead: with one print behind its horizon the move that is
stored is 0 or 100 percent. -/
theorem not_noLookAhead_halfPast :
    ¬ NoLookAhead (fun _ => true) (recordCandidate 1 "BTC/USDT" none 1800000) := by
  intro hno
  obtain ⟨m, m', b, b', hagree, hstored, hstored'⟩ := @exists_move_ne (fun _ => true)
    (recordCandidate 1 "BTC/USDT" none 1800000) rfl rfl (by decide)
  have hsame := hno.settled hagree b b'
  rw [hstored, hstored'] at hsame
  exact absurd hsame (by decide)

end Shadow

end AdviserConstructor
