import AdviserConstructor.Backtest.AtrAccounting
import AdviserConstructor.Backtest.GridCash
import AdviserConstructor.Backtest.IntradayMomentum
import AdviserConstructor.Backtest.KnifeCatcher
import AdviserConstructor.Backtest.VwapSchedule

/-!
# The prices of simulated fills

Whether the price at which an engine fills was to be had on the bar of the fill: who buys pays at
least the low of the bar, and who sells gets at most its high.

Entries are made at an open, at a close, or at a limit that the bar reaches, and targets are limits
that the bar reaches as well.  A stop, however, is filled at its own price once the bar is at or
beyond it.  If the whole bar is beyond it, the price of the stop was never traded on that bar, and
the trade has lost less than it could have.  The grid bot has no stops.

* `bracketPrice` is the price at which a position with a stop and a target is closed by a bar, by
  which the exits of three engines are described; `attainable_bracket_iff` says when it is
  attainable.
* `trades_knifeCatcherBacktest`, `trades_intradayMomentumBacktest`, `trades_gridBotBacktest`: the
  trades of an engine are its closings.
* `fillsAttainable_iff`: for every engine, when all fills are attainable.
-/

namespace AdviserConstructor

namespace Backtest

open JumpLoop LoopTurns

/-! ## Fills -/

/-- A fill, on the bar that it is recorded on. -/
structure Fill where
  bar : Bar
  buys : Bool
  price : ℚ

/-- The price is not better than every price of the bar. -/
def Fill.Attainable (f : Fill) : Prop :=
  if f.buys then f.bar.low ≤ f.price else f.price ≤ f.bar.high

def FillsAttainable (fills : List Fill) : Prop := ∀ f ∈ fills, f.Attainable

def entryFill (side : Side) (bar : Bar) (price : ℚ) : Fill :=
  match side with
  | .long => ⟨bar, true, price⟩
  | .short => ⟨bar, false, price⟩

def exitFill (side : Side) (bar : Bar) (price : ℚ) : Fill :=
  match side with
  | .long => ⟨bar, false, price⟩
  | .short => ⟨bar, true, price⟩

/-- The bar lies beyond the stop as a whole. -/
def GapsBeyond (side : Side) (sl : ℚ) (bar : Bar) : Prop :=
  match side with
  | .long => bar.high < sl
  | .short => sl < bar.low

instance (side : Side) (sl : ℚ) (bar : Bar) : Decidable (GapsBeyond side sl bar) :=
  match side with
  | .long => inferInstanceAs (Decidable (bar.high < sl))
  | .short => inferInstanceAs (Decidable (sl < bar.low))

/-- The price at which a bar closes a position with a stop and a target: the stop is looked at
first. -/
def bracketPrice (side : Side) (sl tp : ℚ) (bar : Bar) : Option ℚ :=
  match side with
  | .long => if bar.low ≤ sl then some sl else if tp ≤ bar.high then some tp else none
  | .short => if sl ≤ bar.high then some sl else if bar.low ≤ tp then some tp else none

theorem wellFormed_bar {df : Frame} (h : df.WellFormed) (i : ℕ) : (df.bar i).WellFormed := by
  by_cases hi : i < df.length
  · exact h _ (Frame.bar_mem hi)
  · rw [Frame.bar, List.getD_eq_getElem?_getD, List.getElem?_eq_none (not_lt.mp hi)]
    exact ⟨le_rfl, le_rfl, le_rfl, le_rfl⟩

section

variable {side : Side} {bar : Bar} {sl tp price : ℚ}

theorem fillsAttainable_nil : FillsAttainable [] := fun _ hf => absurd hf List.not_mem_nil

theorem fillsAttainable_append {fills fills' : List Fill} :
    FillsAttainable (fills ++ fills') ↔ FillsAttainable fills ∧ FillsAttainable fills' :=
  List.forall_mem_append

theorem fillsAttainable_flatMap {α : Type*} {items : List α} {fillsOn : α → List Fill}
    {Safe : α → Prop} (h : ∀ v ∈ items, (FillsAttainable (fillsOn v) ↔ Safe v)) :
    FillsAttainable (items.flatMap fillsOn) ↔ ∀ v ∈ items, Safe v := by
  constructor
  · intro hall v hv
    exact (h v hv).mp fun f hf => hall f (List.mem_flatMap.mpr ⟨v, hv, hf⟩)
  · intro hall f hf
    obtain ⟨v, hv, hf⟩ := List.mem_flatMap.mp hf
    exact (h v hv).mpr (hall v hv) f hf

theorem Bar.WellFormed.low_le_high (h : bar.WellFormed) : bar.low ≤ bar.high :=
  h.low_le_open.trans h.open_le_high

theorem attainable_entryFill (hlow : bar.low ≤ price) (hhigh : price ≤ bar.high) :
    (entryFill side bar price).Attainable := by
  cases side with
  | long => exact hlow
  | short => exact hhigh

theorem attainable_exitFill (hlow : bar.low ≤ price) (hhigh : price ≤ bar.high) :
    (exitFill side bar price).Attainable := by
  cases side with
  | long => exact hhigh
  | short => exact hlow

theorem attainable_stop : (exitFill side bar sl).Attainable ↔ ¬GapsBeyond side sl bar := by
  cases side with
  | long => exact not_lt.symm
  | short => exact not_lt.symm

theorem attainable_take (h : TouchesTarget side tp bar) : (exitFill side bar tp).Attainable := by
  cases side with
  | long => exact h
  | short => exact h

theorem bracketPrice_of_gapsBeyond (hbar : bar.WellFormed) (h : GapsBeyond side sl bar) :
    bracketPrice side sl tp bar = some sl := by
  cases side with
  | long => exact if_pos (hbar.low_le_high.trans (le_of_lt h))
  | short => exact if_pos ((le_of_lt h).trans hbar.low_le_high)

theorem bracketPrice_eq_some (h : bracketPrice side sl tp bar = some price) :
    price = sl ∨ (exitFill side bar price).Attainable := by
  cases side with
  | long =>
    simp only [bracketPrice] at h
    split_ifs at h with hstop htake
    · exact .inl (Option.some.inj h).symm
    · cases h
      exact .inr htake
  | short =>
    simp only [bracketPrice] at h
    split_ifs at h with hstop htake
    · exact .inl (Option.some.inj h).symm
    · cases h
      exact .inr htake

/-- **The exit of a position.**  However else a bar may close a position, at a price that is
attainable, the exit is attainable exactly if the bar does not lie beyond the stop. -/
theorem attainable_bracket_iff (hbar : bar.WellFormed) {other : Option ℚ}
    (hother : ∀ x, other = some x → (exitFill side bar x).Attainable) :
    (∀ x, (bracketPrice side sl tp bar).or other = some x → (exitFill side bar x).Attainable) ↔
      ¬GapsBeyond side sl bar := by
  constructor
  · intro h hgap
    have hstop := h sl (by rw [bracketPrice_of_gapsBeyond hbar hgap, Option.some_or])
    exact attainable_stop.mp hstop hgap
  · intro hgap x hx
    rcases Option.or_eq_some_iff.mp hx with hx | ⟨_, hx⟩
    · rcases bracketPrice_eq_some hx with rfl | htake
      · exact attainable_stop.mpr hgap
      · exact htake
    · exact hother x hx

end

/-! ## The VWAP builder -/

/-- The fills of the trades of the VWAP builder. -/
def vwapFills (df : Frame) (trades : List VwapTrade) : List Fill :=
  trades.flatMap fun t => [entryFill t.side (df.bar t.entryI) t.entry,
    exitFill t.side (df.bar t.exitI) t.exit]

/-- No bar up to which a trade is open, entered on bar `i`, lies beyond its stop. -/
def NoGapBehind (df : Frame) (e : Entry) (i : ℕ) : Prop :=
  ∀ j, i < j → j < df.length → exitBy df e i (j - 1) = none → ¬GapsBeyond e.side e.sl (df.bar j)

section

variable {df : Frame} {e : Entry} {i : ℕ}

theorem exitOn_price (j : ℕ) (bar : Bar) :
    (exitOn e j bar).map Exit.price = bracketPrice e.side e.sl e.tp bar := by
  cases hside : e.side with
  | long =>
    simp only [exitOn, hside, bracketPrice]
    split_ifs <;> rfl
  | short =>
    simp only [exitOn, hside, bracketPrice]
    split_ifs <;> rfl

theorem exitBy_of_none {j : ℕ} (hj : i < j) (h : exitBy df e i (j - 1) = none) :
    exitBy df e i j = exitOn e j (df.bar j) := by
  rw [exitBy] at h ⊢
  rw [show j - i = j - 1 - i + 1 by omega, List.range'_1_concat, List.findSome?_append, h,
    show i + 1 + (j - 1 - i) = j by omega, List.findSome?_cons]
  cases exitOn e j (df.bar j) with
  | none => rfl
  | some x => rfl

/-- **The exit of a trade** is attainable exactly if no bar up to it lies beyond its stop. -/
theorem attainable_exitFor_iff (hdf : df.WellFormed) (hi : i + 1 < df.length) :
    (exitFill e.side (df.bar (exitFor df e i).exitI) (exitFor df e i).price).Attainable ↔
      NoGapBehind df e i := by
  have hspec := @exitFor_spec df e i hi
  obtain ⟨hbehind, hlast⟩ := hspec.behind
  constructor
  · intro hattainable j hj hlt hopen hgap
    have hprice : (exitOn e j (df.bar j)).map Exit.price = some e.sl := by
      rw [exitOn_price, bracketPrice_of_gapsBeyond (wellFormed_bar hdf j) hgap]
    obtain ⟨x, hx, hxsl⟩ := Option.map_eq_some_iff.mp hprice
    have hexit : exitFor df e i = x :=
      exitFor_of_exitBy hlt ((exitBy_of_none hj hopen).trans hx)
    rw [hexit, (exitOn_exitI hx).1, hxsl] at hattainable
    exact attainable_stop.mp hattainable hgap
  · intro hgap
    have hopen : exitBy df e i ((exitFor df e i).exitI - 1) = none := by
      refine List.findSome?_eq_none_iff.mpr fun k hk => ?_
      rw [List.mem_range'_1] at hk
      exact exitOn_eq_none.mpr (hspec.untouched k (by omega) (by omega))
    have hgap := hgap _ hbehind hlast hopen
    cases hreason : (exitFor df e i).reason with
    | stop =>
      rw [hspec.price.1 hreason]
      exact attainable_stop.mpr hgap
    | take =>
      obtain ⟨_, htouch⟩ := hspec.take_iff.mp hreason
      rw [hspec.price.2 hreason]
      exact attainable_take htouch
    | openAtEnd =>
      obtain ⟨hindex, hclose⟩ := hspec.last hreason
      have hbar := wellFormed_bar hdf (df.length - 1)
      rw [hclose, hindex]
      exact attainable_exitFill hbar.low_le_close hbar.close_le_high

end

theorem vwapFills_iff {df : Frame} (hdf : df.WellFormed) (ind : Indicators)
    (enabled : List Indicator) (regime : Regime) (p : SimParams)
    (overlay : Option (List OverlayBar)) :
    FillsAttainable (vwapFills df (simulateTrades df ind enabled regime p overlay)) ↔
      ∀ i ∈ visits (simulateBody df ind enabled regime p overlay) (df.length - 2) df.length 0,
        ∀ e, entryAt df ind enabled p (activeRegime regime (overlayAt overlay i)) i = some e →
          NoGapBehind df e i := by
  have htrade : ∀ i e tags, i + 1 < df.length → e.entry = (df.bar i).close →
      (FillsAttainable [entryFill e.side (df.bar i) e.entry,
        exitFill e.side (df.bar (tradeOf df p i e tags).exitI) (tradeOf df p i e tags).exit] ↔
          NoGapBehind df e i) := by
    intro i e tags hi hclose
    have hbar := wellFormed_bar hdf i
    have hentry : (entryFill e.side (df.bar i) e.entry).Attainable := by
      rw [hclose]
      exact attainable_entryFill hbar.low_le_close hbar.close_le_high
    rw [FillsAttainable, List.forall_mem_cons, List.forall_mem_singleton]
    exact (and_iff_right hentry).trans (attainable_exitFor_iff hdf hi)
  constructor
  · intro hall i hi e he
    obtain ⟨_, hlt⟩ := visits_bounds hi
    obtain ⟨_, _, _, _, hclose, _⟩ := entryAt_spec he
    refine (htrade i e (aiTags regime (overlayAt overlay i)) (by omega) hclose).mp
      fun f hf => hall f ?_
    exact List.mem_flatMap.mpr
      ⟨_, mem_run_iff.mpr ⟨i, hi, item_simulateBody_eq_some.mpr ⟨e, he, rfl⟩⟩, hf⟩
  · intro hsafe f hf
    obtain ⟨t, ht, hf⟩ := List.mem_flatMap.mp hf
    obtain ⟨i, hi, hitem⟩ := mem_run_iff.mp ht
    obtain ⟨_, hlt⟩ := visits_bounds hi
    obtain ⟨e, he, rfl⟩ := item_simulateBody_eq_some.mp hitem
    obtain ⟨_, _, _, _, hclose, _⟩ := entryAt_spec he
    exact (htrade i e _ (by omega) hclose).mpr (hsafe i hi e he) f hf

/-! ## Engines whose loops hold one position -/

/-- What the knife catcher closes on bar `v.2`. -/
def knifeClosing (p : KnifeParams) (df : Frame) (v : KnifeState × ℕ) :
    List (OpenKnife × RowExit × ℚ) :=
  (v.1.position.bind fun pos => (knifeExit p.side pos (df.bar v.2)).map fun x => (pos, x)).toList

/-- What the intraday engine closes on bar `v.2`, which it skips unless the ATR is positive. -/
def intradayClosing (p : IntradayParams) (df : Frame) (atr : ℕ → Num) (v : IntradayState × ℕ) :
    List (IntradayPosition × RowExit × ℚ) :=
  match (atr v.2).filter (0 < ·), v.1.position with
  | some _, some pos => ((intradayExit p df pos v.2).map fun x => (pos, x)).toList
  | _, _ => []

/-- The turns of the loop of `knife_catcher_backtest`. -/
def knifeTurns (p : KnifeParams) (df : Frame) : List (KnifeState × ℕ) :=
  turns (knifeBar p df) {} (List.range (df.length - 1))

/-- The bar that the loop of `intraday_momentum_backtest` starts with. -/
def intradayStart (p : IntradayParams) : ℕ := max (max p.lookback p.atrPeriod) p.volSma + 2

/-- The turns of the loop of `intraday_momentum_backtest`. -/
def intradayTurns (p : IntradayParams) (df : Frame) (atr : ℕ → Num) : List (IntradayState × ℕ) :=
  turns (intradayBar p df atr) {}
    (List.range' (intradayStart p) (df.length - 1 - intradayStart p))

/-- The trades of the knife catcher are its closings. -/
theorem trades_knifeCatcherBacktest (p : KnifeParams) (df : Frame) :
    (knifeCatcherBacktest p df).trades = (knifeTurns p df).flatMap fun v =>
      (knifeClosing p df v).map fun c => knifeTrade p df c.1 v.2 c.2.1 c.2.2 := by
  refine @log_foldl _ _ _ (knifeBar p df) KnifeState.trades _ (fun st i => ?_) _ _
  rw [knifeBar, knifeClosing]
  cases hpos : st.position with
  | none =>
    dsimp only
    split <;> exact (List.append_nil _).symm
  | some pos =>
    dsimp only
    rw [Option.bind_some]
    cases hexit : knifeExit p.side pos (df.bar i) with
    | none => exact (List.append_nil _).symm
    | some x => rfl

/-- So are those of the intraday engine. -/
theorem trades_intradayMomentumBacktest (p : IntradayParams) (df : Frame) (atr : ℕ → Num) :
    (intradayMomentumBacktest p df atr).trades = (intradayTurns p df atr).flatMap fun v =>
      (intradayClosing p df atr v).map fun c => intradayTrade p df c.1 v.2 c.2.1 c.2.2 := by
  refine @log_foldl _ _ _ (intradayBar p df atr) IntradayState.trades _ (fun st i => ?_) _ _
  rw [intradayBar, intradayClosing]
  cases hatr : atr i with
  | none => exact (List.append_nil _).symm
  | some a =>
    dsimp only
    by_cases hpos : a ≤ 0
    · rw [if_pos hpos, Option.filter_some, if_neg (by simpa using hpos)]
      exact (List.append_nil _).symm
    · rw [if_neg hpos, Option.filter_some, if_pos (by simpa using hpos)]
      cases st.position with
      | none => exact (List.append_nil _).symm
      | some pos =>
        dsimp only
        cases intradayExit p df pos i with
        | none => exact (List.append_nil _).symm
        | some x => rfl

/-- The fills of the trades of the knife catcher. -/
def knifeFills (p : KnifeParams) (df : Frame) : List Fill :=
  (knifeTurns p df).flatMap fun v => (knifeClosing p df v).flatMap fun c =>
    [entryFill p.side (df.bar c.1.entryI) c.1.entry, exitFill p.side (df.bar v.2) c.2.2]

/-- The fills of the trades of the intraday engine. -/
def intradayFills (p : IntradayParams) (df : Frame) (atr : ℕ → Num) : List Fill :=
  (intradayTurns p df atr).flatMap fun v => (intradayClosing p df atr v).flatMap fun c =>
    [entryFill p.side (df.bar c.1.entryI) c.1.entry, exitFill p.side (df.bar v.2) c.2.2]

/-- The fills of the order-block engine: the entries of its trades, the stops, and the targets. -/
def atrFillsOn (df : Frame) (v : AtrObState × ℕ) : List Fill :=
  (atrClosing df v).map (fun c => entryFill .long (df.bar c.1.entryI) c.1.entry) ++
    match v.1.position with
    | none => []
    | some pos =>
        if (df.bar v.2).low ≤ pos.sl then [exitFill .long (df.bar v.2) pos.sl]
        else (pos.targets.filter (Target.isReached (df.bar v.2).high)).map fun t =>
          exitFill .long (df.bar v.2) t.take

/-- The fills of the order-block engine. -/
def atrFills (p : AtrObParams) (df : Frame) : List Fill :=
  (atrTurns p df).flatMap (atrFillsOn df)

theorem closingFills_iff {α : Type*} {side : Side} {bar : Bar} {pos : α} {entryBar : α → Bar}
    {entry : α → ℚ} {exit : Option (RowExit × ℚ)}
    (hentry : (entryFill side (entryBar pos) (entry pos)).Attainable) :
    FillsAttainable ((exit.map fun x => (pos, x)).toList.flatMap fun c =>
      [entryFill side (entryBar c.1) (entry c.1), exitFill side bar c.2.2]) ↔
      ∀ x, exit.map Prod.snd = some x → (exitFill side bar x).Attainable := by
  cases exit with
  | none => exact iff_of_true fillsAttainable_nil nofun
  | some x =>
    simp only [Option.map_some, Option.toList_some, List.flatMap_singleton, FillsAttainable,
      List.forall_mem_cons, List.not_mem_nil, false_imp_iff, forall_true_iff, and_true,
      Option.some.injEq, forall_eq', hentry, true_and]

section

variable {df : Frame} {i : ℕ} {p : KnifeParams}

theorem knifeExit_price (side : Side) (pos : OpenKnife) (bar : Bar) :
    (knifeExit side pos bar).map Prod.snd = bracketPrice side pos.sl pos.tp bar := by
  cases side with
  | long =>
    rw [knifeExit, bracketPrice]
    split_ifs <;> rfl
  | short =>
    rw [knifeExit, bracketPrice]
    split_ifs <;> rfl

theorem attainable_fillKnife {order : PendingKnife} {pos : OpenKnife}
    (h : fillKnife p (df.bar i) i order = some pos) :
    (entryFill p.side (df.bar pos.entryI) pos.entry).Attainable := by
  rw [fillKnife] at h
  split_ifs at h with hspans
  cases hside : p.side with
  | long =>
    rw [hside] at h
    cases h
    exact attainable_entryFill hspans.1 hspans.2
  | short =>
    rw [hside] at h
    cases h
    exact attainable_entryFill hspans.1 hspans.2

theorem attainable_knifeEntry (p : KnifeParams) (df : Frame) :
    ∀ st ∈ (List.range (df.length - 1)).scanl (knifeBar p df) {}, ∀ pos,
      st.position = some pos → (entryFill p.side (df.bar pos.entryI) pos.entry).Attainable := by
  refine forall_scanl_of_turns (fun pos hpos => by cases hpos) fun v _ hv pos hpos => ?_
  rw [knifeBar] at hpos
  cases hold : v.1.position with
  | some old =>
    rw [hold] at hpos
    dsimp only at hpos
    cases hexit : knifeExit p.side old (df.bar v.2) with
    | some x =>
      rw [hexit] at hpos
      cases hpos
    | none =>
      rw [hexit] at hpos
      exact hv pos hpos
  | none =>
    rw [hold] at hpos
    dsimp only at hpos
    split at hpos
    · next new hnew =>
      obtain ⟨order, _, hfill⟩ := Option.bind_eq_some_iff.mp hnew
      cases hpos
      exact attainable_fillKnife hfill
    · cases hpos

/-- **The fills of the knife catcher.** -/
theorem knifeFills_iff (hdf : df.WellFormed) (p : KnifeParams) :
    FillsAttainable (knifeFills p df) ↔ ∀ v ∈ knifeTurns p df, ∀ pos,
      v.1.position = some pos → ¬GapsBeyond p.side pos.sl (df.bar v.2) := by
  refine fillsAttainable_flatMap fun v hv => ?_
  rw [knifeClosing]
  cases hpos : v.1.position with
  | none => exact iff_of_true fillsAttainable_nil nofun
  | some pos =>
    have hentry := attainable_knifeEntry p df v.1 (mem_scanl_of_mem_turns hv) pos hpos
    have hexit := @attainable_bracket_iff p.side (df.bar v.2) pos.sl pos.tp
      (wellFormed_bar hdf v.2) none nofun
    rw [Option.or_none, ← knifeExit_price] at hexit
    simp only [Option.some.injEq, forall_eq', ← hexit]
    exact @closingFills_iff _ p.side (df.bar v.2) pos (fun pos => df.bar pos.entryI)
      OpenKnife.entry _ hentry

end

section

variable {df : Frame} {atr : ℕ → Num} {i : ℕ} {p : IntradayParams}

theorem intradayExit_price (pos : IntradayPosition) :
    (intradayExit p df pos i).map Prod.snd =
      (bracketPrice p.side pos.sl pos.tp (df.bar i)).or
        (if p.timeExitBars ≤ (i : ℤ) - pos.entryI then some (df.bar i).close else none) := by
  rw [intradayExit, Option.map_or]
  congr 1
  · cases p.side with
    | long =>
      rw [bracketPrice]
      split_ifs <;> rfl
    | short =>
      rw [bracketPrice]
      split_ifs <;> rfl
  · split_ifs <;> rfl

theorem intradayEntry_open {a : ℚ} {pos : IntradayPosition}
    (h : intradayEntry p df i a = some pos) : pos.entry = (df.bar pos.entryI).openPrice := by
  simp only [intradayEntry, Option.ite_none_right_eq_some] at h
  obtain ⟨_, h⟩ := h
  cases h
  rfl

theorem intradayPosition_open (p : IntradayParams) (df : Frame) (atr : ℕ → Num) :
    ∀ st ∈ (List.range' (intradayStart p) (df.length - 1 - intradayStart p)).scanl
      (intradayBar p df atr) {}, ∀ pos, st.position = some pos →
        pos.entry = (df.bar pos.entryI).openPrice := by
  refine forall_scanl_of_turns (fun pos hpos => by cases hpos) fun v _ hv pos hpos => ?_
  rw [intradayBar] at hpos
  cases hatr : atr v.2 with
  | none =>
    rw [hatr] at hpos
    exact hv pos hpos
  | some a =>
    rw [hatr] at hpos
    dsimp only at hpos
    by_cases ha : a ≤ 0
    · rw [if_pos ha] at hpos
      exact hv pos hpos
    · rw [if_neg ha] at hpos
      cases hold : v.1.position with
      | none =>
        rw [hold] at hpos
        exact intradayEntry_open hpos
      | some old =>
        rw [hold] at hpos
        dsimp only at hpos
        cases hexit : intradayExit p df old v.2 with
        | none =>
          rw [hexit] at hpos
          exact hv pos hpos
        | some x =>
          rw [hexit] at hpos
          cases hpos

/-- **The fills of the intraday engine.** -/
theorem intradayFills_iff (hdf : df.WellFormed) (p : IntradayParams) (atr : ℕ → Num) :
    FillsAttainable (intradayFills p df atr) ↔ ∀ v ∈ intradayTurns p df atr, ∀ a,
      atr v.2 = some a → 0 < a → ∀ pos, v.1.position = some pos →
        ¬GapsBeyond p.side pos.sl (df.bar v.2) := by
  refine fillsAttainable_flatMap fun v hv => ?_
  rw [intradayClosing]
  cases hatr : atr v.2 with
  | none => exact iff_of_true fillsAttainable_nil nofun
  | some a =>
    by_cases ha : 0 < a
    · rw [Option.filter_some, if_pos (decide_eq_true ha)]
      cases hpos : v.1.position with
      | none => exact iff_of_true fillsAttainable_nil nofun
      | some pos =>
        have hbar := wellFormed_bar hdf pos.entryI
        have hclose := wellFormed_bar hdf v.2
        have hentry : (entryFill p.side (df.bar pos.entryI) pos.entry).Attainable := by
          rw [intradayPosition_open p df atr v.1 (mem_scanl_of_mem_turns hv) pos hpos]
          exact attainable_entryFill hbar.low_le_open hbar.open_le_high
        have hexit := @attainable_bracket_iff p.side (df.bar v.2) pos.sl pos.tp hclose
          (if p.timeExitBars ≤ (v.2 : ℤ) - pos.entryI then some (df.bar v.2).close else none)
          fun x hx => by
            obtain ⟨_, hx⟩ := Option.ite_none_right_eq_some.mp hx
            cases hx
            exact attainable_exitFill hclose.low_le_close hclose.close_le_high
        rw [← intradayExit_price] at hexit
        simp only [Option.some.injEq, forall_eq', ha, forall_true_left, ← hexit]
        exact @closingFills_iff _ p.side (df.bar v.2) pos (fun pos => df.bar pos.entryI)
          IntradayPosition.entry _ hentry
    · rw [Option.filter_some, if_neg (by simpa using ha)]
      refine iff_of_true fillsAttainable_nil fun b hb hpos => ?_
      cases hb
      exact absurd hpos ha

end

/-! ## The order-block engine -/

section

variable {df : Frame} {i : ℕ} {p : AtrObParams}

theorem entryRule_open {x : BullBlock × AtrPosition} (h : entryRule p df i = some x) :
    x.2.entry = (df.bar x.2.entryI).openPrice := by
  rw [entryRule] at h
  split at h
  · obtain ⟨_, h⟩ := Option.ite_none_right_eq_some.mp h
    cases h
    rfl
  · cases h

theorem atrPosition_open (p : AtrObParams) (df : Frame) :
    ∀ st ∈ (List.range' 1 (df.length - 1)).scanl (atrObBar p df) {}, ∀ pos,
      st.position = some pos → pos.entry = (df.bar pos.entryI).openPrice := by
  refine forall_scanl_of_turns (fun pos hpos => by cases hpos) fun v _ hv pos hpos => ?_
  rw [atrObBar] at hpos
  cases hold : v.1.position with
  | none =>
    rw [hold] at hpos
    cases hrule : entryRule p df v.2 with
    | none =>
      rw [hrule] at hpos
      exact hv pos hpos
    | some x =>
      rw [hrule] at hpos
      dsimp only at hpos
      split at hpos
      · exact hv pos hpos
      · cases hpos
        exact entryRule_open hrule
  | some old =>
    rw [hold] at hpos
    dsimp only at hpos
    have hopen := hv old hold
    split at hpos
    · cases hpos
    · split at hpos
      · cases hpos
      · cases hpos
        exact hopen

/-- **The fills of the order-block engine.** -/
theorem atrFills_iff (hdf : df.WellFormed) (p : AtrObParams) :
    FillsAttainable (atrFills p df) ↔ ∀ v ∈ atrTurns p df, ∀ pos,
      v.1.position = some pos → ¬GapsBeyond .long pos.sl (df.bar v.2) := by
  refine fillsAttainable_flatMap fun v hv => ?_
  rw [atrFillsOn, atrClosing, fillsAttainable_append]
  cases hpos : v.1.position with
  | none =>
    exact iff_of_true ⟨fillsAttainable_nil, fillsAttainable_nil⟩ fun _ h => absurd h (by simp)
  | some pos =>
    have hbar := wellFormed_bar hdf pos.entryI
    have hentry : (entryFill .long (df.bar pos.entryI) pos.entry).Attainable := by
      rw [atrPosition_open p df v.1 (mem_scanl_of_mem_turns hv) pos hpos]
      exact attainable_entryFill hbar.low_le_open hbar.open_le_high
    simp only [Option.some.injEq, forall_eq']
    by_cases hlow : (df.bar v.2).low ≤ pos.sl
    · rw [if_pos hlow, if_pos hlow, FillsAttainable, FillsAttainable, List.map_singleton,
        List.forall_mem_singleton, List.forall_mem_singleton]
      exact (and_iff_right hentry).trans attainable_stop
    · rw [if_neg hlow, if_neg hlow]
      have hgap : ¬GapsBeyond .long pos.sl (df.bar v.2) := fun hgap =>
        hlow ((wellFormed_bar hdf v.2).low_le_high.trans hgap.le)
      refine iff_of_true ⟨?_, fun f hf => ?_⟩ hgap
      · split_ifs
        · exact List.forall_mem_singleton.mpr hentry
        · exact fillsAttainable_nil
      · obtain ⟨t, ht, rfl⟩ := List.mem_map.mp hf
        have hreached := (List.mem_filter.mp ht).2
        rw [Target.isReached, Bool.and_eq_true, decide_eq_true_eq] at hreached
        exact hreached.2

end

/-! ## The grid bot -/

/-- The positions that are bought on bar `i`. -/
def gridBought (p : GridParams) (df : Frame) (center : ℚ) (st : GridState) (i : ℕ) :
    List GridPosition :=
  (gridFilled p df center st i).positions.drop st.positions.length

/-- The fills of the grid bot on bar `v.2`. -/
def gridFillsOn (p : GridParams) (df : Frame) (v : GridState × ℕ) : List Fill :=
  match gridCenter p df v.2 with
  | none => []
  | some center =>
      (gridBought p df center v.1 v.2).map (fun pos => entryFill .long (df.bar v.2) pos.entry) ++
        (gridTaken p df center v.1 v.2).map fun pos =>
          exitFill .long (df.bar v.2) (takePrice p pos)

def gridFills (p : GridParams) (df : Frame) : List Fill :=
  (turns (gridBar p df) (gridStart p) (gridBars p df)).flatMap (gridFillsOn p df) ++
    (gridLeft p df).map fun _ =>
      exitFill .long (df.bar (df.length - 1)) (df.bar (df.length - 1)).close

section

variable {p : GridParams} {df : Frame} {i : ℕ} {center : ℚ}

theorem trades_foldl_close (price : GridPosition → ℚ) (time : ℤ) (reason : RowExit)
    (positions : List GridPosition) (st : GridState) :
    (positions.foldl (fun s pos => s.close p pos (price pos) time reason) st).trades =
      st.trades ++ positions.map fun pos => gridTrade p pos (price pos) time reason := by
  induction positions generalizing st with
  | nil => exact (List.append_nil _).symm
  | cons pos positions ih =>
    rw [List.foldl_cons, ih]
    exact List.append_assoc _ [_] _

theorem trades_gridBar {st : GridState} :
    (gridBar p df st i).trades = st.trades ++
      (gridCenter p df i).toList.flatMap fun center =>
        (gridTaken p df center st i).map fun pos =>
          gridTrade p pos (takePrice p pos) (df.bar i).time .gridTp := by
  cases hcenter : gridCenter p df i with
  | none =>
    rw [gridBar_of_none hcenter]
    exact (List.append_nil _).symm
  | some center =>
    obtain ⟨hmean, hpos⟩ := Option.filter_eq_some_iff.mp hcenter
    have htaken := trades_foldl_close (p := p) (takePrice p) (df.bar i).time .gridTp
      (gridTaken p df center st i) (gridFilled p df center st i)
    rw [gridFilled, trades_fillLevels] at htaken
    rw [gridBar, hmean, Option.toList_some, List.flatMap_singleton, ← htaken]
    dsimp only
    rw [if_neg (not_le.mpr (of_decide_eq_true hpos))]
    rfl

/-- The trades of the grid bot are the positions that it takes off, and those that are closed at the
end of the data. -/
theorem trades_gridBotBacktest (p : GridParams) (df : Frame) :
    (gridBotBacktest p df).trades =
      ((turns (gridBar p df) (gridStart p) (gridBars p df)).flatMap fun v =>
        (gridCenter p df v.2).toList.flatMap fun center =>
          (gridTaken p df center v.1 v.2).map fun pos =>
            gridTrade p pos (takePrice p pos) (df.bar v.2).time .gridTp) ++
        (gridLeft p df).map fun pos => gridTrade p pos (df.bar (df.length - 1)).close
          (df.bar (df.length - 1)).time .eodClose := by
  have hbars := @log_foldl _ _ _ (gridBar p df) GridState.trades
    (fun v => (gridCenter p df v.2).toList.flatMap fun center =>
      (gridTaken p df center v.1 v.2).map fun pos =>
        gridTrade p pos (takePrice p pos) (df.bar v.2).time .gridTp)
    (fun st i => trades_gridBar) (gridStart p) (gridBars p df)
  have hstart : (gridStart p).trades = [] := rfl
  rw [hstart, List.nil_append] at hbars
  rw [← hbars, gridBotBacktest, closeEod, gridLeft]
  split_ifs
  · exact trades_foldl_close (fun _ => (df.bar (df.length - 1)).close) _ _ _ _
  · exact (List.append_nil _).symm

theorem positions_fillLevel (bar : Bar) (st : GridState) (level : ℕ) :
    ∃ bought, (fillLevel p bar center st level).positions = st.positions ++ bought ∧
      ∀ pos ∈ bought, bar.low ≤ pos.entry ∧ pos.qty = p.perOrderUsdt / pos.entry := by
  rcases fillLevel_cases bar center st level with ⟨⟨hreach, -⟩, heq⟩ | ⟨-, heq⟩
  · rw [heq]
    exact ⟨[_], rfl, List.forall_mem_singleton.mpr ⟨hreach.2, rfl⟩⟩
  · rw [heq]
    exact ⟨[], (List.append_nil _).symm, fun _ hpos => absurd hpos List.not_mem_nil⟩

theorem positions_foldl_fillLevel (bar : Bar) (levels : List ℕ) (st : GridState) :
    ∃ bought, (levels.foldl (fillLevel p bar center) st).positions = st.positions ++ bought ∧
      ∀ pos ∈ bought, bar.low ≤ pos.entry ∧ pos.qty = p.perOrderUsdt / pos.entry := by
  induction levels generalizing st with
  | nil => exact ⟨[], (List.append_nil _).symm, fun _ hpos => absurd hpos List.not_mem_nil⟩
  | cons level levels ih =>
    obtain ⟨bought, hpositions, hbought⟩ := ih (fillLevel p bar center st level)
    obtain ⟨first, hfirst, hlow⟩ := positions_fillLevel bar st level
    refine ⟨first ++ bought, ?_, fun pos hpos => ?_⟩
    · rw [List.foldl_cons, hpositions, hfirst, List.append_assoc]
    · exact (List.mem_append.mp hpos).elim (hlow pos) (hbought pos)

theorem of_mem_gridBought {st : GridState} {pos : GridPosition}
    (h : pos ∈ gridBought p df center st i) :
    (df.bar i).low ≤ pos.entry ∧ pos.qty = p.perOrderUsdt / pos.entry := by
  obtain ⟨bought, hpositions, hbought⟩ :=
    @positions_foldl_fillLevel p center (df.bar i) (gridLevels p) st
  rw [gridBought, gridFilled, hpositions, List.drop_left] at h
  exact hbought pos h

/-- **The fills of the grid bot** are attainable. -/
theorem fillsAttainable_gridFills (hdf : df.WellFormed) (p : GridParams) :
    FillsAttainable (gridFills p df) := by
  refine fillsAttainable_append.mpr ⟨fun f hf => ?_, fun f hf => ?_⟩
  · obtain ⟨v, _, hf⟩ := List.mem_flatMap.mp hf
    rw [gridFillsOn] at hf
    cases hcenter : gridCenter p df v.2 with
    | none =>
      rw [hcenter] at hf
      cases hf
    | some center =>
      rw [hcenter] at hf
      rcases List.mem_append.mp hf with hf | hf
      · obtain ⟨pos, hpos, rfl⟩ := List.mem_map.mp hf
        exact (of_mem_gridBought hpos).1
      · obtain ⟨pos, hpos, rfl⟩ := List.mem_map.mp hf
        have htaken := (List.mem_filter.mp hpos).2
        rw [decide_eq_true_eq] at htaken
        exact htaken
  · obtain ⟨_, _, rfl⟩ := List.mem_map.mp hf
    exact (wellFormed_bar hdf _).close_le_high

end

/-- **The prices of fills.**  The fills of an engine are attainable exactly if no bar lies beyond
the stop of a position that the engine looks at on that bar. -/
theorem fillsAttainable_iff (df : Frame) (hdf : df.WellFormed) :
    (∀ ind enabled regime p overlay,
      FillsAttainable (vwapFills df (simulateTrades df ind enabled regime p overlay)) ↔
        ∀ i ∈ visits (simulateBody df ind enabled regime p overlay) (df.length - 2) df.length 0,
          ∀ e, entryAt df ind enabled p (activeRegime regime (overlayAt overlay i)) i = some e →
            NoGapBehind df e i) ∧
    (∀ p, FillsAttainable (atrFills p df) ↔ ∀ v ∈ atrTurns p df, ∀ pos,
      v.1.position = some pos → ¬GapsBeyond .long pos.sl (df.bar v.2)) ∧
    (∀ p, FillsAttainable (knifeFills p df) ↔ ∀ v ∈ knifeTurns p df, ∀ pos,
      v.1.position = some pos → ¬GapsBeyond p.side pos.sl (df.bar v.2)) ∧
    (∀ p, FillsAttainable (gridFills p df)) ∧
    (∀ p atr, FillsAttainable (intradayFills p df atr) ↔ ∀ v ∈ intradayTurns p df atr, ∀ a,
      atr v.2 = some a → 0 < a → ∀ pos, v.1.position = some pos →
        ¬GapsBeyond p.side pos.sl (df.bar v.2)) :=
  ⟨vwapFills_iff hdf, atrFills_iff hdf, knifeFills_iff hdf, fillsAttainable_gridFills hdf,
    intradayFills_iff hdf⟩

/-- A knife, the bar on which its order is filled, a bar that falls to 90 from `top`, and
another. -/
def knifeFrame (top : ℚ) : Frame :=
  [⟨0, 100, 100, 99, 99, 1⟩, ⟨1, 991 / 10, 995 / 10, 991 / 10, 993 / 10, 1⟩,
    ⟨2, top, top, 90, 90, 1⟩, ⟨3, 90, 90, 90, 90, 1⟩]

theorem wellFormed_knifeFrame {top : ℚ} (h : 90 ≤ top) : (knifeFrame top).WellFormed := by
  intro bar hbar
  simp only [knifeFrame, List.mem_cons, List.not_mem_nil, or_false] at hbar
  rcases hbar with rfl | rfl | rfl | rfl
  · constructor <;> norm_num
  · constructor <;> norm_num
  · exact ⟨h, le_rfl, le_rfl, h⟩
  · constructor <;> norm_num

/-- A bar that falls through the stop: the trade is stopped there. -/
theorem fillsAttainable_fall :
    (knifeCatcherBacktest {} (knifeFrame (995 / 10))).trades.length = 1 ∧
      FillsAttainable (knifeFills {} (knifeFrame (995 / 10))) := by
  have hspans : ∀ v ∈ knifeTurns {} (knifeFrame (995 / 10)), (v.1.position.all fun pos =>
      decide ¬GapsBeyond .long pos.sl ((knifeFrame (995 / 10)).bar v.2)) = true := by
    decide +kernel
  refine ⟨by decide +kernel, ((fillsAttainable_iff (knifeFrame (995 / 10))
    (wellFormed_knifeFrame (by norm_num))).2.2.1 {}).mpr fun v hv pos hpos => ?_⟩
  have hall := hspans v hv
  rw [hpos, Option.all_some, decide_eq_true_eq] at hall
  exact hall

/-- The fills of all engines are attainable on the frame. -/
structure AllFillsAttainable (df : Frame) : Prop where
  vwap : ∀ ind enabled regime p overlay,
    FillsAttainable (vwapFills df (simulateTrades df ind enabled regime p overlay))
  atrOb : ∀ p, FillsAttainable (atrFills p df)
  knife : ∀ p, FillsAttainable (knifeFills p df)
  grid : ∀ p, FillsAttainable (gridFills p df)
  intraday : ∀ p atr, FillsAttainable (intradayFills p df atr)

/-- **A gap.**  The bar opens below the stop of the knife catcher, and never trades at its price;
the trade is closed there all the same. -/
theorem not_allFillsAttainable_gap :
    ¬∀ df : Frame, df.WellFormed → AllFillsAttainable df := by
  intro hall
  have hattainable := (hall (knifeFrame 91) (wellFormed_knifeFrame (by norm_num))).knife {}
  have hstopped : ∃ f ∈ knifeFills {} (knifeFrame 91), f.buys = false ∧ f.bar.high < f.price := by
    decide +kernel
  obtain ⟨f, hf, hsells, hhigh⟩ := hstopped
  have hle := hattainable f hf
  rw [Fill.Attainable, if_neg (by rw [hsells]; exact Bool.false_ne_true)] at hle
  exact absurd hhigh (not_lt.mpr hle)

end Backtest

end AdviserConstructor
