import AdviserConstructor.Library.Consumption
import AdviserConstructor.Library.DecimalText
import AdviserConstructor.Exchange.Adapter
import Mathlib.Data.List.Sort

/-!
# The close of a position, inferred from trades

A row that was closed without a close price gets one from the trades of its symbol.
`_infer_closed_position_from_trades` of `app/services/auto_trade/service.py` takes the trades of the
exit side from twelve hours before the opening on, the newest first, and consumes them until the
quantity of the position is used up.

There is no upper bound on the time, so that the newest trades of the exit side are consumed, those
of later positions before those of the position itself.  And while the price of a trade counts for
what is consumed of it, its fee and the profit that the exchange reports for it count in full.

* `inferClosedPosition_eq_some`: the result in terms of what is consumed.
* `ownExits_iff`: an inferred close is the position's own exactly if the newest exits that have its
  quantity lie within its time and have that quantity, and what is left of the oldest of them, if
  anything, has no figure that the result counts.
* `inferClosedPosition_later`: the exits of a later position.

Floats are rationals, and a figure that does not parse or is not finite is one of its own.
-/

namespace AdviserConstructor

namespace InferredClose

open DecimalText Consumption

/-! ## Trades -/

/-- The keys that a profit is reported under, in the order in which they are tried. -/
inductive PnlKey where
  | closedPnl | closedPnlSnake | execPnl | execPnlSnake
  deriving DecidableEq, Repr

def pnlKeys : List PnlKey := [.closedPnl, .closedPnlSnake, .execPnl, .execPnlSnake]

/-- A value of the raw trade: missing, a number, or something that is no finite number. -/
inductive RawPnl where
  | missing
  | number (value : ℚ)
  | unusable
  deriving DecidableEq, Repr

/-- `NormalizedTrade`, with the profits that its raw form reports. -/
structure NormalizedTrade where
  symbol : String
  side : OrderSide
  amount : ℚ
  price : ℚ
  feeCost : ℚ := 0
  feeCurrency : Option String := none
  timestamp : Option ℚ := none
  /-- the keys of `raw["info"]`, where that is a dictionary -/
  info : Option (PnlKey → RawPnl) := none
  /-- the keys of `raw` -/
  raw : PnlKey → RawPnl := fun _ => .missing

/-- `AutoTradePosition`, as far as the inference reads it. -/
structure ClosedPosition where
  symbol : String
  side : PositionSide
  entryPrice : ℚ
  quantity : ℚ
  openedAt : ℚ
  closedAt : Option ℚ

/-- `_POSITION_EPSILON`. -/
def positionEpsilon : ℚ := 1 / 1000000000

/-- `_split_symbol`. -/
def splitSymbol (symbol : String) : Option (String × String) :=
  let text := symbol.toList
  if '/' ∈ text then
    let right := (text.dropWhile (· ≠ '/')).drop 1
    let base := String.ofList ((strip (text.takeWhile (· ≠ '/'))).map Char.toUpper)
    let quote := String.ofList ((strip (right.takeWhile (· ≠ ':'))).map Char.toUpper)
    if base = "" ∨ quote = "" then none else some (base, quote)
  else none

/-- `_fee_to_quote`. -/
def feeToQuote (fallbackSymbol : String) (trade : NormalizedTrade) : ℚ :=
  match trade.feeCurrency with
  | none => 0
  | some currency =>
      if trade.feeCost ≤ 0 ∨ currency = "" then 0
      else
        match (splitSymbol trade.symbol).or (splitSymbol fallbackSymbol) with
        | none => 0
        | some (base, quote) =>
            if uppered currency = quote then trade.feeCost
            else if uppered currency = base then
              if 0 < trade.price then trade.feeCost * trade.price else 0
            else 0

/-- `_extract_trade_closed_pnl`. -/
def extractTradeClosedPnl (trade : NormalizedTrade) : Option ℚ :=
  (trade.info.toList ++ [trade.raw]).findSome? fun source =>
    pnlKeys.findSome? fun key =>
      match source key with
      | .number value => some value
      | _ => none

/-- `_directional_pnl`. -/
def directionalPnl (side : PositionSide) (entryPrice markPrice quantity : ℚ) : ℚ :=
  if side = .long then (markPrice - entryPrice) * quantity else (entryPrice - markPrice) * quantity

/-! ## The inference -/

/-- The variables of the loop. -/
structure Matching where
  remaining : ℚ
  matchedQty : ℚ := 0
  weightedCost : ℚ := 0
  feeTotal : ℚ := 0
  realizedFromExchange : ℚ := 0
  realizedHits : ℕ := 0

/-- The body of the loop, for a trade of which `takeQty` is taken. -/
def Matching.takeTrade (fallbackSymbol : String) (m : Matching) (trade : NormalizedTrade)
    (takeQty : ℚ) : Matching where
  remaining := m.remaining - takeQty
  matchedQty := m.matchedQty + takeQty
  weightedCost := m.weightedCost + trade.price * takeQty
  feeTotal := m.feeTotal + feeToQuote fallbackSymbol trade
  realizedFromExchange := m.realizedFromExchange + (extractTradeClosedPnl trade).getD 0
  realizedHits := m.realizedHits + (if (extractTradeClosedPnl trade).isSome then 1 else 0)

def matchCandidates (fallbackSymbol : String) : Matching → List NormalizedTrade → Matching
  | m, [] => m
  | m, trade :: trades =>
      if m.remaining ≤ positionEpsilon then m
      else
        let takeQty := min trade.amount m.remaining
        if takeQty ≤ positionEpsilon then matchCandidates fallbackSymbol m trades
        else matchCandidates fallbackSymbol (m.takeTrade fallbackSymbol trade takeQty) trades

def exitSide (position : ClosedPosition) : OrderSide :=
  if position.side = .long then .sell else .buy

/-- The order of the sort: a trade without a time comes last. -/
def notOlder (a b : NormalizedTrade) : Prop :=
  match a.timestamp, b.timestamp with
  | _, none => True
  | none, some _ => False
  | some t, some u => u ≤ t

instance : DecidableRel notOlder := fun a b => by
  unfold notOlder
  split <;> infer_instance

/-- The candidates: the trades of the exit side, the newest first. -/
def candidates (position : ClosedPosition) (trades : List NormalizedTrade) : List NormalizedTrade :=
  (trades.filter fun trade =>
    trade.side = exitSide position ∧ positionEpsilon < trade.amount ∧
      positionEpsilon < trade.price).insertionSort notOlder

/-- What the inference returns. -/
structure Inferred where
  closePrice : ℚ
  realizedPnlUsdt : ℚ
  deriving DecidableEq

/-- `_infer_closed_position_from_trades`, with the answer to the request for the trades since a
time. -/
def inferClosedPosition (position : ClosedPosition)
    (fetchFuturesTrades : ℚ → Option (List NormalizedTrade)) : Option Inferred :=
  if position.closedAt = none then none
  else
    match fetchFuturesTrades (position.openedAt - 12 * 3600) with
    | none => none
    | some trades =>
        let candidates := candidates position trades
        if candidates = [] then none
        else if position.quantity ≤ positionEpsilon then none
        else
          let m := matchCandidates position.symbol { remaining := position.quantity } candidates
          if m.matchedQty ≤ positionEpsilon then none
          else
            let closePrice := m.weightedCost / m.matchedQty
            some
              { closePrice := closePrice
                realizedPnlUsdt :=
                  if 0 < m.realizedHits then m.realizedFromExchange
                  else directionalPnl position.side position.entryPrice closePrice m.matchedQty -
                    m.feeTotal }

/-! ## What is consumed -/

/-- What the loop takes of the candidates. -/
def consumed (position : ClosedPosition) (trades : List NormalizedTrade) :
    List (NormalizedTrade × ℚ) :=
  consume positionEpsilon NormalizedTrade.amount position.quantity (candidates position trades)

/-- The newest exits that have the quantity of the position. -/
def newestExits (position : ClosedPosition) (trades : List NormalizedTrade) :
    List NormalizedTrade :=
  used positionEpsilon NormalizedTrade.amount position.quantity (candidates position trades)

/-- The profit that the exchange reports, or nothing. -/
def reportedPnl (trade : NormalizedTrade) : ℚ := (extractTradeClosedPnl trade).getD 0

section Loop

variable {position : ClosedPosition} {trades : List NormalizedTrade}

theorem positionEpsilon_nonneg : 0 ≤ positionEpsilon := by
  unfold positionEpsilon
  positivity

theorem mem_candidates {trade : NormalizedTrade} :
    trade ∈ candidates position trades ↔
      trade ∈ trades ∧ trade.side = exitSide position ∧ positionEpsilon < trade.amount ∧
        positionEpsilon < trade.price := by
  rw [candidates, List.mem_insertionSort, List.mem_filter, decide_eq_true_eq]

/-- **The loop** adds up what is consumed. -/
theorem matchCandidates_eq (fallbackSymbol : String) {candidates : List NormalizedTrade}
    (hamount : ∀ trade ∈ candidates, positionEpsilon < trade.amount) (m : Matching) :
    let uses := consume positionEpsilon NormalizedTrade.amount m.remaining candidates
    (matchCandidates fallbackSymbol m candidates).matchedQty =
        m.matchedQty + (uses.map Prod.snd).sum ∧
      (matchCandidates fallbackSymbol m candidates).weightedCost =
        m.weightedCost + (uses.map fun u => u.1.price * u.2).sum ∧
      (matchCandidates fallbackSymbol m candidates).feeTotal =
        m.feeTotal + (uses.map fun u => feeToQuote fallbackSymbol u.1).sum ∧
      (matchCandidates fallbackSymbol m candidates).realizedFromExchange =
        m.realizedFromExchange + (uses.map fun u => reportedPnl u.1).sum ∧
      (matchCandidates fallbackSymbol m candidates).realizedHits =
        m.realizedHits + uses.countP fun u => (extractTradeClosedPnl u.1).isSome := by
  induction candidates generalizing m with
  | nil => simp [matchCandidates, consume]
  | cons trade rest ih =>
    rw [matchCandidates, consume]
    by_cases hdone : m.remaining ≤ positionEpsilon
    · simp [hdone]
    have hrest : ∀ trade ∈ rest, positionEpsilon < trade.amount :=
      fun t ht => hamount t (List.mem_cons_of_mem _ ht)
    -- neither the trade nor what is missing is dust, so that something is taken
    have htake : ¬min trade.amount m.remaining ≤ positionEpsilon := by
      rw [min_le_iff, not_or]
      exact ⟨not_le.mpr (hamount trade List.mem_cons_self), hdone⟩
    rw [if_neg hdone, if_neg hdone]
    simp only [if_neg htake]
    obtain ⟨hqty, hcost, hfee, hpnl, hhits⟩ := ih hrest
      (m.takeTrade fallbackSymbol trade (min trade.amount m.remaining))
    refine ⟨?_, ?_, ?_, ?_, ?_⟩
    · rw [hqty, List.map_cons, List.sum_cons, ← add_assoc]
      rfl
    · rw [hcost, List.map_cons, List.sum_cons, ← add_assoc]
      rfl
    · rw [hfee, List.map_cons, List.sum_cons, ← add_assoc]
      rfl
    · rw [hpnl, List.map_cons, List.sum_cons, ← add_assoc]
      rfl
    · rw [hhits, List.countP_cons, Matching.takeTrade, add_assoc, Nat.add_comm (List.countP _ _)]

theorem countP_consumed_pos (hqty : 0 ≤ position.quantity) :
    0 < (consumed position trades).countP (fun u => (extractTradeClosedPnl u.1).isSome) ↔
      ∃ trade ∈ newestExits position trades, extractTradeClosedPnl trade ≠ none := by
  have hfst : (consumed position trades).map Prod.fst = newestExits position trades :=
    map_fst_consume _ positionEpsilon_nonneg hqty _
  rw [List.countP_pos_iff, ← hfst]
  simp only [List.mem_map, Option.isSome_iff_ne_none]
  constructor
  · rintro ⟨u, hu, hsome⟩
    exact ⟨u.1, ⟨u, hu, rfl⟩, hsome⟩
  · rintro ⟨_, ⟨u, hu, rfl⟩, hsome⟩
    exact ⟨u, hu, hsome⟩

/-- **The result**, in terms of what is consumed. -/
theorem inferClosedPosition_eq_some {fetchFuturesTrades : ℚ → Option (List NormalizedTrade)}
    {inferred : Inferred}
    (hfetch : fetchFuturesTrades (position.openedAt - 12 * 3600) = some trades)
    (h : inferClosedPosition position fetchFuturesTrades = some inferred) :
    positionEpsilon < position.quantity ∧
      inferred.closePrice = ((consumed position trades).map fun u => u.1.price * u.2).sum /
        ((consumed position trades).map Prod.snd).sum ∧
      inferred.realizedPnlUsdt =
        if 0 < (consumed position trades).countP (fun u => (extractTradeClosedPnl u.1).isSome) then
          ((consumed position trades).map fun u => reportedPnl u.1).sum
        else
          directionalPnl position.side position.entryPrice inferred.closePrice
              ((consumed position trades).map Prod.snd).sum -
            ((consumed position trades).map fun u => feeToQuote position.symbol u.1).sum := by
  obtain ⟨hqty, hcost, hfee, hpnl, hhits⟩ := @matchCandidates_eq position.symbol
    (candidates position trades) (fun trade ht => (mem_candidates.mp ht).2.2.1)
    { remaining := position.quantity }
  simp only [zero_add] at hqty hcost hfee hpnl hhits
  simp only [inferClosedPosition, hfetch] at h
  by_cases hclosed : position.closedAt = none
  · rw [if_pos hclosed] at h
    cases h
  rw [if_neg hclosed] at h
  by_cases hnone : candidates position trades = []
  · rw [if_pos hnone] at h
    cases h
  rw [if_neg hnone] at h
  by_cases hdust : position.quantity ≤ positionEpsilon
  · rw [if_pos hdust] at h
    cases h
  rw [if_neg hdust, hqty, hcost, hfee, hpnl, hhits] at h
  split at h
  · cases h
  · obtain rfl := Option.some.inj h
    exact ⟨not_le.mp hdust, rfl, rfl⟩

end Loop

/-! ## The position's own exits -/

/-- The trade is executed while the position is open. -/
def Within (position : ClosedPosition) (trade : NormalizedTrade) : Prop :=
  ∃ t closedAt, trade.timestamp = some t ∧ position.closedAt = some closedAt ∧
    position.openedAt ≤ t ∧ t ≤ closedAt

/-- An inferred close that is the position's own: it is made of exits within the time of the
position, they have its quantity, the price is their average, and fees and reported profits count in
proportion to what is taken. -/
structure OwnExits (position : ClosedPosition) (trades : List NormalizedTrade)
    (inferred : Inferred) : Prop where
  exits : ∀ u ∈ consumed position trades,
    u.1 ∈ trades ∧ u.1.side = exitSide position ∧ Within position u.1
  quantity : ((consumed position trades).map Prod.snd).sum = position.quantity
  closePrice : inferred.closePrice =
    ((consumed position trades).map fun u => u.1.price * u.2).sum / position.quantity
  realized : inferred.realizedPnlUsdt =
    if 0 < (consumed position trades).countP (fun u => (extractTradeClosedPnl u.1).isSome) then
      share NormalizedTrade.amount reportedPnl (consumed position trades)
    else
      directionalPnl position.side position.entryPrice inferred.closePrice position.quantity -
        share NormalizedTrade.amount (feeToQuote position.symbol) (consumed position trades)

/-- The figure of a trade that the result counts: the profit that the exchange reports, if it does
so for one of the exits, and the fee otherwise. -/
def countedFigure (position : ClosedPosition) (exits : List NormalizedTrade)
    (trade : NormalizedTrade) : ℚ :=
  if ∃ t ∈ exits, extractTradeClosedPnl t ≠ none then reportedPnl trade
  else feeToQuote position.symbol trade

/-- The condition: the newest exits that have the quantity of the position are executed within its
time, they do have it, and either they have no more, or the oldest of them has no figure that
counts. -/
structure NewestAreOwn (position : ClosedPosition) (trades : List NormalizedTrade) : Prop where
  within : ∀ trade ∈ newestExits position trades, Within position trade
  enough : position.quantity ≤ ((newestExits position trades).map NormalizedTrade.amount).sum
  exact : ((newestExits position trades).map NormalizedTrade.amount).sum ≤ position.quantity ∨
    ∀ last ∈ (newestExits position trades).getLast?,
      countedFigure position (newestExits position trades) last = 0

/-- **An inferred close is the position's own** exactly if the newest exits are. -/
theorem ownExits_iff {position : ClosedPosition} {trades : List NormalizedTrade}
    {inferred : Inferred} {fetchFuturesTrades : ℚ → Option (List NormalizedTrade)}
    (hfetch : fetchFuturesTrades (position.openedAt - 12 * 3600) = some trades)
    (hinferred : inferClosedPosition position fetchFuturesTrades = some inferred) :
    OwnExits position trades inferred ↔ NewestAreOwn position trades := by
  obtain ⟨hdust, hprice, hrealized⟩ := inferClosedPosition_eq_some hfetch hinferred
  have hqty : 0 ≤ position.quantity := positionEpsilon_nonneg.trans hdust.le
  have hfst : (consumed position trades).map Prod.fst = newestExits position trades :=
    map_fst_consume _ positionEpsilon_nonneg hqty _
  have hamount : ∀ t ∈ candidates position trades, t.amount ≠ 0 := fun t ht =>
    (positionEpsilon_nonneg.trans_lt (mem_candidates.mp ht).2.2.1).ne'
  have hcandidate : ∀ u ∈ consumed position trades, u.1 ∈ candidates position trades :=
    fun u hu => (prefix_used _ _ _ _).subset (hfst ▸ List.mem_map_of_mem hu)
  have henough : ((consumed position trades).map Prod.snd).sum = position.quantity ↔
      position.quantity ≤ ((newestExits position trades).map NormalizedTrade.amount).sum :=
    sum_snd_consume_iff positionEpsilon_nonneg hqty _
  have hshare : ∀ figure : NormalizedTrade → ℚ,
      ((consumed position trades).map fun u => figure u.1).sum =
          share NormalizedTrade.amount figure (consumed position trades) ↔
        ((newestExits position trades).map NormalizedTrade.amount).sum ≤ position.quantity ∨
          ∀ last ∈ (newestExits position trades).getLast?, figure last = 0 :=
    fun figure => sum_share_consume_iff positionEpsilon_nonneg hqty hamount
  -- once the quantity is there, only the counted figure can be off
  have hfigure : ((consumed position trades).map Prod.snd).sum = position.quantity →
      ((inferred.realizedPnlUsdt =
        if 0 < (consumed position trades).countP (fun u => (extractTradeClosedPnl u.1).isSome) then
          share NormalizedTrade.amount reportedPnl (consumed position trades)
        else
          directionalPnl position.side position.entryPrice inferred.closePrice position.quantity -
            share NormalizedTrade.amount (feeToQuote position.symbol) (consumed position trades)) ↔
        (((newestExits position trades).map NormalizedTrade.amount).sum ≤ position.quantity ∨
          ∀ last ∈ (newestExits position trades).getLast?,
            countedFigure position (newestExits position trades) last = 0)) := by
    intro hsum
    rw [hrealized, hsum]
    by_cases hhits : 0 < (consumed position trades).countP fun u =>
        (extractTradeClosedPnl u.1).isSome
    · have hsome := (countP_consumed_pos hqty).mp hhits
      simp only [if_pos hhits, countedFigure, if_pos hsome]
      exact hshare reportedPnl
    · have hnone := fun h => hhits ((countP_consumed_pos hqty).mpr h)
      simp only [if_neg hhits, countedFigure, if_neg hnone]
      rw [sub_right_inj]
      exact hshare (feeToQuote position.symbol)
  constructor
  · intro h
    refine ⟨fun trade ht => ?_, henough.mp h.quantity, (hfigure h.quantity).mp h.realized⟩
    obtain ⟨u, hu, rfl⟩ := List.mem_map.mp (hfst ▸ ht)
    exact (h.exits u hu).2.2
  · intro h
    have hsum := henough.mpr h.enough
    refine ⟨fun u hu => ?_, hsum, ?_, (hfigure hsum).mpr h.exact⟩
    · have hmem := mem_candidates.mp (hcandidate u hu)
      exact ⟨hmem.1, hmem.2.1, h.within u.1 (hfst ▸ List.mem_map_of_mem hu)⟩
    · rw [hprice, hsum]

/-! ## Positions in a row -/

/-- A long position of one coin at 100, open from 0 to 50. -/
def firstPosition : ClosedPosition where
  symbol := "BTC/USDT:USDT"
  side := .long
  entryPrice := 100
  quantity := 1
  openedAt := 0
  closedAt := some 50

def firstExit : NormalizedTrade where
  symbol := "BTC/USDT:USDT"
  side := .sell
  amount := 1
  price := 105
  timestamp := some 50

/-- The exit of the position behind it. -/
def secondExit : NormalizedTrade where
  symbol := "BTC/USDT:USDT"
  side := .sell
  amount := 1
  price := 90
  timestamp := some 90

/-- A long position of one and a half coins at 90, open from 60 to 100, behind the first one. -/
def lastPosition : ClosedPosition where
  symbol := "BTC/USDT:USDT"
  side := .long
  entryPrice := 90
  quantity := 3 / 2
  openedAt := 60
  closedAt := some 100

def coinTrade (side : OrderSide) (price feeCost timestamp : ℚ) : NormalizedTrade where
  symbol := "BTC/USDT:USDT"
  side := side
  amount := 1
  price := price
  feeCost := feeCost
  feeCurrency := some "USDT"
  timestamp := some timestamp

/-- The exit of the first position, an entry of the last one, and two exits that have more than its
quantity. -/
def bothPositions : List NormalizedTrade :=
  [firstExit, coinTrade .buy 90 0 60, coinTrade .sell 99 0 80, coinTrade .sell 96 (3 / 10) 95]

/-- A position with nothing behind it gets its own exits, though the oldest is not used up. -/
theorem ownExits_last : OwnExits lastPosition bothPositions ⟨97, 102 / 10⟩ := by
  have hinferred :
      inferClosedPosition lastPosition (fun _ => some bothPositions) = some ⟨97, 102 / 10⟩ := by
    decide +kernel
  have htimes : (newestExits lastPosition bothPositions).map NormalizedTrade.timestamp =
      [some 95, some 80] := by
    decide +kernel
  have hwithin : ∀ time ∈ [some (95 : ℚ), some 80], ∃ t, time = some t ∧ 60 ≤ t ∧ t ≤ 100 := by
    norm_num
  refine (ownExits_iff rfl hinferred).mpr ⟨fun trade ht => ?_, by decide +kernel, .inr ?_⟩
  · obtain ⟨t, htime, hopen, hclose⟩ := hwithin _ (htimes ▸ List.mem_map_of_mem ht)
    exact ⟨t, 100, htime, rfl, hopen, hclose⟩
  · decide +kernel

/-- With a later position behind it, it gets the exit of that one. -/
theorem inferClosedPosition_later :
    ¬∀ (position : ClosedPosition) (trades : List NormalizedTrade) (inferred : Inferred),
      inferClosedPosition position (fun _ => some trades) = some inferred →
        OwnExits position trades inferred := by
  intro hall
  have hown := hall firstPosition [firstExit, secondExit] ⟨90, -10⟩ (by decide +kernel)
  have huses : (consumed firstPosition [firstExit, secondExit]).map
      (fun u => u.1.timestamp) = [some 90] := by decide +kernel
  have hmem : some (90 : ℚ) ∈ (consumed firstPosition [firstExit, secondExit]).map
      (fun u => u.1.timestamp) := huses ▸ List.mem_singleton_self _
  obtain ⟨u, hu, htime⟩ := List.mem_map.mp hmem
  obtain ⟨t, closedAt, ht, hclosed, -, hle⟩ := (hown.exits u hu).2.2
  obtain rfl := Option.some.inj (ht.symm.trans htime)
  obtain rfl := Option.some.inj hclosed
  revert hle
  decide +kernel

end InferredClose

end AdviserConstructor
