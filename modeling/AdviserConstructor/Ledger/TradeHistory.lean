import AdviserConstructor.Ledger.TradeCursor

/-!
# What a sync reads of a history

Both routines of the trade sync are run against one unchanging history of fills on Binance, through
the adapter.  Once there is a cursor the adapter asks for the fills from that id on; before, for
those of a window.

The exchange behind `fetch_my_trades` is a parameter.  What is assumed of it (`ServesUserTrades`) is
what is documented of `userTrades`: an id is answered with the fills from it on; a start time with
the fills of the seven days from it on, which is as long as a window may be; neither with the most
recent fills of the last seven days; all up to the limit, in order.

* `reads_cursor`: what a call with a cursor reads is a segment of the history that begins there; if
  the call finishes, it is what is within its reach, the fills up to the newest or to where the last
  page ends;
* `reads_window`: what a call without a cursor reads is one that begins at the first fill of its
  window.
-/

namespace AdviserConstructor

open DecimalText StepSystem

/-! ## The history and the adapter -/

/-- The fills of an account and symbol on the exchange, in the order of their ids and times. -/
structure TradeHistory where
  fills : List NormalizedTrade
  increasing : fills.Pairwise fun a b => tradeNumber a.id < tradeNumber b.id
  ordered : fills.Pairwise fun a b => a.tradedTsMs 0 ≤ b.tradedTsMs 0
  numbered : ∀ trade ∈ fills, IsTradeNumber trade.id
  timed : ∀ trade ∈ fills, trade.timestamp.isSome = true ∧ 0 < trade.tradedTsMs 0

/-- What the adapter passes to `fetch_my_trades`. -/
structure CcxtRequest where
  sinceMs : Option ℤ
  limit : ℕ
  fromId : Option String := none
  cursor : Option String := none
  deriving DecidableEq, Repr

/-- `fetch_futures_trades_page` up to the call: Binance rejects a start time when paging by id. -/
def ccxtRequest (exchangeName : String) (request : FetchRequest) : CcxtRequest :=
  let sinceMs := request.since.map fun since => truncate (since * 1000)
  match request.cursor.filter (· ≠ "") with
  | none => ⟨sinceMs, request.limit, none, none⟩
  | some cursor =>
      if exchangeName = "binance" then ⟨none, request.limit, some cursor, none⟩
      else if exchangeName = "bybit" then ⟨sinceMs, request.limit, none, some cursor⟩
      else ⟨sinceMs, request.limit, none, none⟩

/-- As long as a window may be: seven days. -/
def weekMs : ℤ := 7 * 24 * 60 * 60 * 1000

/-- The most recent fills of the last seven days. -/
def TradeHistory.recent (history : TradeHistory) (serverTimeMs : ℤ) (limit : ℕ) :
    List NormalizedTrade :=
  let week := history.fills.filter fun trade => serverTimeMs - weekMs ≤ trade.tradedTsMs 0
  week.drop (week.length - limit)

/-- The fills that a request is answered with. -/
def TradeHistory.answer (history : TradeHistory) (serverTimeMs : ℤ) (request : FetchRequest) :
    List NormalizedTrade :=
  match request.cursor.filter (· ≠ "") with
  | some cursor =>
      (history.fills.filter fun trade => tradeNumber cursor ≤ tradeNumber trade.id).take
        request.limit
  | none =>
      match request.since with
      | some since =>
          let startMs := truncate (since * 1000)
          (history.fills.filter fun trade =>
            startMs ≤ trade.tradedTsMs 0 ∧ trade.tradedTsMs 0 ≤ startMs + weekMs).take request.limit
      | none => history.recent serverTimeMs request.limit

/-- `userTrades` as it is documented, behind `fetch_my_trades`, at every time of the exchange. -/
def ServesUserTrades (history : TradeHistory)
    (myTrades : ℤ → CcxtRequest → List NormalizedTrade) : Prop :=
  ∀ serverTimeMs request,
    myTrades serverTimeMs (ccxtRequest "binance" request) = history.answer serverTimeMs request

/-- The fill is older than a window: than its start, or than the most recent fills. -/
def TradeHistory.OlderThan (history : TradeHistory) (serverTimeMs : ℤ) (limit : ℕ) :
    Option ℚ → NormalizedTrade → Prop
  | some since, trade => trade.tradedTsMs 0 < truncate (since * 1000)
  | none, trade => trade ∉ history.recent serverTimeMs limit

/-! ## Schedules -/

/-- How a request can fail. -/
inductive RequestFailure where
  /-- an `ExchangeServiceError` -/
  | exchangeError (code message : String)
  | other

/-- A call of a schedule: the routine, its time here and on the exchange, its window, and which of
its requests fail. -/
structure ScheduledCall where
  kind : SyncKind
  now : ℚ
  serverTimeMs : ℤ := truncate (now * 1000)
  backfillDays : ℕ := 30
  failure : ℕ → Option RequestFailure := fun _ => none
  tables : OriginTables := {}

def ScheduledCall.run (call : ScheduledCall) (exchangeName : String)
    (myTrades : ℤ → CcxtRequest → List NormalizedTrade) : SyncRun where
  kind := call.kind
  now := call.now
  backfillDays := call.backfillDays
  fetch := fun page request =>
    match call.failure page with
    | some (.exchangeError code message) => .exchangeError code message
    | some .other => .raised
    | none => .page (myTrades call.serverTimeMs (ccxtRequest exchangeName request))
  tables := call.tables

/-- What a schedule is run against: an account on Binance, its history and the exchange. -/
structure SyncSetting where
  scope : SyncScope
  history : TradeHistory
  myTrades : ℤ → CcxtRequest → List NormalizedTrade
  onBinance : scope.exchangeName = "binance"
  serves : ServesUserTrades history myTrades

namespace SyncSetting

variable (setting : SyncSetting)

/-- A call of a schedule as a call of a routine. -/
def runOf (call : ScheduledCall) : SyncRun := call.run setting.scope.exchangeName setting.myTrades

def after (db : SyncDb) (call : ScheduledCall) : SyncDb :=
  setting.scope.sync db (setting.runOf call)

/-- The fills that so many pages reach from an id on; every page begins with the last fill of the
one before. -/
def following (id : String) (pages : ℕ) : List NormalizedTrade :=
  (setting.history.fills.filter fun trade => tradeNumber id ≤ tradeNumber trade.id).take
    (pages * (setting.scope.pageLimit - 1) + 1)

/-- The fills within the reach of a call: from its cursor on, or from its window. -/
def reach (call : ScheduledCall) (db : SyncDb) : List NormalizedTrade :=
  let start := (setting.runOf call).start db
  match start.cursor with
  | some cursor => setting.following cursor start.maxPages
  | none =>
      let first := setting.history.answer call.serverTimeMs
        ⟨start.since, setting.scope.pageLimit, none⟩
      first ++ first.getLast?.toList.flatMap fun last =>
        setting.following last.id (start.maxPages - 1)

/-- The fills of the history that are in the ledger. -/
def stored (db : SyncDb) : Set NormalizedTrade :=
  {trade | trade ∈ setting.history.fills ∧
    TradeLedger.Has db.ledger (setting.scope.ledgerKey trade)}

end SyncSetting

/-! ## Segments of the history -/

/-- The elements of a list at the positions from `a` up to `b`. -/
def segment {α : Type*} (l : List α) (a b : ℕ) : Set α :=
  {x | ∃ i, a ≤ i ∧ i < b ∧ l[i]? = some x}

theorem mem_take_drop_iff {α : Type*} (l : List α) (p m : ℕ) (x : α) :
    x ∈ (l.drop p).take m ↔ x ∈ segment l p (p + m) := by
  rw [List.mem_iff_getElem?]
  constructor
  · rintro ⟨i, hi⟩
    rw [List.getElem?_take] at hi
    split at hi
    · rw [List.getElem?_drop] at hi
      exact ⟨p + i, by omega, by omega, hi⟩
    · cases hi
  · rintro ⟨i, hpi, hi, hx⟩
    refine ⟨i - p, ?_⟩
    rw [List.getElem?_take, if_pos (by omega), List.getElem?_drop]
    rwa [Nat.add_sub_cancel' hpi]

theorem segment_union {α : Type*} {l : List α} {a b c d : ℕ} (hac : a ≤ c) (hcb : c ≤ b) (x : α) :
    x ∈ segment l a b ∨ x ∈ segment l c d ↔ x ∈ segment l a (max b d) := by
  constructor
  · rintro (⟨i, h₁, h₂, hx⟩ | ⟨i, h₁, h₂, hx⟩)
    · exact ⟨i, h₁, by omega, hx⟩
    · exact ⟨i, by omega, by omega, hx⟩
  · rintro ⟨i, h₁, h₂, hx⟩
    by_cases hb : i < b
    · exact Or.inl ⟨i, h₁, hb, hx⟩
    · exact Or.inr ⟨i, by omega, by omega, hx⟩

theorem take_drop_spec {α : Type*} {l : List α} {p limit : ℕ} (hp : p < l.length)
    (hlimit : 0 < limit) :
    ∃ q last, p ≤ q ∧ q < l.length ∧ l[q]? = some last ∧
      ((l.drop p).take limit).getLast? = some last ∧
      (∀ x, x ∈ (l.drop p).take limit ↔ x ∈ segment l p (q + 1)) ∧
      (q + 1 = l.length ∨ q + 1 = p + limit) ∧ q + 1 ≤ p + limit := by
  have hlength : ((l.drop p).take limit).length = min limit (l.length - p) := by
    rw [List.length_take, List.length_drop]
  have hq : p + (min limit (l.length - p) - 1) < l.length := by omega
  refine ⟨p + (min limit (l.length - p) - 1), l[p + (min limit (l.length - p) - 1)], by omega, hq,
    List.getElem?_eq_getElem hq, ?_, fun x => ?_, by omega, by omega⟩
  · rw [List.getLast?_eq_getElem?, hlength, List.getElem?_take, if_pos (by omega),
      List.getElem?_drop, List.getElem?_eq_getElem hq]
  · rw [mem_take_drop_iff]
    constructor
    · rintro ⟨i, h₁, h₂, hx⟩
      obtain ⟨hi, -⟩ := List.getElem?_eq_some_iff.mp hx
      exact ⟨i, h₁, by omega, hx⟩
    · rintro ⟨i, h₁, h₂, hx⟩
      exact ⟨i, h₁, by omega, hx⟩

theorem filter_eq_drop {α : Type*} {l : List α} {p : α → Bool}
    (hclosed : l.Pairwise fun a b => p a = true → p b = true) :
    l.filter p = l.drop (l.length - (l.filter p).length) := by
  induction l with
  | nil => rfl
  | cons a l ih =>
    rw [List.pairwise_cons] at hclosed
    obtain ⟨hhead, htail⟩ := hclosed
    by_cases ha : p a = true
    · have hall : (a :: l).filter p = a :: l := by
        rw [List.filter_eq_self]
        intro b hb
        rcases List.mem_cons.mp hb with rfl | hmem
        · exact ha
        · exact hhead b hmem ha
      rw [hall, Nat.sub_self, List.drop_zero]
    · have hskip : (a :: l).filter p = l.filter p := List.filter_cons_of_neg ha
      have hle : (l.filter p).length ≤ l.length := List.length_filter_le p l
      rw [hskip, List.length_cons, Nat.succ_sub hle]
      exact ih htail

theorem filter_eq_take {α : Type*} {l : List α} {p : α → Bool}
    (hclosed : l.Pairwise fun a b => p b = true → p a = true) :
    l.filter p = l.take (l.filter p).length := by
  induction l with
  | nil => rfl
  | cons a l ih =>
    rw [List.pairwise_cons] at hclosed
    obtain ⟨hhead, htail⟩ := hclosed
    by_cases ha : p a = true
    · rw [List.filter_cons_of_pos ha, List.length_cons, List.take_succ_cons, ← ih htail]
    · have hnone : l.filter p = [] :=
        List.filter_eq_nil_iff.mpr fun b hb hpb => ha (hhead b hb hpb)
      rw [List.filter_cons_of_neg ha, hnone]
      rfl

/-! ## What a call reads of the history -/

namespace TradeHistory

variable {history : TradeHistory}

theorem number_lt {i j : ℕ} {a b : NormalizedTrade} (hij : i < j)
    (ha : history.fills[i]? = some a) (hb : history.fills[j]? = some b) :
    tradeNumber a.id < tradeNumber b.id := by
  obtain ⟨hi, rfl⟩ := List.getElem?_eq_some_iff.mp ha
  obtain ⟨hj, rfl⟩ := List.getElem?_eq_some_iff.mp hb
  exact List.pairwise_iff_getElem.mp history.increasing i j hi hj hij

theorem index_unique {i j : ℕ} {a b : NormalizedTrade} (ha : history.fills[i]? = some a)
    (hb : history.fills[j]? = some b) (hid : tradeNumber a.id = tradeNumber b.id) : i = j := by
  rcases lt_trichotomy i j with hlt | heq | hgt
  · exact absurd hid (number_lt hlt ha hb).ne
  · exact heq
  · exact absurd hid.symm (number_lt hgt hb ha).ne

theorem filter_from {p : ℕ} {trade : NormalizedTrade} (hp : history.fills[p]? = some trade) :
    history.fills.filter (fun t => tradeNumber trade.id ≤ tradeNumber t.id) =
      history.fills.drop p := by
  conv_lhs => rw [← List.take_append_drop p history.fills]
  rw [List.filter_append]
  have hbefore : (history.fills.take p).filter
      (fun t => tradeNumber trade.id ≤ tradeNumber t.id) = [] := by
    rw [List.filter_eq_nil_iff]
    intro t ht
    obtain ⟨i, hi⟩ := List.mem_iff_getElem?.mp ht
    rw [List.getElem?_take] at hi
    split at hi
    · have := number_lt ‹i < p› hi hp
      simp only [decide_eq_true_eq]
      omega
    · cases hi
  have hafter : (history.fills.drop p).filter
      (fun t => tradeNumber trade.id ≤ tradeNumber t.id) = history.fills.drop p := by
    rw [List.filter_eq_self]
    intro t ht
    obtain ⟨i, hi⟩ := List.mem_iff_getElem?.mp ht
    rw [List.getElem?_drop] at hi
    rw [decide_eq_true_eq]
    rcases Nat.eq_zero_or_pos i with rfl | hpos
    · rw [Nat.add_zero, hp] at hi
      rw [Option.some.inj hi]
    · exact (number_lt (by omega) hp hi).le
  rw [hbefore, hafter, List.nil_append]

theorem answer_cursor {p : ℕ} {trade : NormalizedTrade} (hp : history.fills[p]? = some trade)
    (serverTimeMs : ℤ) (since : Option ℚ) (limit : ℕ) :
    history.answer serverTimeMs ⟨since, limit, some trade.id⟩ =
      (history.fills.drop p).take limit := by
  have hnamed : trade.id ≠ "" := (history.numbered trade (List.mem_of_getElem? hp)).1
  have hcursor : (some trade.id).filter (· ≠ "") = some trade.id := by simp [hnamed]
  rw [answer, hcursor]
  dsimp only
  rw [filter_from hp]

theorem mem_drop_iff {p i : ℕ} {trade : NormalizedTrade} (hi : history.fills[i]? = some trade) :
    trade ∈ history.fills.drop p ↔ p ≤ i := by
  rw [List.mem_iff_getElem?]
  constructor
  · rintro ⟨j, hj⟩
    rw [List.getElem?_drop] at hj
    have := index_unique hi hj rfl
    omega
  · intro hle
    refine ⟨i - p, ?_⟩
    rw [List.getElem?_drop, Nat.add_sub_cancel' hle]
    exact hi

variable (history) in
theorem answer_window (serverTimeMs : ℤ) (since : Option ℚ) (limit : ℕ) :
    ∃ p m, p ≤ history.fills.length ∧
      history.answer serverTimeMs ⟨since, limit, none⟩ = (history.fills.drop p).take m ∧
      ∀ i trade, history.fills[i]? = some trade →
        (i < p ↔ history.OlderThan serverTimeMs limit since trade) := by
  cases since with
  | none =>
    have hclosed : history.fills.Pairwise fun a b =>
        decide (serverTimeMs - weekMs ≤ a.tradedTsMs 0) = true →
          decide (serverTimeMs - weekMs ≤ b.tradedTsMs 0) = true :=
      history.ordered.imp fun hab ha =>
        decide_eq_true ((of_decide_eq_true ha).trans hab)
    obtain ⟨p, hp, hrecent⟩ : ∃ p ≤ history.fills.length,
        history.recent serverTimeMs limit = history.fills.drop p := by
      rw [recent, filter_eq_drop hclosed, List.drop_drop]
      refine ⟨_, ?_, rfl⟩
      have := List.length_filter_le (fun trade : NormalizedTrade =>
        decide (serverTimeMs - weekMs ≤ trade.tradedTsMs 0)) history.fills
      rw [List.length_drop]
      omega
    refine ⟨p, history.fills.length, hp, ?_, fun i trade hi => ?_⟩
    · rw [List.take_of_length_le (by rw [List.length_drop]; omega)]
      exact hrecent
    · rw [OlderThan, hrecent, mem_drop_iff hi, not_le]
  | some s =>
    have hclosed : history.fills.Pairwise fun a b =>
        decide (truncate (s * 1000) ≤ a.tradedTsMs 0) = true →
          decide (truncate (s * 1000) ≤ b.tradedTsMs 0) = true :=
      history.ordered.imp fun hab ha =>
        decide_eq_true ((of_decide_eq_true ha).trans hab)
    obtain ⟨p, hp, htail⟩ : ∃ p ≤ history.fills.length, history.fills.filter
        (fun t => truncate (s * 1000) ≤ t.tradedTsMs 0) = history.fills.drop p :=
      ⟨_, Nat.sub_le _ _, filter_eq_drop hclosed⟩
    have hclosed' : (history.fills.drop p).Pairwise fun a b =>
        decide (b.tradedTsMs 0 ≤ truncate (s * 1000) + weekMs) = true →
          decide (a.tradedTsMs 0 ≤ truncate (s * 1000) + weekMs) = true :=
      (history.ordered.imp fun hab hb =>
        decide_eq_true (hab.trans (of_decide_eq_true hb))).sublist (List.drop_sublist _ _)
    have hwindow : history.fills.filter (fun trade => truncate (s * 1000) ≤ trade.tradedTsMs 0 ∧
          trade.tradedTsMs 0 ≤ truncate (s * 1000) + weekMs) =
        (history.fills.drop p).filter fun t => t.tradedTsMs 0 ≤ truncate (s * 1000) + weekMs := by
      rw [← htail, List.filter_filter]
      refine List.filter_congr fun t _ => ?_
      rw [Bool.decide_and, Bool.and_comm]
    obtain ⟨m, hblock⟩ : ∃ m, history.answer serverTimeMs ⟨some s, limit, none⟩ =
        (history.fills.drop p).take m := by
      have hanswer : history.answer serverTimeMs ⟨some s, limit, none⟩ =
          ((history.fills.drop p).filter fun t =>
            t.tradedTsMs 0 ≤ truncate (s * 1000) + weekMs).take limit :=
        congrArg (List.take limit) hwindow
      rw [filter_eq_take hclosed', List.take_take] at hanswer
      exact ⟨_, hanswer⟩
    refine ⟨p, m, hp, hblock, fun i trade hi => ?_⟩
    · rw [OlderThan]
      have hmem := @mem_drop_iff history p i trade hi
      rw [← htail, List.mem_filter, and_iff_right (List.mem_of_getElem? hi), decide_eq_true_eq]
        at hmem
      omega

end TradeHistory

/-! ## What a call reads -/

namespace SyncSetting

variable {setting : SyncSetting}

theorem fetch_eq (call : ScheduledCall) {page : ℕ} (hfail : call.failure page = none)
    (request : FetchRequest) : (setting.runOf call).fetch page request =
      .page (setting.history.answer call.serverTimeMs request) := by
  unfold runOf ScheduledCall.run
  dsimp only
  rw [hfail, setting.onBinance]
  rw [setting.serves]

theorem fetch_of_failure (call : ScheduledCall) {page : ℕ} {failure : RequestFailure}
    (hfail : call.failure page = some failure) (request : FetchRequest) :
    (∃ code message, (setting.runOf call).fetch page request = .exchangeError code message) ∨
      (setting.runOf call).fetch page request = .raised := by
  unfold runOf ScheduledCall.run
  dsimp only
  rw [hfail]
  cases failure with
  | exchangeError code message => exact Or.inl ⟨code, message, rfl⟩
  | other => exact Or.inr rfl

theorem segment_self {α : Type*} (l : List α) (p : ℕ) (x : α) : x ∈ segment l p p ↔ x ∈ [] := by
  rw [iff_false_right List.not_mem_nil]
  rintro ⟨i, h₁, h₂, -⟩
  omega

variable {trade : NormalizedTrade}

/-- **From a cursor on a call reads a segment of the history**; if the exchange has no more, then up
to the end, and otherwise as far as its pages go. -/
theorem readPages_cursor (call : ScheduledCall) (since : Option ℚ) (left page : ℕ) {p : ℕ}
    (hp : setting.history.fills[p]? = some trade) :
    ∃ e, p ≤ e ∧ e ≤ setting.history.fills.length ∧
      (∀ t, t ∈ (readPages (setting.runOf call).fetch since setting.scope.pageLimit left page
          (some trade.id)).1.flatten ↔ t ∈ segment setting.history.fills p e) ∧
      e ≤ p + 1 + left * (setting.scope.pageLimit - 1) ∧
      ((readPages (setting.runOf call).fetch since setting.scope.pageLimit left page
          (some trade.id)).2 = .exhausted → e = setting.history.fills.length) ∧
      ((readPages (setting.runOf call).fetch since setting.scope.pageLimit left page
          (some trade.id)).2 = .capped → left = 0 ∨ e = setting.history.fills.length ∨
        p + 1 + left * (setting.scope.pageLimit - 1) ≤ e) := by
  have hlimit : 10 ≤ setting.scope.pageLimit := le_max_left _ _
  induction left generalizing page p trade with
  | zero =>
    obtain ⟨hlength, -⟩ := List.getElem?_eq_some_iff.mp hp
    exact ⟨p, le_rfl, hlength.le, fun t => (segment_self _ p t).symm, by omega,
      fun h => (by cases h), fun _ => .inl rfl⟩
  | succ left ih =>
    obtain ⟨hlength, -⟩ := List.getElem?_eq_some_iff.mp hp
    rw [readPages]
    cases hfail : call.failure page with
    | some failure =>
      rcases fetch_of_failure call hfail ⟨since, setting.scope.pageLimit, some trade.id⟩ with
        ⟨code, message, h⟩ | h
      · rw [h]
        exact ⟨p, le_rfl, hlength.le, fun t => (segment_self _ p t).symm, by omega,
          fun h => (by cases h), fun h => (by cases h)⟩
      · rw [h]
        exact ⟨p, le_rfl, hlength.le, fun t => (segment_self _ p t).symm, by omega,
          fun h => (by cases h), fun h => (by cases h)⟩
    | none =>
      rw [fetch_eq call hfail, TradeHistory.answer_cursor hp]
      obtain ⟨q, last, hpq, hq, hlast, hgetLast, hmem, hfull, hshort⟩ :=
        take_drop_spec hlength (by omega : 0 < setting.scope.pageLimit)
      cases hpage : (setting.history.fills.drop p).take setting.scope.pageLimit with
      | nil =>
        rw [hpage] at hgetLast
        cases hgetLast
      | cons first rest =>
        rw [hpage] at hgetLast hmem
        have hnamed : last.id ≠ "" :=
          (setting.history.numbered last (List.mem_of_getElem? hlast)).1
        dsimp only
        by_cases hrepeat : some trade.id = some last.id
        · -- the page holds the fill of the cursor alone, and the history ends with it
          have hnext : nextFuturesTradesCursor (first :: rest) (some trade.id) = none := by
            unfold nextFuturesTradesCursor
            rw [hgetLast]
            dsimp only
            rw [if_neg hnamed, if_pos hrepeat]
          have hsame : p = q :=
            TradeHistory.index_unique hp hlast (by rw [Option.some.inj hrepeat])
          rw [hnext]
          refine ⟨q + 1, by omega, hq, fun t => ?_, ?_, fun _ => (by omega), fun h => (by cases h)⟩
          · rw [← hmem]
            simp
          · omega
        · have hnext : nextFuturesTradesCursor (first :: rest) (some trade.id) = some last.id := by
            unfold nextFuturesTradesCursor
            rw [hgetLast]
            dsimp only
            rw [if_neg hnamed, if_neg hrepeat]
          obtain ⟨e, hqe, he, hcover, hreach, hexhausted, hcapped⟩ := ih (page + 1) hlast
          rw [hnext]
          rw [Nat.succ_mul]
          generalize hreached : left * (setting.scope.pageLimit - 1) = reached at hreach hcapped ⊢
          refine ⟨max (q + 1) e, by omega, by omega, fun t => ?_, by omega, fun hend => ?_,
            fun hend => ?_⟩
          · rw [List.flatten_cons, List.mem_append, hmem, hcover]
            exact segment_union hpq (by omega) t
          · have := hexhausted hend
            omega
          · rcases hcapped hend with hnone | hall | hfar
            · rw [hnone] at hreached
              omega
            · omega
            · omega

theorem ledgerKey_injOn {a b : NormalizedTrade} (ha : a ∈ setting.history.fills)
    (hb : b ∈ setting.history.fills)
    (hkey : setting.scope.ledgerKey a = setting.scope.ledgerKey b) : a = b := by
  obtain ⟨i, hi⟩ := List.mem_iff_getElem?.mp ha
  obtain ⟨j, hj⟩ := List.mem_iff_getElem?.mp hb
  have hid : a.id = b.id := congrArg LedgerKey.exchangeTradeId hkey
  have hij := TradeHistory.index_unique hi hj (by rw [hid])
  rw [hij, hj] at hi
  exact (Option.some.inj hi).symm

theorem answer_sublist (history : TradeHistory) (serverTimeMs : ℤ) (request : FetchRequest) :
    (history.answer serverTimeMs request).Sublist history.fills := by
  unfold TradeHistory.answer TradeHistory.recent
  split
  · exact (List.take_sublist _ _).trans List.filter_sublist
  · split
    · exact (List.take_sublist _ _).trans List.filter_sublist
    · exact (List.drop_sublist _ _).trans List.filter_sublist

theorem sublist_of_fetch {call : ScheduledCall} {page : ℕ} {request : FetchRequest}
    {trades : List NormalizedTrade}
    (h : (setting.runOf call).fetch page request = .page trades) :
    trades.Sublist setting.history.fills := by
  cases hfail : call.failure page with
  | some failure =>
    rcases fetch_of_failure call hfail request with ⟨code, message, hanswer⟩ | hanswer
    · rw [hanswer] at h
      cases h
    · rw [hanswer] at h
      cases h
  | none =>
    rw [fetch_eq call hfail] at h
    rw [← FetchAnswer.page.inj h]
    exact answer_sublist _ _ _

theorem mem_fills_of_read {call : ScheduledCall} {db : SyncDb}
    (h : trade ∈ setting.scope.tradesRead (setting.runOf call) db) :
    trade ∈ setting.history.fills := by
  obtain ⟨page, request, trades, hanswer, hmem⟩ := SyncScope.tradesRead_mem h
  exact (sublist_of_fetch hanswer).subset hmem

theorem pagesFit (call : ScheduledCall) (db : SyncDb) :
    setting.scope.PagesFit (setting.runOf call)
      (setting.scope.reading (setting.runOf call) db).1 := by
  intro trades hpage _
  obtain ⟨page, request, hanswer⟩ := readPages_mem hpage
  have hsub : trades.Sublist setting.history.fills := sublist_of_fetch hanswer
  have hstored : (SyncScope.storedTrades (setting.runOf call).kind trades).Sublist trades := by
    unfold SyncScope.storedTrades
    split
    · exact List.Sublist.refl _
    · exact List.filter_sublist
  have hdistinct : (setting.history.fills.map setting.scope.ledgerKey).Nodup := by
    rw [List.Nodup, List.pairwise_map]
    refine setting.history.increasing.imp fun {older newer} hlt hkey => ?_
    have hid : older.id = newer.id := congrArg LedgerKey.exchangeTradeId hkey
    exact hlt.ne (congrArg tradeNumber hid)
  exact hdistinct.sublist ((hstored.trans hsub).map _)

theorem mem_tradesRead_iff (call : ScheduledCall) (db : SyncDb) (trade : NormalizedTrade) :
    trade ∈ setting.scope.tradesRead (setting.runOf call) db ↔
      trade ∈ (setting.scope.reading (setting.runOf call) db).1.flatten := by
  unfold SyncScope.tradesRead SyncScope.keptTrades SyncScope.storedTrades
  rw [List.mem_flatMap, List.mem_flatten]
  refine exists_congr fun trades => and_congr_right fun hpage => ?_
  cases (setting.runOf call).kind with
  | symbolTrades => exact Iff.rfl
  | accountSymbolTrades =>
    rw [List.mem_filter, and_iff_left_iff_imp]
    intro hmem
    obtain ⟨page, request, hanswer⟩ := readPages_mem hpage
    have hfill := (sublist_of_fetch hanswer).subset hmem
    exact decide_eq_true (setting.history.numbered trade hfill).1

theorem callEnd_eq_finished_iff (call : ScheduledCall) (db : SyncDb) :
    setting.scope.callEnd (setting.runOf call) db = .finished ↔
      (setting.scope.reading (setting.runOf call) db).2 = .exhausted ∨
        (setting.scope.reading (setting.runOf call) db).2 = .capped := by
  unfold SyncScope.callEnd
  rw [if_pos (pagesFit call db)]
  cases (setting.scope.reading (setting.runOf call) db).2 with
  | exhausted => simp
  | capped => simp
  | exchangeError code message => cases (setting.runOf call).kind <;> simp
  | raised => simp

variable (setting) in
theorem maxPages_pos (call : ScheduledCall) (db : SyncDb) :
    2 ≤ ((setting.runOf call).start db).maxPages := by
  unfold SyncRun.start SyncState.symbolStart SyncState.accountStart
  cases (setting.runOf call).kind with
  | symbolTrades => exact (by norm_num : 2 ≤ 20)
  | accountSymbolTrades =>
    dsimp only
    split
    · exact (by norm_num : 2 ≤ 20)
    · exact (by norm_num : 2 ≤ 200)

theorem mem_following {p : ℕ} (hp : setting.history.fills[p]? = some trade) (pages : ℕ)
    (t : NormalizedTrade) :
    t ∈ setting.following trade.id pages ↔ t ∈ segment setting.history.fills p
      (p + (pages * (setting.scope.pageLimit - 1) + 1)) := by
  rw [following, TradeHistory.filter_from hp, mem_take_drop_iff]

theorem segment_congr {α : Type*} {l : List α} {a b c : ℕ} (hbc : b ≤ c)
    (hend : b = l.length ∨ c ≤ b) (x : α) : x ∈ segment l a b ↔ x ∈ segment l a c := by
  constructor
  · rintro ⟨i, h₁, h₂, hx⟩
    exact ⟨i, h₁, by omega, hx⟩
  · rintro ⟨i, h₁, h₂, hx⟩
    obtain ⟨hi, -⟩ := List.getElem?_eq_some_iff.mp hx
    exact ⟨i, h₁, by omega, hx⟩

/-- **A call with a cursor** reads from there on, and finishes with what is within its reach. -/
theorem reads_cursor (call : ScheduledCall) (db : SyncDb) {p : ℕ}
    (hp : setting.history.fills[p]? = some trade)
    (hcursor : ((setting.runOf call).start db).cursor = some trade.id) :
    ∃ e, p ≤ e ∧ e ≤ setting.history.fills.length ∧
      (∀ t, t ∈ setting.scope.tradesRead (setting.runOf call) db ↔
        t ∈ segment setting.history.fills p e) ∧
      (∀ t ∈ setting.scope.tradesRead (setting.runOf call) db, t ∈ setting.reach call db) ∧
      (setting.scope.callEnd (setting.runOf call) db = .finished →
        ∀ t ∈ setting.reach call db, t ∈ setting.scope.tradesRead (setting.runOf call) db) := by
  obtain ⟨e, hpe, he, hcover, hreach, hexhausted, hcapped⟩ := readPages_cursor call
    ((setting.runOf call).start db).since ((setting.runOf call).start db).maxPages 0 hp
  have hpages := maxPages_pos setting call db
  rw [← hcursor] at hcover hexhausted hcapped
  have hread : ∀ t, t ∈ setting.scope.tradesRead (setting.runOf call) db ↔
      t ∈ segment setting.history.fills p e :=
    fun t => (mem_tradesRead_iff call db t).trans (hcover t)
  have hwithin : ∀ t, t ∈ setting.reach call db ↔ t ∈ segment setting.history.fills p
      (p + (((setting.runOf call).start db).maxPages * (setting.scope.pageLimit - 1) + 1)) := by
    intro t
    rw [reach, hcursor]
    exact mem_following hp _ t
  refine ⟨e, hpe, he, hread, fun t ht => ?_, fun hend t ht => ?_⟩
  · obtain ⟨i, h₁, h₂, hi⟩ := (hread t).mp ht
    exact (hwithin t).mpr ⟨i, h₁, by omega, hi⟩
  · refine (hread t).mpr ((segment_congr (by omega) ?_ t).mpr ((hwithin t).mp ht))
    rcases (callEnd_eq_finished_iff call db).mp hend with h | h
    · exact .inl (hexhausted h)
    · rcases hcapped h with hnone | hall | hfar
      · omega
      · exact .inl hall
      · exact .inr (by omega)

/-- **A call without a cursor** reads from the first fill of its window on. -/
theorem reads_window (call : ScheduledCall) (db : SyncDb)
    (hcursor : ((setting.runOf call).start db).cursor = none) :
    ∃ p e, p ≤ e ∧ e ≤ setting.history.fills.length ∧
      (∀ t, t ∈ setting.scope.tradesRead (setting.runOf call) db ↔
        t ∈ segment setting.history.fills p e) ∧
      (∀ i t, setting.history.fills[i]? = some t → (i < p ↔ setting.history.OlderThan
        call.serverTimeMs setting.scope.pageLimit ((setting.runOf call).start db).since t)) ∧
      (∀ t ∈ setting.scope.tradesRead (setting.runOf call) db, t ∈ setting.reach call db) ∧
      (setting.scope.callEnd (setting.runOf call) db = .finished →
        ∀ t ∈ setting.reach call db, t ∈ setting.scope.tradesRead (setting.runOf call) db) := by
  obtain ⟨p, m, hp, hanswer, hwindow⟩ := setting.history.answer_window call.serverTimeMs
    ((setting.runOf call).start db).since setting.scope.pageLimit
  have hpages := maxPages_pos setting call db
  obtain ⟨n, hn⟩ : ∃ n, ((setting.runOf call).start db).maxPages = n + 1 :=
    ⟨((setting.runOf call).start db).maxPages - 1, by omega⟩
  have hreach : setting.reach call db = (setting.history.fills.drop p).take m ++
      ((setting.history.fills.drop p).take m).getLast?.toList.flatMap fun last =>
        setting.following last.id n := by
    rw [reach]
    simp only [hcursor, hanswer, hn, Nat.add_sub_cancel]
  -- a call that reads nothing has an empty segment
  have hnothing : (setting.scope.reading (setting.runOf call) db).1 = [] → ∀ t,
      t ∈ setting.scope.tradesRead (setting.runOf call) db ↔
        t ∈ segment setting.history.fills p p := by
    intro hempty t
    rw [mem_tradesRead_iff, hempty, segment_self]
    rfl
  have hreading : setting.scope.reading (setting.runOf call) db =
      readPages (setting.runOf call).fetch ((setting.runOf call).start db).since
        setting.scope.pageLimit (n + 1) 0 none := by
    rw [SyncScope.reading, hcursor, hn]
  rw [readPages] at hreading
  cases hfail : call.failure 0 with
  | some failure =>
    rcases fetch_of_failure call hfail
      ⟨((setting.runOf call).start db).since, setting.scope.pageLimit, none⟩ with
      ⟨code, message, h⟩ | h
    all_goals
      rw [h] at hreading
      have hread := hnothing (by rw [hreading])
      refine ⟨p, p, le_rfl, hp, hread, hwindow, fun t ht => ?_, fun hend => ?_⟩
      · exact absurd ((segment_self _ p t).mp ((hread t).mp ht)) List.not_mem_nil
      · rw [callEnd_eq_finished_iff, hreading] at hend
        rcases hend with h | h <;> cases h
  | none =>
    rw [fetch_eq call hfail, hanswer] at hreading
    cases hpage : (setting.history.fills.drop p).take m with
    | nil =>
      rw [hpage] at hreading hreach
      have hread := hnothing (by rw [hreading])
      refine ⟨p, p, le_rfl, hp, hread, hwindow, fun t ht => ?_, fun _ t ht => ?_⟩
      · exact absurd ((segment_self _ p t).mp ((hread t).mp ht)) List.not_mem_nil
      · rw [hreach] at ht
        cases ht
    | cons first rest =>
      have hbefore : p < setting.history.fills.length := by
        by_contra hge
        rw [List.drop_eq_nil_of_le (not_lt.mp hge), List.take_nil] at hpage
        cases hpage
      have hm : 0 < m := by
        by_contra hzero
        rw [Nat.eq_zero_of_not_pos hzero] at hpage
        cases hpage
      obtain ⟨q, last, hpq, hq, hlast, hgetLast, hmem, -⟩ := take_drop_spec hbefore hm
      rw [hpage] at hgetLast hmem hreading hreach
      have hnamed : last.id ≠ "" := (setting.history.numbered last (List.mem_of_getElem? hlast)).1
      have hnext : nextFuturesTradesCursor (first :: rest) none = some last.id := by
        unfold nextFuturesTradesCursor
        rw [hgetLast]
        dsimp only
        rw [if_neg hnamed, if_neg (by simp)]
      obtain ⟨e, hqe, he, hcover, hbound, hexhausted, hcapped⟩ := readPages_cursor call
        ((setting.runOf call).start db).since n 1 hlast
      dsimp only at hreading
      rw [hnext] at hreading
      have hread : ∀ t, t ∈ setting.scope.tradesRead (setting.runOf call) db ↔
          t ∈ segment setting.history.fills p (max (q + 1) e) := by
        intro t
        rw [mem_tradesRead_iff, hreading, List.flatten_cons, List.mem_append, hmem, hcover]
        exact segment_union hpq (by omega) t
      have hwithin : ∀ t, t ∈ setting.reach call db ↔ t ∈ segment setting.history.fills p
          (max (q + 1) (q + (n * (setting.scope.pageLimit - 1) + 1))) := by
        intro t
        rw [hreach, List.mem_append, hgetLast, Option.toList_some, List.flatMap_singleton, hmem,
          mem_following hlast]
        exact segment_union hpq (by omega) t
      generalize n * (setting.scope.pageLimit - 1) = reached at hbound hcapped hwithin
      refine ⟨p, max (q + 1) e, by omega, by omega, hread, hwindow, fun t ht => ?_,
        fun hend t ht => ?_⟩
      · obtain ⟨i, h₁, h₂, hi⟩ := (hread t).mp ht
        exact (hwithin t).mpr ⟨i, h₁, by omega, hi⟩
      · refine (hread t).mpr ((segment_congr (by omega) ?_ t).mpr ((hwithin t).mp ht))
        rw [callEnd_eq_finished_iff, hreading] at hend
        rcases hend with h | h
        · have := hexhausted h
          omega
        · rcases hcapped h with hnone | hall | hfar
          · omega
          · omega
          · omega

end SyncSetting

end AdviserConstructor
