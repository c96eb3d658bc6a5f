import AdviserConstructor.Backtest.Service
import AdviserConstructor.Library.HighWaterMark
import AdviserConstructor.Library.StepSystem

/-!
# The live paper ledger

`app/services/live_paper.py`: a strategy that runs on paper is simulated from the market data of the
moment at every poll, and the closed trades of that run are recorded whose exit is behind the latest
one seen before.  The candles that are fetched are the last ones of the stream, and the last of them
is still forming.  A unique key keeps the same trade from being recorded twice.

The stream says what the candles are once they are closed.  A poll fetches a window of it with a
forming candle of any prices.  What a ledger should have is what the strategy's run over the closed
candles has: the trades that exit by their own rule, since the start of the period.

* `ledgerFaithful_iff`: the ledger of a running period is faithful behind every poll exactly if
  every poll is harmless: past the mark, the run over the fetched candles closes what the run over
  the closed ones does, and by its own rule; up to the mark, the run over the closed candles has
  stayed as it was at the poll before; and no two of its positions are entered alike.
* `ledger_notFaithful`: the grid bot's closes at the end of the data are recorded, one for every
  poll; and an exit is lost on a bar that another exit was recorded on while it was forming.
-/

namespace AdviserConstructor

namespace Backtest

namespace LivePaper

/-! ## The ledger -/

def sideText : Option Side → String
  | some .long => "LONG"
  | some .short => "SHORT"
  | none => "UNKNOWN"

/-- `LivePaperTrade`, of one profile and strategy. -/
structure LivePaperTrade where
  strategyRevision : ℕ
  side : String
  entryTime : ℤ
  exitTime : ℤ
  entryPrice : ℚ
  exitPrice : ℚ
  pnlUsdt : ℚ
  status : String
  rawPayload : TradeRow
  deriving DecidableEq, Repr

def recordOf (revision : ℕ) (t : TradeRow) : LivePaperTrade where
  strategyRevision := revision
  side := sideText t.side
  entryTime := t.entryTime
  exitTime := t.exitTime
  entryPrice := t.entry
  exitPrice := t.exit.getD 0
  pnlUsdt := t.pnlUsdt
  status := "closed"
  rawPayload := t

/-- The columns of `uq_live_paper_trades_dedupe`. -/
def LivePaperTrade.dedupeKey (r : LivePaperTrade) : ℕ × ℤ × ℤ × String × ℚ :=
  (r.strategyRevision, r.entryTime, r.exitTime, r.side, r.entryPrice)

def LivePaperTrade.position (r : LivePaperTrade) : ℕ × ℤ × String × ℚ :=
  (r.strategyRevision, r.entryTime, r.side, r.entryPrice)

/-- A row is inserted, unless the unique key refuses it. -/
def insertTrade (rows : List LivePaperTrade) (row : LivePaperTrade) : List LivePaperTrade :=
  if rows.any fun r => r.dedupeKey = row.dedupeKey then rows else rows ++ [row]

/-- The loop of `_catch_up_for_strategy`: the rows, and the latest exit that was seen. -/
def catchUpLoop (revision : ℕ) (lastProcessedAt : Option ℤ) (now : ℤ) :
    List TradeRow → List LivePaperTrade × Option ℤ → List LivePaperTrade × Option ℤ
  | [], s => s
  | t :: ts, (rows, maxSeen) =>
      if t.isOpen then catchUpLoop revision lastProcessedAt now ts (rows, maxSeen)
      else if lastProcessedAt.any fun m => t.exitTime ≤ m then
        catchUpLoop revision lastProcessedAt now ts (rows, maxSeen)
      else if now < t.exitTime then catchUpLoop revision lastProcessedAt now ts (rows, maxSeen)
      else
        let seen :=
          match maxSeen with
          | none => t.exitTime
          | some m => if m < t.exitTime then t.exitTime else m
        catchUpLoop revision lastProcessedAt now ts
          (insertTrade rows (recordOf revision t), some seen)

/-! ## Strategies and candles -/

/-- A strategy: its run over a frame.  What the run reads beside the frame, such as the values of
its indicators and the forecast, goes with the frame. -/
structure Strategy where
  run : Frame → ServiceRun
  frame_run : ∀ df, (run df).run.frame = df

/-- The trades of the run over a frame. -/
def Strategy.trades (strategy : Strategy) (df : Frame) : List TradeRow :=
  (strategy.run df).result.trades

/-- The candles of a market, as they are once they are closed. -/
structure CandleStream where
  bar : ℕ → Bar
  time_lt : ∀ i, (bar i).time < (bar (i + 1)).time

/-- The candles `0..k - 1`. -/
def CandleStream.closedCandles (stream : CandleStream) (k : ℕ) : Frame :=
  (List.range k).map stream.bar

/-- A poll: the number of candles that are closed, the one that is forming, and whether the market
data can be had. -/
structure Poll where
  now : ℤ
  closed : ℕ
  forming : Bar
  answered : Bool := true
  deriving DecidableEq, Repr

/-- The candle after the closed ones is forming. -/
def Poll.Valid (stream : CandleStream) (p : Poll) : Prop :=
  p.forming.time = (stream.bar p.closed).time ∧ p.forming.time ≤ p.now ∧
    p.now < (stream.bar (p.closed + 1)).time

instance (stream : CandleStream) (p : Poll) : Decidable (p.Valid stream) :=
  inferInstanceAs (Decidable (_ ∧ _ ∧ _))

/-- The candles that are fetched: the last `window` ones. -/
def Poll.fetched (stream : CandleStream) (window : ℕ) (p : Poll) : Frame :=
  (stream.closedCandles p.closed ++ [p.forming]).drop (p.closed + 1 - window)

/-! ## A running period -/

/-- The profile in a running period: its trades and `last_processed_at`, and the moment of the last
poll that got through, with the candles that were closed then. -/
structure Period where
  trades : List LivePaperTrade
  lastProcessedAt : Option ℤ
  clock : ℤ
  closed : ℕ
  deriving DecidableEq, Repr

/-- `set_running` turns the strategy on. -/
def Period.play (trades : List LivePaperTrade) (now : ℤ) : Period where
  trades := trades
  lastProcessedAt := some now
  clock := now
  closed := 0

/-- The high-water mark, which is there as long as the strategy runs. -/
def Period.mark (s : Period) : ℤ := s.lastProcessedAt.getD s.clock

section

variable (strategy : Strategy) (stream : CandleStream) (window revision : ℕ)

/-- `poll_profile` of a running profile. -/
def pollProfile (s : Period) (p : Poll) : Option Period :=
  if p.Valid stream ∧ s.clock ≤ p.now then
    if p.answered then
      let caught := catchUpLoop revision s.lastProcessedAt p.now
        (strategy.trades (p.fetched stream window)) (s.trades, s.lastProcessedAt)
      some { trades := caught.1, lastProcessedAt := caught.2, clock := p.now, closed := p.closed }
    else some s
  else none

end

/-- The trade exits by its own rule, and not because the data end. -/
def OwnRule (t : TradeRow) : Prop :=
  t.exitReason ≠ some .openAtEnd ∧ t.exitReason ≠ some .eodClose

instance (t : TradeRow) : Decidable (OwnRule t) := inferInstanceAs (Decidable (_ ∧ _))

/-- The trades that a run closes past a mark, the first of each unique key. -/
def closedPast (mark now : ℤ) (trades : List TradeRow) : List TradeRow :=
  HighWaterMark.taken TradeRow.exitTime
    (fun t => (t.entryTime, t.exitTime, sideText t.side, t.entry)) mark now (closedRows trades)

section

variable (strategy : Strategy) (stream : CandleStream) (window revision : ℕ) (start : ℤ)

def Period.recorded (s : Period) : List LivePaperTrade :=
  s.trades.filter fun r => start < r.exitTime

/-- The ledger is faithful: a position is recorded once at most, and what is recorded are the trades
of the run over the closed candles which exit by their own rule inside the period. -/
structure Faithful (s : Period) : Prop where
  once : ((s.recorded start).map LivePaperTrade.position).Nodup
  exact : ∀ r, r ∈ s.recorded start ↔
    ∃ t ∈ strategy.trades (stream.closedCandles s.closed), OwnRule t ∧ start < t.exitTime ∧
      t.exitTime ≤ s.clock ∧ r = recordOf revision t

/-- The conditions on a poll. -/
structure Harmless (s : Period) (p : Poll) : Prop where
  /-- nothing is closed past the mark because the data end -/
  ownRule : ∀ t ∈ closedPast s.mark p.now (strategy.trades (p.fetched stream window)), OwnRule t
  /-- past the mark, the run over the fetched candles closes what the run over the closed ones
  does -/
  sameTrades : ∀ t, OwnRule t → s.mark < t.exitTime → t.exitTime ≤ p.now →
    (t ∈ closedPast s.mark p.now (strategy.trades (p.fetched stream window)) ↔
      t ∈ strategy.trades (stream.closedCandles p.closed))
  /-- up to the mark, the run over the closed candles has stayed as it was -/
  settled : ∀ t, OwnRule t → start < t.exitTime → t.exitTime ≤ s.mark →
    (t ∈ strategy.trades (stream.closedCandles p.closed) ↔
      t ∈ strategy.trades (stream.closedCandles s.closed))
  /-- no two positions of the period are entered alike -/
  distinct : ∀ t ∈ strategy.trades (stream.closedCandles p.closed),
    ∀ u ∈ strategy.trades (stream.closedCandles p.closed), OwnRule t → OwnRule u →
      start < t.exitTime → t.exitTime ≤ p.now → start < u.exitTime → u.exitTime ≤ p.now →
        (recordOf revision t).position = (recordOf revision u).position → t = u

end

/-! ## The loop -/

section

variable {strategy : Strategy} {stream : CandleStream} {window revision : ℕ} {start : ℤ}

theorem recordOf_injective : Function.Injective (recordOf revision) :=
  fun _ _ h => congrArg LivePaperTrade.rawPayload h

theorem dedupeKey_recordOf (t u : TradeRow) :
    (recordOf revision t).dedupeKey = (recordOf revision u).dedupeKey ↔
      (t.entryTime, t.exitTime, sideText t.side, t.entry) =
        (u.entryTime, u.exitTime, sideText u.side, u.entry) := by
  constructor
  · exact fun h => congrArg Prod.snd h
  · exact fun h => congrArg (Prod.mk revision) h

theorem exitTime_of_dedupeKey {r r' : LivePaperTrade} (h : r.dedupeKey = r'.dedupeKey) :
    r.exitTime = r'.exitTime :=
  congrArg (fun k => k.2.2.1) h

/-- The rows that are offered to the ledger. -/
def offers (revision : ℕ) (trades : List TradeRow) : List LivePaperTrade :=
  (closedRows trades).map (recordOf revision)

def Period.ledger (s : Period) : HighWaterMark.Ledger LivePaperTrade ℤ := ⟨s.trades, s.mark⟩

theorem catchUpLoop_some (mark now : ℤ) (trades : List TradeRow) :
    ∀ (rows : List LivePaperTrade) (seen : ℤ),
      catchUpLoop revision (some mark) now trades (rows, some seen) =
        ((HighWaterMark.pastMark LivePaperTrade.exitTime mark now (offers revision trades)).foldl
            insertTrade rows,
          some (((HighWaterMark.pastMark LivePaperTrade.exitTime mark now
            (offers revision trades)).map LivePaperTrade.exitTime).foldl max seen)) := by
  induction trades with
  | nil => exact fun _ _ => rfl
  | cons t trades ih =>
    intro rows seen
    rw [catchUpLoop]
    by_cases hopen : t.isOpen = true
    · have hoffers : offers revision (t :: trades) = offers revision trades := by
        rw [offers, closedRows, List.filter_cons_of_neg (by rw [hopen]; decide)]
        rfl
      rw [if_pos hopen, ih, hoffers]
    · have hoffers : offers revision (t :: trades) =
          recordOf revision t :: offers revision trades := by
        rw [offers, closedRows, List.filter_cons_of_pos (by simpa using hopen)]
        rfl
      rw [if_neg hopen, hoffers, HighWaterMark.pastMark]
      by_cases hmark : t.exitTime ≤ mark
      · rw [if_pos (show (some mark).any (fun m => decide (t.exitTime ≤ m)) = true from
          decide_eq_true hmark), ih, List.filter_cons_of_neg]
        · rfl
        · rw [decide_eq_true_eq]
          exact fun hpast => absurd hmark (not_le.mpr hpast.1)
      · have hnot : ¬ (some mark).any (fun m => decide (t.exitTime ≤ m)) = true := by
          rw [Option.any_some, decide_eq_true_eq]
          exact hmark
        rw [if_neg hnot]
        by_cases hlate : now < t.exitTime
        · rw [if_pos hlate, ih, List.filter_cons_of_neg]
          · rfl
          · rw [decide_eq_true_eq]
            exact fun hpast => absurd hlate (not_lt.mpr hpast.2)
        · rw [if_neg hlate, List.filter_cons_of_pos]
          · have hseen : (if seen < t.exitTime then t.exitTime else seen) =
                max seen t.exitTime := by
              split
              · rename_i hlt
                exact (max_eq_right hlt.le).symm
              · rename_i hge
                exact (max_eq_left (not_lt.mp hge)).symm
            rw [hseen, ih]
            rfl
          · rw [decide_eq_true_eq]
            exact ⟨not_le.mp hmark, not_lt.mp hlate⟩

/-! ## Faithful polls -/

/-- What the run over the closed candles should have recorded. -/
def Reference (strategy : Strategy) (stream : CandleStream) (revision closed : ℕ)
    (r : LivePaperTrade) : Prop :=
  ∃ t ∈ strategy.trades (stream.closedCandles closed), OwnRule t ∧ r = recordOf revision t

theorem taken_offers (mark now : ℤ) (trades : List TradeRow) :
    HighWaterMark.taken LivePaperTrade.exitTime LivePaperTrade.dedupeKey mark now
        (offers revision trades) =
      (closedPast mark now trades).map (recordOf revision) :=
  HighWaterMark.taken_map (fun _ => rfl) dedupeKey_recordOf _

/-- What a running period keeps: there is a mark, the rows are up to it, and their keys are
unique. -/
structure Period.Running (start : ℤ) (s : Period) : Prop where
  mark : s.lastProcessedAt = some s.mark
  order : HighWaterMark.InOrder LivePaperTrade.exitTime start s.clock s.ledger
  keys : (s.trades.map LivePaperTrade.dedupeKey).Nodup

variable {s s' : Period}

theorem pollProfile_answered {p : Poll} (hs : s.Running start) (hp : p.answered = true)
    (h : pollProfile strategy stream window revision s p = some s') :
    s.clock ≤ p.now ∧ s'.clock = p.now ∧ s'.closed = p.closed ∧
      s'.lastProcessedAt = some s'.mark ∧
      s'.ledger = HighWaterMark.ingest LivePaperTrade.exitTime LivePaperTrade.dedupeKey p.now
        (offers revision (strategy.trades (p.fetched stream window))) s.ledger := by
  rw [pollProfile] at h
  by_cases hvalid : p.Valid stream ∧ s.clock ≤ p.now
  · rw [if_pos hvalid, if_pos hp, hs.mark, catchUpLoop_some] at h
    obtain rfl := Option.some.inj h
    exact ⟨hvalid.2, rfl, rfl, rfl, rfl⟩
  · rw [if_neg hvalid] at h
    cases h

theorem pollProfile_unanswered {p : Poll} (hp : p.answered = false)
    (h : pollProfile strategy stream window revision s p = some s') : s' = s := by
  rw [pollProfile] at h
  by_cases hvalid : p.Valid stream ∧ s.clock ≤ p.now
  · rw [if_pos hvalid, hp] at h
    exact (Option.some.inj h).symm
  · rw [if_neg hvalid] at h
    cases h

theorem Period.Running.poll {p : Poll} (hs : s.Running start)
    (h : pollProfile strategy stream window revision s p = some s') : s'.Running start := by
  cases hp : p.answered with
  | false =>
    rw [pollProfile_unanswered hp h]
    exact hs
  | true =>
    obtain ⟨hnow, hclock, -, hmark, hledger⟩ := pollProfile_answered hs hp h
    refine ⟨hmark, ?_, ?_⟩
    · rw [hclock, hledger]
      exact hs.order.ingest hnow
    · have htrades : s'.trades = (HighWaterMark.ingest LivePaperTrade.exitTime
          LivePaperTrade.dedupeKey p.now
          (offers revision (strategy.trades (p.fetched stream window))) s.ledger).rows :=
        congrArg HighWaterMark.Ledger.rows hledger
      rw [htrades]
      exact HighWaterMark.nodup_foldl_insertNew _ hs.keys

theorem mem_recorded {r : LivePaperTrade} :
    r ∈ s.recorded start ↔ r ∈ s.trades ∧ start < r.exitTime := by
  rw [Period.recorded, List.mem_filter, decide_eq_true_eq]

theorem exact_iff_tracks :
    (∀ r, r ∈ s.recorded start ↔
        ∃ t ∈ strategy.trades (stream.closedCandles s.closed), OwnRule t ∧ start < t.exitTime ∧
          t.exitTime ≤ s.clock ∧ r = recordOf revision t) ↔
      HighWaterMark.Tracks LivePaperTrade.exitTime start s.clock
        (Reference strategy stream revision s.closed) s.ledger := by
  refine forall_congr' fun r => ?_
  rw [mem_recorded]
  refine iff_congr Iff.rfl ⟨?_, ?_⟩
  · rintro ⟨t, ht, hown, hstart, hclock, rfl⟩
    exact ⟨⟨t, ht, hown, rfl⟩, hstart, hclock⟩
  · rintro ⟨⟨t, ht, hown, rfl⟩, hstart, hclock⟩
    exact ⟨t, ht, hown, hstart, hclock, rfl⟩

theorem once_iff_distinct (hkeys : (s.trades.map LivePaperTrade.dedupeKey).Nodup)
    (hexact : ∀ r, r ∈ s.recorded start ↔
      ∃ t ∈ strategy.trades (stream.closedCandles s.closed), OwnRule t ∧ start < t.exitTime ∧
        t.exitTime ≤ s.clock ∧ r = recordOf revision t) :
    ((s.recorded start).map LivePaperTrade.position).Nodup ↔
      ∀ t ∈ strategy.trades (stream.closedCandles s.closed),
        ∀ u ∈ strategy.trades (stream.closedCandles s.closed), OwnRule t → OwnRule u →
          start < t.exitTime → t.exitTime ≤ s.clock → start < u.exitTime → u.exitTime ≤ s.clock →
            (recordOf revision t).position = (recordOf revision u).position → t = u := by
  have hnodup : (s.recorded start).Nodup := (List.Nodup.of_map _ hkeys).filter _
  rw [List.nodup_map_iff_inj_on hnodup]
  constructor
  · intro h t ht u hu htown huown htstart htclock hustart huclock hposition
    refine @recordOf_injective revision t u (h _ ?_ _ ?_ hposition)
    · exact (hexact _).mpr ⟨t, ht, htown, htstart, htclock, rfl⟩
    · exact (hexact _).mpr ⟨u, hu, huown, hustart, huclock, rfl⟩
  · intro h r hr r' hr' hposition
    obtain ⟨t, ht, htown, htstart, htclock, rfl⟩ := (hexact r).mp hr
    obtain ⟨u, hu, huown, hustart, huclock, rfl⟩ := (hexact r').mp hr'
    rw [h t ht u hu htown huown htstart htclock hustart huclock hposition]

/-- The rows that a poll takes are those of the run over the closed candles past the mark, exactly
if the trades are, and exit by their own rule. -/
theorem news_iff {mark now : ℤ} {trades : List TradeRow} {closed : ℕ} :
    (∀ r : LivePaperTrade, mark < r.exitTime → r.exitTime ≤ now →
        (r ∈ (closedPast mark now trades).map (recordOf revision) ↔
          Reference strategy stream revision closed r)) ↔
      (∀ t ∈ closedPast mark now trades, OwnRule t) ∧
      ∀ t, OwnRule t → mark < t.exitTime → t.exitTime ≤ now →
        (t ∈ closedPast mark now trades ↔ t ∈ strategy.trades (stream.closedCandles closed)) := by
  have hpast : ∀ t ∈ closedPast mark now trades, mark < t.exitTime ∧ t.exitTime ≤ now :=
    fun t ht => (HighWaterMark.mem_pastMark.mp (HighWaterMark.mem_pastMark_of_mem_taken ht)).2
  have hmem : ∀ t : TradeRow, recordOf revision t ∈ (closedPast mark now trades).map
      (recordOf revision) ↔ t ∈ closedPast mark now trades := by
    exact fun t => List.mem_map_of_injective recordOf_injective
  constructor
  · intro h
    refine ⟨fun t ht => ?_, fun t hown hmark hnow => ?_⟩
    · obtain ⟨hmark, hnow⟩ := hpast t ht
      obtain ⟨u, -, hown, heq⟩ := (h (recordOf revision t) hmark hnow).mp ((hmem t).mpr ht)
      rw [recordOf_injective heq]
      exact hown
    · rw [← hmem, h (recordOf revision t) hmark hnow]
      constructor
      · rintro ⟨u, hu, -, heq⟩
        rw [recordOf_injective heq]
        exact hu
      · exact fun ht => ⟨t, ht, hown, rfl⟩
  · rintro ⟨hown, hsame⟩ r hmark hnow
    constructor
    · intro hr
      obtain ⟨t, ht, rfl⟩ := List.mem_map.mp hr
      exact ⟨t, (hsame t (hown t ht) hmark hnow).mp ht, hown t ht, rfl⟩
    · rintro ⟨t, ht, hrule, rfl⟩
      exact (hmem t).mpr ((hsame t hrule hmark hnow).mpr ht)

theorem settled_iff {mark : ℤ} {closed closed' : ℕ} :
    (∀ r : LivePaperTrade, start < r.exitTime → r.exitTime ≤ mark →
        (Reference strategy stream revision closed' r ↔
          Reference strategy stream revision closed r)) ↔
      ∀ t, OwnRule t → start < t.exitTime → t.exitTime ≤ mark →
        (t ∈ strategy.trades (stream.closedCandles closed') ↔
          t ∈ strategy.trades (stream.closedCandles closed)) := by
  have hreference : ∀ (k : ℕ) (t : TradeRow), OwnRule t →
      (Reference strategy stream revision k (recordOf revision t) ↔
        t ∈ strategy.trades (stream.closedCandles k)) := by
    intro k t hown
    constructor
    · rintro ⟨u, hu, -, heq⟩
      rw [recordOf_injective heq]
      exact hu
    · exact fun ht => ⟨t, ht, hown, rfl⟩
  constructor
  · intro h t hown hstart hmark
    rw [← hreference closed' t hown, ← hreference closed t hown]
    exact h _ hstart hmark
  · intro h r hstart hmark
    constructor
    · rintro ⟨t, ht, hown, rfl⟩
      exact ⟨t, (h t hown hstart hmark).mp ht, hown, rfl⟩
    · rintro ⟨t, ht, hown, rfl⟩
      exact ⟨t, (h t hown hstart hmark).mpr ht, hown, rfl⟩

theorem faithful_poll_iff {p : Poll} (hs : s.Running start)
    (hfaithful : Faithful strategy stream revision start s) (hp : p.answered = true)
    (h : pollProfile strategy stream window revision s p = some s') :
    Faithful strategy stream revision start s' ↔
      Harmless strategy stream window revision start s p := by
  obtain ⟨hnow, hclock, hclosed, -, hledger⟩ := pollProfile_answered hs hp h
  have hkeys := (hs.poll h).keys
  have htracks := exact_iff_tracks.mp hfaithful.exact
  have hexact : (∀ r, r ∈ s'.recorded start ↔
      ∃ t ∈ strategy.trades (stream.closedCandles s'.closed), OwnRule t ∧ start < t.exitTime ∧
        t.exitTime ≤ s'.clock ∧ r = recordOf revision t) ↔
      ((∀ t ∈ closedPast s.mark p.now (strategy.trades (p.fetched stream window)), OwnRule t) ∧
        ∀ t, OwnRule t → s.mark < t.exitTime → t.exitTime ≤ p.now →
          (t ∈ closedPast s.mark p.now (strategy.trades (p.fetched stream window)) ↔
            t ∈ strategy.trades (stream.closedCandles p.closed))) ∧
        ∀ t, OwnRule t → start < t.exitTime → t.exitTime ≤ s.mark →
          (t ∈ strategy.trades (stream.closedCandles p.closed) ↔
            t ∈ strategy.trades (stream.closedCandles s.closed)) := by
    rw [exact_iff_tracks, hclock, hclosed, hledger,
      HighWaterMark.tracks_ingest_iff (fun _ _ => exitTime_of_dedupeKey) hs.order hnow htracks,
      taken_offers]
    exact and_congr news_iff settled_iff
  constructor
  · intro hafter
    obtain ⟨⟨hown, hsame⟩, hsettled⟩ := hexact.mp hafter.exact
    have hdistinct := (once_iff_distinct hkeys hafter.exact).mp hafter.once
    rw [hclock, hclosed] at hdistinct
    exact ⟨hown, hsame, hsettled, hdistinct⟩
  · rintro ⟨hown, hsame, hsettled, hdistinct⟩
    have hexact' := hexact.mpr ⟨⟨hown, hsame⟩, hsettled⟩
    refine ⟨(once_iff_distinct hkeys hexact').mpr ?_, hexact'⟩
    rw [hclock, hclosed]
    exact hdistinct

theorem running_play {trades : List LivePaperTrade}
    (hkeys : (trades.map LivePaperTrade.dedupeKey).Nodup)
    (hold : ∀ r ∈ trades, r.exitTime ≤ start) : (Period.play trades start).Running start :=
  ⟨rfl, ⟨hold, le_refl _, le_refl _⟩, hkeys⟩

theorem faithful_play {trades : List LivePaperTrade} (hold : ∀ r ∈ trades, r.exitTime ≤ start) :
    Faithful strategy stream revision start (Period.play trades start) := by
  have hnone : (Period.play trades start).recorded start = [] := by
    refine List.filter_eq_nil_iff.mpr fun r hr => ?_
    rw [decide_eq_true_eq]
    exact not_lt.mpr (hold r hr)
  constructor
  · rw [hnone]
    exact List.nodup_nil
  · intro r
    rw [hnone]
    refine iff_of_false List.not_mem_nil ?_
    rintro ⟨t, -, -, hstart, hclock, -⟩
    exact absurd hstart (not_lt.mpr hclock)

/-- **The live paper ledger.**  In a period that begins with rows of earlier ones, the ledger is
faithful behind every poll exactly if every poll that gets through is harmless. -/
theorem ledgerFaithful_iff {trades : List LivePaperTrade} {polls : List Poll} {t : Period}
    (hkeys : (trades.map LivePaperTrade.dedupeKey).Nodup)
    (hold : ∀ r ∈ trades, r.exitTime ≤ start)
    (hrun : StepSystem.run (pollProfile strategy stream window revision)
      (Period.play trades start) polls = some t) :
    (∀ front u, front <+: polls →
        StepSystem.run (pollProfile strategy stream window revision)
          (Period.play trades start) front = some u →
        Faithful strategy stream revision start u) ↔
      StepSystem.AlongRun (pollProfile strategy stream window revision)
        (fun s p => p.answered = true → Harmless strategy stream window revision start s p)
        (Period.play trades start) polls := by
  have hrunning := @running_play start trades hkeys hold
  have hfaithful := @faithful_play strategy stream revision start trades hold
  rw [StepSystem.forall_prefix_iff_alongRun, and_iff_right hfaithful]
  refine StepSystem.alongRun_iff_of_invariant _
    (I := fun s => s.Running start ∧ Faithful strategy stream revision start s)
    (fun s p s' hs hafter hstep => ⟨hs.1.poll hstep, hafter s' hstep⟩)
    (fun s p s' hs hstep => ?_) ⟨hrunning, hfaithful⟩ hrun
  cases hp : p.answered with
  | false =>
    refine iff_of_true (fun s'' hs'' => ?_) fun h => absurd h Bool.false_ne_true
    rw [pollProfile_unanswered hp hs'']
    exact hs.2
  | true =>
    rw [forall_prop_of_true rfl, ← faithful_poll_iff hs.1 hs.2 hp hstep]
    refine ⟨fun hafter => hafter s' hstep, fun hafter s'' hs'' => ?_⟩
    rw [hstep] at hs''
    exact Option.some.inj hs'' ▸ hafter

theorem harmless_of_eq {p : Poll}
    (hnews : closedPast s.mark p.now (strategy.trades (p.fetched stream window)) =
      (strategy.trades (stream.closedCandles p.closed)).filter fun t =>
        OwnRule t ∧ s.mark < t.exitTime ∧ t.exitTime ≤ p.now)
    (hsettled : (strategy.trades (stream.closedCandles p.closed)).filter (fun t =>
        OwnRule t ∧ start < t.exitTime ∧ t.exitTime ≤ s.mark) =
      (strategy.trades (stream.closedCandles s.closed)).filter fun t =>
        OwnRule t ∧ start < t.exitTime ∧ t.exitTime ≤ s.mark)
    (hdistinct : (((strategy.trades (stream.closedCandles p.closed)).filter fun t =>
        OwnRule t ∧ start < t.exitTime ∧ t.exitTime ≤ p.now).map fun t =>
          (recordOf revision t).position).Nodup) :
    Harmless strategy stream window revision start s p where
  ownRule := by
    intro t ht
    rw [hnews, List.mem_filter, decide_eq_true_eq] at ht
    exact ht.2.1
  sameTrades := by
    intro t hown hmark hnow
    rw [hnews, List.mem_filter, decide_eq_true_eq]
    exact and_iff_left ⟨hown, hmark, hnow⟩
  settled := by
    intro t hown hstart hmark
    have hmem := congrArg (t ∈ ·) hsettled
    simp only [List.mem_filter, decide_eq_true_eq, eq_iff_iff] at hmem
    rwa [and_iff_left ⟨hown, hstart, hmark⟩, and_iff_left ⟨hown, hstart, hmark⟩] at hmem
  distinct := by
    intro t ht u hu htown huown htstart htnow hustart hunow hposition
    refine List.inj_on_of_nodup_map hdistinct ?_ ?_ hposition
    · exact List.mem_filter.mpr ⟨ht, decide_eq_true ⟨htown, htstart, htnow⟩⟩
    · exact List.mem_filter.mpr ⟨hu, decide_eq_true ⟨huown, hustart, hunow⟩⟩

end

/-! ## A grid bot on paper -/

/-- A stream whose candle `i` opens at the time `i`. -/
def candlesOf (bar : ℕ → Bar) : CandleStream where
  bar i := { bar i with time := i }
  time_lt i := by
    show (i : ℤ) < ((i + 1 : ℕ) : ℤ)
    omega

/-- The price falls on candle 4, and `after` comes next; then it stays at `last`. -/
def fallStream (after : Bar) (last : ℚ) : CandleStream :=
  candlesOf fun i =>
    if i < 4 then ⟨0, 100, 101, 100, 100, 1⟩
    else if i = 4 then ⟨0, 195 / 2, 195 / 2, 90, 195 / 2, 1⟩
    else if i = 5 then after
    else ⟨0, last, last, last, last, 1⟩

def gridStrategy (p : GridParams) : Strategy where
  run df := { run := .gridBot p df }
  frame_run _ := rfl

/-- A poll at the time `i`, when candle `i` has just opened at the price `price`. -/
def pollAt (i : ℕ) (price : ℚ) : Poll where
  now := i
  closed := i
  forming := ⟨i, price, price, price, price, 1⟩

/-- Two levels of the grid, which are not closed at the end. -/
def twoLevels : GridParams :=
  { oneLevel with gridsDown := 2, orderSizeUsdt := some 100, closeOpenPositionsOnEod := false }

/-- A take-profit that is recorded once its candle is closed. -/
theorem ledgerFaithful_takeProfit :
    ∃ u, StepSystem.run (pollProfile
        (gridStrategy { oneLevel with closeOpenPositionsOnEod := false })
        (fallStream ⟨0, 98, 99, 98, 99, 1⟩ 99) 100 1) (Period.play [] 4)
        [pollAt 5 98, pollAt 6 99] = some u ∧
      Faithful (gridStrategy { oneLevel with closeOpenPositionsOnEod := false })
        (fallStream ⟨0, 98, 99, 98, 99, 1⟩ 99) 1 4 u := by
  obtain ⟨t, ht⟩ := Option.isSome_iff_exists.mp
    (show (StepSystem.run (pollProfile
          (gridStrategy { oneLevel with closeOpenPositionsOnEod := false })
          (fallStream ⟨0, 98, 99, 98, 99, 1⟩ 99) 100 1) (Period.play [] 4)
          [pollAt 5 98, pollAt 6 99]).isSome by decide +kernel)
  have hkeys : (([] : List LivePaperTrade).map LivePaperTrade.dedupeKey).Nodup := List.nodup_nil
  refine ⟨t, ht, (ledgerFaithful_iff hkeys (fun r hr => absurd hr List.not_mem_nil) ht).mpr ?_ _ t
    (List.prefix_refl _) ht⟩
  have hstep : pollProfile (gridStrategy { oneLevel with closeOpenPositionsOnEod := false })
      (fallStream ⟨0, 98, 99, 98, 99, 1⟩ 99) 100 1 (Period.play [] 4) (pollAt 5 98) =
        some { trades := [], lastProcessedAt := some 4, clock := 5, closed := 5 } := by
    decide +kernel
  refine (StepSystem.alongRun_cons _ hstep).mpr ⟨fun _ => ?_, fun _ => ?_, ?_⟩
  · exact harmless_of_eq (by decide +kernel) (by decide +kernel) (by decide +kernel)
  · exact harmless_of_eq (by decide +kernel) (by decide +kernel) (by decide +kernel)
  · split
    · trivial
    · trivial

/-- A grid bot whose position is open when the data end is recorded at every poll, for the same
position; and one whose lower level is taken off while a candle is forming loses the exit of the
upper level on the same candle. -/
theorem ledger_notFaithful :
    (∃ u, StepSystem.run (pollProfile (gridStrategy oneLevel)
        (fallStream ⟨0, 98, 98, 97, 97, 1⟩ 97) 100 1) (Period.play [] 4)
        [pollAt 5 97, pollAt 6 97] = some u ∧
      ¬ Faithful (gridStrategy oneLevel) (fallStream ⟨0, 98, 98, 97, 97, 1⟩ 97) 1 4 u ∧
      ¬ ((u.recorded 4).map LivePaperTrade.position).Nodup) ∧
    ∃ u, StepSystem.run (pollProfile (gridStrategy twoLevels)
        (fallStream ⟨0, 98, 99, 98, 99, 1⟩ 99) 100 1) (Period.play [] 4)
        [pollAt 5 98, pollAt 6 99] = some u ∧
      ¬ Faithful (gridStrategy twoLevels) (fallStream ⟨0, 98, 99, 98, 99, 1⟩ 99) 1 4 u := by
  constructor
  · obtain ⟨u, hu⟩ := Option.isSome_iff_exists.mp
      (show (StepSystem.run (pollProfile (gridStrategy oneLevel)
        (fallStream ⟨0, 98, 98, 97, 97, 1⟩ 97) 100 1) (Period.play [] 4)
        [pollAt 5 97, pollAt 6 97]).isSome by decide +kernel)
    have htwice : ∀ u ∈ StepSystem.run (pollProfile (gridStrategy oneLevel)
        (fallStream ⟨0, 98, 98, 97, 97, 1⟩ 97) 100 1) (Period.play [] 4)
        [pollAt 5 97, pollAt 6 97], ¬ ((u.recorded 4).map LivePaperTrade.position).Nodup := by
      decide +kernel
    exact ⟨u, hu, fun hfaithful => htwice u hu hfaithful.once, htwice u hu⟩
  · obtain ⟨u, hu⟩ := Option.isSome_iff_exists.mp
      (show (StepSystem.run (pollProfile (gridStrategy twoLevels)
        (fallStream ⟨0, 98, 99, 98, 99, 1⟩ 99) 100 1) (Period.play [] 4)
        [pollAt 5 98, pollAt 6 99]).isSome by decide +kernel)
    have hlost : ∀ u ∈ StepSystem.run (pollProfile (gridStrategy twoLevels)
        (fallStream ⟨0, 98, 99, 98, 99, 1⟩ 99) 100 1) (Period.play [] 4)
        [pollAt 5 98, pollAt 6 99],
        ∃ t ∈ (gridStrategy twoLevels).trades
            ((fallStream ⟨0, 98, 99, 98, 99, 1⟩ 99).closedCandles u.closed),
          OwnRule t ∧ 4 < t.exitTime ∧ t.exitTime ≤ u.clock ∧
            recordOf 1 t ∉ u.recorded 4 := by
      decide +kernel
    refine ⟨u, hu, fun hfaithful => ?_⟩
    obtain ⟨t, ht, hown, hstart, hclock, hnot⟩ := hlost u hu
    exact hnot ((hfaithful.exact _).mpr ⟨t, ht, hown, hstart, hclock, rfl⟩)

end LivePaper

end Backtest

end AdviserConstructor
