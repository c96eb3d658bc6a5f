import AdviserConstructor.Ledger.TradeSync
import AdviserConstructor.Library.StepSystem

/-!
# The cursor of the trade sync

`last_trade_id` is where the next incremental call begins to read.  It ought to be the newest trade
id in the ledger.  Both routines keep it as the greatest of the ids they have seen, and compare the
ids as texts: as texts, 9 comes after 10.

* `foldl_laterTradeId_spec`: the cursor after a call is the textually greatest of the cursor before
  and the ids read;
* `highWater_sync_iff`: a call keeps the high-water mark exactly if one of these is the greatest
  both as a number and as a text; a call of the account-wide routine that the exchange interrupts
  keeps it exactly if it has stored nothing above the mark;
* `highWater_iff`: the same for every call of every sequence of calls, with whatever pages.
-/

namespace AdviserConstructor

open DecimalText StepSystem

/-! ## Trade ids -/

def IsTradeNumber (id : String) : Prop := id ≠ "" ∧ ∀ c ∈ id.toList, c.isDigit = true

def tradeNumber (id : String) : ℕ := digitsValue id.toList

/-- The cursor after some ids is the greatest text among them and the cursor before. -/
theorem foldl_laterTradeId_spec {ids : List String} (hids : ∀ id ∈ ids, id ≠ "")
    (mark : Option String) :
    (ids.foldl laterTradeId mark = none → mark = none ∧ ids = []) ∧
      ∀ greatest, ids.foldl laterTradeId mark = some greatest →
        greatest ∈ mark.toList ++ ids ∧ ∀ id ∈ mark.toList ++ ids, codes id ≤ codes greatest := by
  induction ids generalizing mark with
  | nil =>
    refine ⟨fun h => ⟨h, rfl⟩, fun greatest h => ?_⟩
    rw [List.foldl_nil] at h
    simp [h]
  | cons id ids ih =>
    obtain ⟨hnone, hsome⟩ := ih (fun id' hmem => hids id' (List.mem_cons_of_mem _ hmem))
      (laterTradeId mark id)
    have hid : id ≠ "" := hids id (List.mem_cons_self ..)
    -- one id: the later of the two is the cursor
    obtain ⟨later, hlater, hmem, hmark, hle⟩ : ∃ later, laterTradeId mark id = some later ∧
        later ∈ mark.toList ++ [id] ∧ (∀ old ∈ mark, codes old ≤ codes later) ∧
          codes id ≤ codes later := by
      unfold laterTradeId
      cases mark with
      | none => exact ⟨id, by simp [hid], by simp, by simp, le_rfl⟩
      | some old =>
        cases hlt : textBefore old id with
        | true =>
          have hle : codes old ≤ codes id := ((textBefore_iff old id).mp hlt).le
          exact ⟨id, by simp [hid, hlt], by simp, by simpa using hle, le_rfl⟩
        | false =>
          have hle : codes id ≤ codes old := (not_textBefore_iff old id).mp hlt
          exact ⟨old, by simp [hlt], by simp, by simp, hle⟩
    rw [hlater] at hnone hsome
    rw [List.foldl_cons, hlater]
    refine ⟨fun h => absurd (hnone h).1 (by simp), fun greatest h => ?_⟩
    obtain ⟨hgreatest, hall⟩ := hsome greatest h
    have hlaterLe : codes later ≤ codes greatest := hall later (by simp)
    constructor
    · simp only [Option.toList_some, List.mem_append, List.mem_singleton] at hgreatest hmem ⊢
      rcases hgreatest with rfl | hrest
      · rcases hmem with hold | rfl
        · exact Or.inl hold
        · exact Or.inr (List.mem_cons_self ..)
      · exact Or.inr (List.mem_cons_of_mem _ hrest)
    · intro other hother
      simp only [List.mem_append, Option.mem_toList, List.mem_cons] at hother
      rcases hother with hold | rfl | hrest
      · exact (hmark other hold).trans hlaterLe
      · exact hle.trans hlaterLe
      · exact hall other (by simp [hrest])

theorem noteTrades_maxTradeId (now : ℚ) (loop : SyncLoop) (trades : List NormalizedTrade) :
    (trades.foldl (SyncLoop.noteTrade now) loop).maxTradeId =
      (trades.map NormalizedTrade.id).foldl laterTradeId loop.maxTradeId := by
  induction trades generalizing loop with
  | nil => rfl
  | cons trade trades ih =>
    rw [List.foldl_cons, ih, List.map_cons]
    rfl

/-! ## The high-water mark -/

/-- The database, with the cursors that the calls so far have left. -/
structure MarkedDb where
  db : SyncDb := {}
  marks : List String := []

/-- A call whose fills all have numeric ids. -/
structure NumericRun where
  run : SyncRun
  numeric : ∀ page request trades, run.fetch page request = .page trades →
    ∀ trade ∈ trades, IsTradeNumber trade.id

def MarkedDb.step (scope : SyncScope) (s : MarkedDb) (call : NumericRun) : Option MarkedDb :=
  some
    { db := scope.sync s.db call.run
      marks := s.marks ++ (scope.sync s.db call.run).syncState.lastTradeId.toList }

/-- The cursor is the greatest number in the ledger, and no earlier cursor was greater. -/
structure HighWater (s : MarkedDb) : Prop where
  greatest : ∀ key, TradeLedger.Has s.db.ledger key →
    ∃ mark ∈ s.db.syncState.lastTradeId, tradeNumber key.exchangeTradeId ≤ tradeNumber mark
  stored : ∀ mark ∈ s.db.syncState.lastTradeId,
    ∃ key, TradeLedger.Has s.db.ledger key ∧ key.exchangeTradeId = mark
  forward : ∀ earlier ∈ s.marks,
    ∃ mark ∈ s.db.syncState.lastTradeId, tradeNumber earlier ≤ tradeNumber mark

/-- The condition on a call: if it finishes, then among the cursor and the ids it reads one is
greatest both as a number and as a text; if it is interrupted, then it has read nothing above the
cursor. -/
def KeepsMark (scope : SyncScope) (s : MarkedDb) (call : NumericRun) : Prop :=
  let mark := s.db.syncState.lastTradeId
  let ids := (scope.tradesRead call.run s.db).map NormalizedTrade.id
  match scope.callEnd call.run s.db with
  | .finished =>
      mark.toList ++ ids = [] ∨ ∃ greatest ∈ mark.toList ++ ids, ∀ id ∈ mark.toList ++ ids,
        tradeNumber id ≤ tradeNumber greatest ∧ codes id ≤ codes greatest
  | .interrupted => ∀ id ∈ ids, ∃ m ∈ mark, tradeNumber id ≤ tradeNumber m
  | .rolledBack => True

section Step

variable {scope : SyncScope} {s : MarkedDb} {run : SyncRun}

theorem finalState_lastTradeId (db : SyncDb) (loop : SyncLoop) :
    (run.finalState db loop).lastTradeId = loop.maxTradeId := by
  unfold SyncRun.finalState
  cases run.kind <;> rfl

theorem highWater_of_core {s' : MarkedDb} (h : HighWater s)
    (hgrow : ∀ key, TradeLedger.Has s.db.ledger key → TradeLedger.Has s'.db.ledger key)
    (hmarks : s'.marks = s.marks ++ s'.db.syncState.lastTradeId.toList)
    (hgreatest : ∀ key, TradeLedger.Has s'.db.ledger key →
      ∃ mark ∈ s'.db.syncState.lastTradeId,
        tradeNumber key.exchangeTradeId ≤ tradeNumber mark)
    (hstored : ∀ mark ∈ s'.db.syncState.lastTradeId,
      ∃ key, TradeLedger.Has s'.db.ledger key ∧ key.exchangeTradeId = mark) :
    HighWater s' := by
  refine ⟨hgreatest, hstored, fun earlier hearlier => ?_⟩
  rw [hmarks, List.mem_append] at hearlier
  rcases hearlier with hold | hnew
  · obtain ⟨mark, hmark, hle⟩ := h.forward earlier hold
    obtain ⟨key, hkey, hid⟩ := h.stored mark hmark
    obtain ⟨mark', hmark', hle'⟩ := hgreatest key (hgrow key hkey)
    exact ⟨mark', hmark', hle.trans (hid ▸ hle')⟩
  · exact ⟨earlier, Option.mem_toList.mp hnew, le_rfl⟩

theorem foldl_laterTradeId_eq {ids : List String} (hids : ∀ id ∈ ids, id ≠ "")
    {mark : Option String} {greatest : String} (hmem : greatest ∈ mark.toList ++ ids)
    (hmax : ∀ id ∈ mark.toList ++ ids, codes id ≤ codes greatest) :
    ids.foldl laterTradeId mark = some greatest := by
  obtain ⟨hnone, hsome⟩ := foldl_laterTradeId_spec hids mark
  cases hfinal : ids.foldl laterTradeId mark with
  | none =>
    obtain ⟨rfl, rfl⟩ := hnone hfinal
    cases hmem
  | some found =>
    obtain ⟨hfound, hall⟩ := hsome found hfinal
    have heq : codes found = codes greatest :=
      le_antisymm (hmax found hfound) (hall greatest hmem)
    rw [codes_injective heq]

/-- **One call keeps the high-water mark** exactly under the condition. -/
theorem highWater_step_iff (h : HighWater s) {call : NumericRun} {s' : MarkedDb}
    (hs : MarkedDb.step scope s call = some s') : HighWater s' ↔ KeepsMark scope s call := by
  obtain ⟨run, hrun⟩ := call
  have hids : ∀ id ∈ (scope.tradesRead run s.db).map NormalizedTrade.id, id ≠ "" := by
    intro id hid
    obtain ⟨trade, htrade, rfl⟩ := List.mem_map.mp hid
    obtain ⟨page, request, trades, hanswer, hmem⟩ := SyncScope.tradesRead_mem htrade
    exact (hrun page request trades hanswer trade hmem).1
  obtain rfl := Option.some.inj hs
  have hsync := scope.sync_eq run s.db
  have hkeys := scope.has_storeTrades run s.db.loopStart (scope.tradesRead run s.db)
  unfold KeepsMark
  dsimp only
  cases hend : scope.callEnd run s.db with
  | rolledBack =>
    rw [hend] at hsync
    refine iff_of_true (highWater_of_core h (fun _ hkey => ?_) rfl ?_ ?_) trivial
    · exact hsync ▸ hkey
    · exact hsync ▸ h.greatest
    · exact hsync ▸ h.stored
  | interrupted =>
    rw [hend] at hsync
    have hledger : (scope.sync s.db run).ledger =
        (scope.storeTrades run s.db.loopStart (scope.tradesRead run s.db)).ledger := by rw [hsync]
    have hmark : (scope.sync s.db run).syncState.lastTradeId = s.db.syncState.lastTradeId := by
      rw [hsync]
      rfl
    constructor
    · intro hnext id hid
      obtain ⟨trade, htrade, rfl⟩ := List.mem_map.mp hid
      have hkey := hnext.greatest (scope.ledgerKey trade)
        (hledger ▸ (hkeys _).mpr (Or.inr ⟨trade, htrade, rfl⟩))
      rw [hmark] at hkey
      exact hkey
    · intro hbelow
      refine highWater_of_core h (fun key hkey => ?_) rfl (fun key hkey => ?_) ?_
      · exact hledger ▸ (hkeys key).mpr (Or.inl hkey)
      · rw [hledger] at hkey
        rw [hmark]
        rcases (hkeys key).mp hkey with hold | ⟨trade, htrade, rfl⟩
        · exact h.greatest key hold
        · exact hbelow trade.id (List.mem_map_of_mem htrade)
      · rw [hmark]
        intro mark hmem
        obtain ⟨key, hkey, hid⟩ := h.stored mark hmem
        exact ⟨key, hledger ▸ (hkeys key).mpr (Or.inl hkey), hid⟩
  | finished =>
    rw [hend] at hsync
    have hledger : (scope.sync s.db run).ledger =
        (scope.storeTrades run s.db.loopStart (scope.tradesRead run s.db)).ledger := by rw [hsync]
    have hmark : (scope.sync s.db run).syncState.lastTradeId =
        ((scope.tradesRead run s.db).map NormalizedTrade.id).foldl laterTradeId
          s.db.syncState.lastTradeId := by
      rw [hsync]
      exact (finalState_lastTradeId _ _).trans (noteTrades_maxTradeId _ _ _)
    -- the candidates for the cursor are ids in the ledger
    have hcandidate : ∀ id ∈ s.db.syncState.lastTradeId.toList ++
        (scope.tradesRead run s.db).map NormalizedTrade.id,
        ∃ key, TradeLedger.Has (scope.sync s.db run).ledger key ∧ key.exchangeTradeId = id := by
      intro id hid
      rcases List.mem_append.mp hid with hold | hread
      · obtain ⟨key, hkey, heq⟩ := h.stored id (Option.mem_toList.mp hold)
        exact ⟨key, hledger ▸ (hkeys key).mpr (Or.inl hkey), heq⟩
      · obtain ⟨trade, htrade, rfl⟩ := List.mem_map.mp hread
        exact ⟨scope.ledgerKey trade, hledger ▸ (hkeys _).mpr (Or.inr ⟨trade, htrade, rfl⟩), rfl⟩
    obtain ⟨hnone, hsome⟩ := foldl_laterTradeId_spec hids s.db.syncState.lastTradeId
    constructor
    · intro hnext
      cases hfinal : ((scope.tradesRead run s.db).map NormalizedTrade.id).foldl laterTradeId
          s.db.syncState.lastTradeId with
      | none =>
        obtain ⟨hold, hread⟩ := hnone hfinal
        exact Or.inl (by rw [hold, hread]; rfl)
      | some greatest =>
        obtain ⟨hmem, hall⟩ := hsome greatest hfinal
        refine Or.inr ⟨greatest, hmem, fun id hid => ⟨?_, hall id hid⟩⟩
        obtain ⟨key, hkey, rfl⟩ := hcandidate id hid
        obtain ⟨mark, hmark', hle⟩ := hnext.greatest key hkey
        rw [hmark, hfinal] at hmark'
        rw [Option.mem_some_iff] at hmark'
        exact hmark' ▸ hle
    · intro hcondition
      rcases hcondition with hempty | ⟨greatest, hmem, hall⟩
      · obtain ⟨hold, hread⟩ := List.append_eq_nil_iff.mp hempty
        have hnomark : s.db.syncState.lastTradeId = none := by simpa using hold
        have hnonew : (scope.sync s.db run).syncState.lastTradeId = none := by
          rw [hmark, hread, hnomark]
          rfl
        have hnotrade : scope.tradesRead run s.db = [] := List.map_eq_nil_iff.mp hread
        refine highWater_of_core h (fun key hkey => ?_) rfl (fun key hkey => ?_) ?_
        · exact hledger ▸ (hkeys key).mpr (Or.inl hkey)
        · rw [hledger, hkeys, hnotrade] at hkey
          obtain ⟨mark, hmark', -⟩ := h.greatest key (hkey.resolve_right (by simp))
          rw [hnomark] at hmark'
          cases hmark'
        · intro mark hmark'
          rw [hnonew] at hmark'
          cases hmark'
      · have hnew : (scope.sync s.db run).syncState.lastTradeId = some greatest := by
          rw [hmark]
          exact foldl_laterTradeId_eq hids hmem fun id hid => (hall id hid).2
        refine highWater_of_core h (fun key hkey => ?_) rfl (fun key hkey => ?_) ?_
        · exact hledger ▸ (hkeys key).mpr (Or.inl hkey)
        · refine ⟨greatest, hnew, ?_⟩
          rw [hledger] at hkey
          rcases (hkeys key).mp hkey with hold | ⟨trade, htrade, rfl⟩
          · obtain ⟨mark, hmark', hle⟩ := h.greatest key hold
            exact hle.trans
              (hall mark (List.mem_append_left _ (Option.mem_toList.mpr hmark'))).1
          · exact (hall trade.id (List.mem_append_right _ (List.mem_map_of_mem htrade))).1
        · intro mark hmark'
          rw [hnew, Option.mem_some_iff] at hmark'
          exact hmark' ▸ hcandidate greatest hmem

/-- **The high-water mark along a sequence of calls**: it stands after every call exactly if every
call meets the condition. -/
theorem highWater_iff (scope : SyncScope) (s : MarkedDb) (h : HighWater s)
    (calls : List NumericRun) :
    (∀ before s', before <+: calls → StepSystem.run (MarkedDb.step scope) s before = some s' →
      HighWater s') ↔ AlongRun (MarkedDb.step scope) (KeepsMark scope) s calls := by
  obtain ⟨s', hrun⟩ := exists_run_of_total (MarkedDb.step scope) (fun _ _ => ⟨_, rfl⟩) s calls
  rw [forall_prefix_iff_alongRun, and_iff_right h]
  exact alongRun_iff_of_invariant (MarkedDb.step scope)
    (fun s call s' _ hnext hs => hnext s' hs)
    (fun s call s' hs hstep =>
      ⟨fun hnext => (highWater_step_iff hs hstep).mp (hnext s' hstep),
        fun hkeeps u hu => (highWater_step_iff hs hu).mpr hkeeps⟩) h hrun

end Step

/-! ## Two small histories -/

/-- A fill of which only the id matters. -/
def numberedFill (id : String) : NormalizedTrade where
  id := id
  side := "buy"
  amount := 1
  price := 100
  timestamp := some 1700000000

/-- A call of the account-wide routine that reads one page. -/
def onePageCall (ids : List String) (h : ∀ id ∈ ids, IsTradeNumber id) : NumericRun where
  run :=
    { kind := .accountSymbolTrades
      now := 1700000100
      fetch := fun page _ => .page (if page = 0 then ids.map numberedFill else []) }
  numeric := by
    intro page request trades hanswer trade hmem
    obtain rfl := FetchAnswer.page.inj hanswer
    split at hmem
    · obtain ⟨id, hid, rfl⟩ := List.mem_map.mp hmem
      exact h id hid
    · exact absurd hmem List.not_mem_nil

instance (id : String) : Decidable (IsTradeNumber id) :=
  decidable_of_iff (id ≠ "" ∧ id.toList.all Char.isDigit = true) (by
    rw [List.all_eq_true, IsTradeNumber])

def sevenEightCall : NumericRun := onePageCall ["7", "8"] (by decide +kernel)

def nineTenCall : NumericRun := onePageCall ["9", "10"] (by decide +kernel)

/-- The account of the two histories. -/
def someScope : SyncScope where
  userId := 1
  accountId := 1
  exchangeName := "binance"
  symbol := "BTC/USDT:USDT"

theorem highWater_initial : HighWater {} where
  greatest _ h := absurd h (by simp [TradeLedger.Has])
  stored _ h := absurd h (by simp [SyncDb.syncState])
  forward _ h := absurd h List.not_mem_nil

/-- Ids of one length keep the mark. -/
theorem highWater_seven_eight :
    HighWater {} ∧ ∀ before s', before <+: [sevenEightCall] →
      StepSystem.run (MarkedDb.step someScope) {} before = some s' → HighWater s' := by
  refine ⟨highWater_initial, (highWater_iff someScope {} highWater_initial _).mpr ⟨?_, trivial⟩⟩
  exact Or.inr ⟨"8", by decide, by decide⟩

/-- **Nine after ten**: a first call reads the fills 9 and 10 and leaves the cursor at 9. -/
theorem nine_after_ten :
    ∃ s', StepSystem.run (MarkedDb.step someScope) {} [nineTenCall] =
        some s' ∧ s'.db.syncState.lastTradeId = some "9" ∧ ¬HighWater s' := by
  have hmark : (someScope.sync {} nineTenCall.run).syncState.lastTradeId =
      some "9" := by decide +kernel
  refine ⟨_, rfl, hmark, fun h => ?_⟩
  have hten : TradeLedger.Has (someScope.sync {} nineTenCall.run).ledger
      (someScope.ledgerKey (numberedFill "10")) := by
    unfold TradeLedger.Has
    decide +kernel
  obtain ⟨mark, hmem, hle⟩ := h.greatest _ hten
  obtain rfl : "9" = mark := Option.some.inj (hmark.symm.trans hmem)
  exact absurd hle (by decide)

end AdviserConstructor
