import AdviserConstructor.Library.Paging
import Mathlib.Algebra.Order.Field.Rat
import Mathlib.Data.List.Nodup
import Mathlib.Order.Monotone.Basic

/-!
# The sync of funding income

`app/services/auto_trade/income_sync.py`: a call of `sync_symbol_income` starts five minutes before
the latest stored row of the symbol, or thirty days back if there is none, and reads up to ten
pages, each from one millisecond past the last row of the page before.  Rows are stored by the
identity of the exchange, so that a row that is read again takes the place of the stored one.

* `syncPages_spec`: a call stores what the reader of its pages reads, and nothing else;
* `readPages_eq_take_iff` of the library says when that is everything as far as ten pages go;
* `settled_of_stepFair`: if every call starts where its pages are clean, and the tenth gets past
  what is stored, then from some call on every row since the start of the first one is stored
  exactly once and a call changes nothing but the times of ingestion.

The rows are those of one account; times are in milliseconds, and amounts rationals.
-/

namespace AdviserConstructor
namespace IncomeSync

open Paging

/-! ## Rows -/

/-- `NormalizedIncome`. -/
structure NormalizedIncome where
  incomeType : String := "FUNDING_FEE"
  asset : String := "USDT"
  income : ℚ
  symbol : Option String := none
  tranId : String
  tradeId : Option String := none
  info : Option String := none
  timestamp : Option ℤ
  deriving DecidableEq

/-- `ExchangeIncomeLedger`, for one account and exchange. -/
structure IncomeLedgerRow where
  incomeType : String
  asset : String
  income : ℚ
  symbol : String
  tranId : String
  tradeId : Option String
  info : Option String
  incomeAt : ℤ
  ingestedAt : ℤ
  deriving DecidableEq

abbrev IncomeLedger := List IncomeLedgerRow

/-- The unique key of `uq_exchange_income_ledger_identity`. -/
def IncomeLedgerRow.sameKey (row row' : IncomeLedgerRow) : Bool :=
  row.incomeType = row'.incomeType ∧ row.tranId = row'.tranId

/-- The values of a row that is stored at a time. -/
def storedRow (symbol : String) (now : ℤ) (income : NormalizedIncome) : IncomeLedgerRow where
  incomeType := income.incomeType
  asset := income.asset
  income := income.income
  symbol := (income.symbol.filter fun s => s ≠ "").getD symbol
  tranId := income.tranId
  tradeId := income.tradeId
  info := income.info
  incomeAt := income.timestamp.getD now
  ingestedAt := now

/-- `INSERT … ON CONFLICT … DO UPDATE`. -/
def upsertRow (ledger : IncomeLedger) (row : IncomeLedgerRow) : IncomeLedger :=
  if ledger.any fun r => r.sameKey row then ledger.map fun r => if r.sameKey row then row else r
  else ledger ++ [row]

/-- `_upsert_income_rows`: the table, and how many values were written. -/
def upsertIncomeRows (symbol : String) (now : ℤ) (rows : List NormalizedIncome)
    (ledger : IncomeLedger) : IncomeLedger × ℕ :=
  let values := (rows.filter fun income => income.tranId ≠ "").map (storedRow symbol now)
  (values.foldl upsertRow ledger, values.length)

/-! ## A call -/

/-- The latest stored funding of the symbol. -/
def lastIncomeAt (symbol : String) (ledger : IncomeLedger) : Option ℤ :=
  ((ledger.filter fun row => row.symbol = symbol ∧ row.incomeType = "FUNDING_FEE").map
    IncomeLedgerRow.incomeAt).max?

/-- `_backfill_days`, in milliseconds. -/
def backfill : ℤ := 30 * 24 * 60 * 60 * 1000

/-- `_SYNC_OVERLAP`. -/
def syncOverlap : ℤ := 5 * 60 * 1000

/-- `_compute_since`. -/
def computeSince (symbol : String) (ledger : IncomeLedger) (now : ℤ) : ℤ :=
  match lastIncomeAt symbol ledger with
  | none => now - backfill
  | some last => last - syncOverlap

/-- The loop of `sync_symbol_income`, with so many pages left. -/
def syncPages (fetch : ℤ → ℕ → List NormalizedIncome) (symbol : String) (pageLimit : ℕ)
    (clock : ℕ → ℤ) : ℕ → ℕ → ℤ → IncomeLedger × ℕ → IncomeLedger × ℕ
  | 0, _, _, done => done
  | left + 1, page, since, (ledger, inserted) =>
      let rows := fetch since pageLimit
      if rows = [] then (ledger, inserted)
      else
        let (ledger, written) := upsertIncomeRows symbol (clock page) rows ledger
        match (rows.filterMap NormalizedIncome.timestamp).max? with
        | none => (ledger, inserted + written)
        | some maxTs =>
            if rows.length < pageLimit ∨ maxTs ≤ since then (ledger, inserted + written)
            else syncPages fetch symbol pageLimit clock left (page + 1) (maxTs + 1)
              (ledger, inserted + written)

/-- `sync_symbol_income`: the table behind a call, and how many values it has written.  `clock` is
what the clock says at the start and at each page. -/
def syncSymbolIncome (fetch : ℤ → ℕ → List NormalizedIncome) (symbol : String) (pageLimit : ℕ)
    (clock : ℕ → ℤ) (ledger : IncomeLedger) : IncomeLedger × ℕ :=
  syncPages fetch symbol pageLimit clock 10 1 (computeSince symbol ledger (clock 0)) (ledger, 0)

/-! ## Histories -/

def NormalizedIncome.time (income : NormalizedIncome) : ℤ := income.timestamp.getD 0

/-- The funding fees of a symbol that an exchange has, in ascending order; several may have one
time, and none have one identity. -/
structure FundingHistory where
  rows : List NormalizedIncome
  funding : ∀ r ∈ rows, r.incomeType = "FUNDING_FEE" ∧ r.tranId ≠ "" ∧ r.timestamp.isSome
  ascending : Ascending NormalizedIncome.time rows
  nodup : (rows.map NormalizedIncome.tranId).Nodup

namespace FundingHistory

/-- `fetch_futures_income`: the first rows not before a time. -/
def fetch (h : FundingHistory) (since : ℤ) (limit : ℕ) : List NormalizedIncome :=
  (notBefore NormalizedIncome.time since h.rows).take limit

/-- What a call with so many pages reads. -/
def read (h : FundingHistory) (limit pages : ℕ) (since : ℤ) : List NormalizedIncome :=
  readPages NormalizedIncome.time h.rows limit pages since

end FundingHistory

def Stored (ledger : IncomeLedger) (r : NormalizedIncome) : Prop :=
  r.tranId ∈ ledger.map IncomeLedgerRow.tranId

instance (ledger : IncomeLedger) (r : NormalizedIncome) : Decidable (Stored ledger r) :=
  inferInstanceAs (Decidable (_ ∈ _))

/-- What the table says, but for the times of ingestion. -/
def content (ledger : IncomeLedger) : IncomeLedger :=
  ledger.map fun row => { row with ingestedAt := 0 }

/-- The table has rows of the history alone, none twice. -/
structure IsLedgerOf (symbol : String) (h : FundingHistory) (ledger : IncomeLedger) : Prop where
  nodup : (ledger.map IncomeLedgerRow.tranId).Nodup
  rows : ∀ row ∈ ledger, ∃ r ∈ h.rows, row = storedRow symbol row.ingestedAt r

/-! ## Storing a row -/

section Store

variable {symbol : String} {h : FundingHistory} {ledger : IncomeLedger} {r r' : NormalizedIncome}
  {now : ℤ}

theorem FundingHistory.eq_of_tranId (hr : r ∈ h.rows) (hr' : r' ∈ h.rows)
    (heq : r.tranId = r'.tranId) : r = r' :=
  List.inj_on_of_nodup_map h.nodup hr hr' heq

theorem FundingHistory.timestamp_eq (hr : r ∈ h.rows) : r.timestamp = some r.time := by
  obtain ⟨t, ht⟩ := Option.isSome_iff_exists.mp (h.funding r hr).2.2
  rw [NormalizedIncome.time, ht, Option.getD_some]

theorem FundingHistory.storedRow_eq (hr : r ∈ h.rows) (now now' : ℤ) :
    storedRow symbol now r = { storedRow symbol now' r with ingestedAt := now } := by
  rw [storedRow, storedRow, timestamp_eq hr]
  rfl

theorem IsLedgerOf.sameKey_iff (hledger : IsLedgerOf symbol h ledger) (hr : r ∈ h.rows)
    {row : IncomeLedgerRow} (hrow : row ∈ ledger) :
    row.sameKey (storedRow symbol now r) = true ↔ row.tranId = r.tranId := by
  obtain ⟨s, hs, heq⟩ := hledger.rows row hrow
  have htype : row.incomeType = r.incomeType := by
    rw [heq, (h.funding r hr).1]
    exact (h.funding s hs).1
  rw [IncomeLedgerRow.sameKey, decide_eq_true_eq]
  exact ⟨And.right, fun hid => ⟨htype, hid⟩⟩

theorem IsLedgerOf.any_sameKey_iff (hledger : IsLedgerOf symbol h ledger) (hr : r ∈ h.rows) :
    (ledger.any fun row => row.sameKey (storedRow symbol now r)) = true ↔ Stored ledger r := by
  rw [List.any_eq_true, Stored, List.mem_map]
  constructor
  · rintro ⟨row, hrow, hkey⟩
    exact ⟨row, hrow, (hledger.sameKey_iff hr hrow).mp hkey⟩
  · rintro ⟨row, hrow, hid⟩
    exact ⟨row, hrow, (hledger.sameKey_iff hr hrow).mpr hid⟩

theorem upsertRow_of_not_stored (hledger : IsLedgerOf symbol h ledger) (hr : r ∈ h.rows)
    (hstored : ¬ Stored ledger r) :
    upsertRow ledger (storedRow symbol now r) = ledger ++ [storedRow symbol now r] := by
  rw [upsertRow, if_neg ((hledger.any_sameKey_iff hr).not.mpr hstored)]

theorem upsertRow_of_stored (hledger : IsLedgerOf symbol h ledger) (hr : r ∈ h.rows)
    (hstored : Stored ledger r) :
    upsertRow ledger (storedRow symbol now r) =
      ledger.map fun row =>
        if row.tranId = r.tranId then { row with ingestedAt := now } else row := by
  rw [upsertRow, if_pos ((hledger.any_sameKey_iff hr).mpr hstored)]
  refine List.map_congr_left fun row hrow => ?_
  by_cases hid : row.tranId = r.tranId
  · rw [if_pos ((hledger.sameKey_iff hr hrow).mpr hid), if_pos hid]
    obtain ⟨s, hs, heq⟩ := hledger.rows row hrow
    have hsame : s = r := FundingHistory.eq_of_tranId hs hr (by rw [← hid, heq]; rfl)
    rw [heq, hsame]
    exact FundingHistory.storedRow_eq hr now _
  · rw [if_neg ((hledger.sameKey_iff hr hrow).not.mpr hid), if_neg hid]

/-- **Storing a row** of the history keeps a table of it, and stores that row alone. -/
theorem IsLedgerOf.upsertRow (hledger : IsLedgerOf symbol h ledger) (hr : r ∈ h.rows) (now : ℤ) :
    IsLedgerOf symbol h (upsertRow ledger (storedRow symbol now r)) ∧
      (∀ r' ∈ h.rows, Stored (upsertRow ledger (storedRow symbol now r)) r' ↔
        Stored ledger r' ∨ r' = r) ∧
      (Stored ledger r →
        content (upsertRow ledger (storedRow symbol now r)) = content ledger) := by
  by_cases hstored : Stored ledger r
  · rw [upsertRow_of_stored hledger hr hstored]
    have hids : (ledger.map fun row =>
        if row.tranId = r.tranId then { row with ingestedAt := now } else row).map
          IncomeLedgerRow.tranId = ledger.map IncomeLedgerRow.tranId := by
      rw [List.map_map]
      refine List.map_congr_left fun row _ => ?_
      rw [Function.comp_apply]
      split <;> rfl
    refine ⟨⟨?_, ?_⟩, fun r' hr' => ?_, fun _ => ?_⟩
    · rw [hids]
      exact hledger.nodup
    · intro row hrow
      obtain ⟨old, hold, rfl⟩ := List.mem_map.mp hrow
      obtain ⟨s, hs, heq⟩ := hledger.rows old hold
      refine ⟨s, hs, ?_⟩
      by_cases hid : old.tranId = r.tranId
      · rw [if_pos hid]
        conv_lhs => rw [heq]
        exact (FundingHistory.storedRow_eq hs now _).symm
      · rw [if_neg hid]
        exact heq
    · rw [Stored, hids]
      refine ⟨Or.inl, fun hor => hor.elim id ?_⟩
      rintro rfl
      exact hstored
    · rw [content, List.map_map]
      refine List.map_congr_left fun row _ => ?_
      rw [Function.comp_apply]
      split <;> rfl
  · rw [upsertRow_of_not_stored hledger hr hstored]
    refine ⟨⟨?_, ?_⟩, fun r' hr' => ?_, fun hyes => absurd hyes hstored⟩
    · rw [List.map_append]
      refine List.nodup_append.mpr ⟨hledger.nodup, List.nodup_singleton _, ?_⟩
      intro id hid id' hid' heq
      have hsame : id = r.tranId := heq.trans (List.mem_singleton.mp hid')
      rw [hsame] at hid
      exact hstored hid
    · intro row hrow
      rcases List.mem_append.mp hrow with hold | hnew
      · exact hledger.rows row hold
      · rw [List.mem_singleton.mp hnew]
        exact ⟨r, hr, rfl⟩
    · rw [Stored, List.map_append, List.mem_append, List.map_singleton, List.mem_singleton]
      refine or_congr_right ⟨fun heq => FundingHistory.eq_of_tranId hr' hr heq, ?_⟩
      rintro rfl
      rfl

end Store

/-! ## A call stores what it reads -/

/-- What storing some rows of the history does to a table of it. -/
structure Stores (symbol : String) (h : FundingHistory) (read : List NormalizedIncome)
    (ledger ledger' : IncomeLedger) : Prop where
  isLedger : IsLedgerOf symbol h ledger'
  stored : ∀ r ∈ h.rows, Stored ledger' r ↔ Stored ledger r ∨ r ∈ read
  unchanged : (∀ r ∈ read, Stored ledger r) → content ledger' = content ledger

section Call

variable {symbol : String} {h : FundingHistory} {ledger ledger' ledger'' : IncomeLedger}
  {read read' : List NormalizedIncome}

theorem Stores.refl (hledger : IsLedgerOf symbol h ledger) : Stores symbol h [] ledger ledger where
  isLedger := hledger
  stored := fun r _ => by simp
  unchanged := fun _ => rfl

theorem Stores.trans (hfirst : Stores symbol h read ledger ledger')
    (hnext : Stores symbol h read' ledger' ledger'') (hread' : ∀ r ∈ read', r ∈ h.rows) :
    Stores symbol h (read ++ read') ledger ledger'' where
  isLedger := hnext.isLedger
  stored := fun r hr => by
    rw [hnext.stored r hr, hfirst.stored r hr, List.mem_append, or_assoc]
  unchanged := fun hall => by
    obtain ⟨hread, hrest⟩ := List.forall_mem_append.mp hall
    have hkept : ∀ r ∈ read', Stored ledger' r := fun r hr =>
      (hfirst.stored r (hread' r hr)).mpr (Or.inl (hrest r hr))
    rw [hnext.unchanged hkept, hfirst.unchanged hread]

theorem stores_upsertIncomeRows (hledger : IsLedgerOf symbol h ledger) (now : ℤ)
    {rows : List NormalizedIncome} (hrows : ∀ r ∈ rows, r ∈ h.rows) :
    Stores symbol h rows ledger (upsertIncomeRows symbol now rows ledger).1 := by
  have hall : rows.filter (fun income => income.tranId ≠ "") = rows :=
    List.filter_eq_self.mpr fun r hr => decide_eq_true (h.funding r (hrows r hr)).2.1
  rw [upsertIncomeRows, hall]
  clear hall
  induction rows generalizing ledger with
  | nil => exact Stores.refl hledger
  | cons r rows ih =>
    obtain ⟨hr, hrest⟩ := List.forall_mem_cons.mp hrows
    obtain ⟨hnext, hstored, hunchanged⟩ := hledger.upsertRow hr now
    have hfirst : Stores symbol h [r] ledger (upsertRow ledger (storedRow symbol now r)) :=
      { isLedger := hnext
        stored := fun r' hr' => by rw [hstored r' hr', List.mem_singleton]
        unchanged := fun hall => hunchanged (hall r (List.mem_singleton_self r)) }
    exact hfirst.trans (ih hnext hrest) hrest

theorem max?_timestamps {rows : List NormalizedIncome} (hrows : ∀ r ∈ rows, r ∈ h.rows)
    (hasc : Ascending NormalizedIncome.time rows) :
    (rows.filterMap NormalizedIncome.timestamp).max? =
      rows.getLast?.map NormalizedIncome.time := by
  have htimes : rows.filterMap NormalizedIncome.timestamp = rows.map NormalizedIncome.time := by
    rw [← List.filterMap_eq_map]
    exact List.filterMap_congr fun r hr => FundingHistory.timestamp_eq (hrows r hr)
  rw [htimes]
  cases hlast : rows.getLast? with
  | none =>
    rw [List.getLast?_eq_none_iff.mp hlast]
    rfl
  | some last =>
    rw [Option.map_some, List.max?_eq_some_iff]
    refine ⟨List.mem_map_of_mem (List.mem_of_getLast? hlast), fun t ht => ?_⟩
    obtain ⟨r, hr, rfl⟩ := List.mem_map.mp ht
    obtain ⟨init, rfl⟩ := List.getLast?_eq_some_iff.mp hlast
    rcases List.mem_append.mp hr with hinit | hend
    · exact (List.pairwise_append.mp hasc).2.2 r hinit last (List.mem_singleton_self last)
    · rw [List.mem_singleton.mp hend]

/-- **A call stores what its pages read.** -/
theorem syncPages_spec (hledger : IsLedgerOf symbol h ledger) (limit : ℕ) (clock : ℕ → ℤ)
    (left page : ℕ) (since : ℤ) (inserted : ℕ) :
    Stores symbol h (h.read limit left since) ledger
      (syncPages h.fetch symbol limit clock left page since (ledger, inserted)).1 := by
  induction left generalizing page since ledger inserted with
  | zero => exact Stores.refl hledger
  | succ left ih =>
    have hpage : ∀ r ∈ h.fetch since limit, r ∈ h.rows := fun r hr =>
      (mem_notBefore.mp (List.mem_of_mem_take hr)).1
    have hasc : Ascending NormalizedIncome.time (h.fetch since limit) :=
      (h.ascending.notBefore since).sublist (List.take_sublist ..)
    have hfirst := stores_upsertIncomeRows hledger (clock page) hpage
    have hmax := max?_timestamps hpage hasc
    rw [syncPages, FundingHistory.read]
    cases hlast : (h.fetch since limit).getLast? with
    | none =>
      rw [if_pos (List.getLast?_eq_none_iff.mp hlast), readPages_of_none hlast]
      exact Stores.refl hledger
    | some last =>
      have hne : h.fetch since limit ≠ [] := by
        intro hnil
        rw [hnil] at hlast
        cases hlast
      rw [hlast, Option.map_some] at hmax
      rw [if_neg hne, hmax]
      dsimp only
      by_cases hstop : (h.fetch since limit).length < limit ∨ last.time ≤ since
      · rw [if_pos hstop, readPages_of_stop hlast hstop]
        exact hfirst
      · rw [if_neg hstop, readPages_of_next hlast hstop]
        exact hfirst.trans (ih hfirst.isLedger _ _ _) fun r hr => (mem_readPages hr).1

end Call

/-! ## The start of a call -/

/-- The symbol a row is stored under. -/
def rowSymbol (symbol : String) (r : NormalizedIncome) : String := (storedRow symbol 0 r).symbol

/-- Every row since a time is stored. -/
def AllStored (h : FundingHistory) (ledger : IncomeLedger) (since : ℤ) : Prop :=
  ∀ r ∈ h.rows, since ≤ r.time → Stored ledger r

section Start

variable {symbol : String} {h : FundingHistory} {ledger ledger' : IncomeLedger}

theorem IsLedgerOf.exists_row (hledger : IsLedgerOf symbol h ledger) {r : NormalizedIncome}
    (hr : r ∈ h.rows) (hstored : Stored ledger r) :
    ∃ row ∈ ledger, row = storedRow symbol row.ingestedAt r := by
  obtain ⟨row, hrow, hid⟩ := List.mem_map.mp hstored
  obtain ⟨s, hs, heq⟩ := hledger.rows row hrow
  have hsame : s = r := FundingHistory.eq_of_tranId hs hr (by rw [← hid, heq]; rfl)
  rw [hsame] at heq
  exact ⟨row, hrow, heq⟩

theorem IsLedgerOf.lastIncomeAt_some (hledger : IsLedgerOf symbol h ledger) {last : ℤ}
    (hlast : lastIncomeAt symbol ledger = some last) :
    ∀ r ∈ h.rows, Stored ledger r → rowSymbol symbol r = symbol → r.time ≤ last := by
  intro r hr hstored hsymbol
  obtain ⟨row, hrow, heq⟩ := hledger.exists_row hr hstored
  refine (List.max?_eq_some_iff.mp hlast).2 _ (List.mem_map.mpr ⟨row, List.mem_filter.mpr
    ⟨hrow, decide_eq_true ⟨?_, ?_⟩⟩, ?_⟩)
  · rw [heq]
    exact hsymbol
  · rw [heq]
    exact (h.funding r hr).1
  · rw [heq, storedRow, FundingHistory.timestamp_eq hr]
    rfl

theorem IsLedgerOf.lastIncomeAt_mem (hledger : IsLedgerOf symbol h ledger) {last : ℤ}
    (hlast : lastIncomeAt symbol ledger = some last) :
    ∃ r ∈ h.rows, Stored ledger r ∧ rowSymbol symbol r = symbol ∧ r.time = last := by
  obtain ⟨row, hfilter, htime⟩ := List.mem_map.mp (List.max?_eq_some_iff.mp hlast).1
  obtain ⟨hrow, hkey⟩ := List.mem_filter.mp hfilter
  obtain ⟨r, hr, heq⟩ := hledger.rows row hrow
  refine ⟨r, hr, List.mem_map.mpr ⟨row, hrow, by rw [heq]; rfl⟩, ?_, ?_⟩
  · have hsymbol := (of_decide_eq_true hkey).1
    rw [heq] at hsymbol
    exact hsymbol
  · rw [← htime, heq, storedRow, FundingHistory.timestamp_eq hr]
    rfl

theorem IsLedgerOf.lastIncomeAt_none (hledger : IsLedgerOf symbol h ledger)
    (hlast : lastIncomeAt symbol ledger = none) :
    ∀ r ∈ h.rows, Stored ledger r → rowSymbol symbol r ≠ symbol := by
  intro r hr hstored hsymbol
  obtain ⟨row, hrow, heq⟩ := hledger.exists_row hr hstored
  have hnil := List.max?_eq_none_iff.mp hlast
  rw [List.map_eq_nil_iff, List.filter_eq_nil_iff] at hnil
  refine hnil row hrow (decide_eq_true ⟨?_, ?_⟩)
  · rw [heq]
    exact hsymbol
  · rw [heq]
    exact (h.funding r hr).1

theorem lastIncomeAt_congr (hcontent : content ledger' = content ledger) :
    lastIncomeAt symbol ledger' = lastIncomeAt symbol ledger := by
  have hread : ∀ l : IncomeLedger, lastIncomeAt symbol l = lastIncomeAt symbol (content l) := by
    intro l
    rw [lastIncomeAt, lastIncomeAt, content, List.filter_map, List.map_map]
    rfl
  rw [hread, hcontent, ← hread]

theorem stored_congr (hcontent : content ledger' = content ledger) (r : NormalizedIncome) :
    Stored ledger' r ↔ Stored ledger r := by
  have hread : ∀ l : IncomeLedger, (content l).map IncomeLedgerRow.tranId =
      l.map IncomeLedgerRow.tranId := by
    intro l
    rw [content, List.map_map]
    rfl
  rw [Stored, Stored, ← hread, hcontent, hread]

theorem IsLedgerOf.once (hledger : IsLedgerOf symbol h ledger) {r : NormalizedIncome}
    (hr : r ∈ h.rows) (hstored : Stored ledger r) :
    content (ledger.filter fun row => row.tranId = r.tranId) = [storedRow symbol 0 r] := by
  have hlength : (ledger.filter fun row => row.tranId = r.tranId).length = 1 := by
    have hcount := List.count_eq_one_of_mem hledger.nodup hstored
    rw [List.count_eq_length_filter, List.filter_map, List.length_map] at hcount
    rw [← hcount]
    refine congrArg List.length (List.filter_congr fun row _ => ?_)
    rw [Function.comp_apply, beq_eq_decide]
  obtain ⟨row, hrow⟩ := List.length_eq_one_iff.mp hlength
  have hmem : row ∈ ledger.filter fun row => row.tranId = r.tranId :=
    hrow ▸ List.mem_singleton_self row
  obtain ⟨hin, hid⟩ := List.mem_filter.mp hmem
  obtain ⟨s, hs, heq⟩ := hledger.rows row hin
  have hsame : s = r :=
    FundingHistory.eq_of_tranId hs hr (by rw [← of_decide_eq_true hid, heq]; rfl)
  rw [hrow, content, heq, hsame]
  exact congrArg (fun x => [x]) (FundingHistory.storedRow_eq hr 0 _).symm

end Start

/-! ## Call after call -/

/-- A call from this table, at this time, gets on: everything since its start is stored, or its
pages are clean, and where more rows wait than it reads, the last one that it reads is one of the
symbol and later than all that are stored. -/
def StepFair (h : FundingHistory) (symbol : String) (limit : ℕ) (ledger : IncomeLedger) (now : ℤ) :
    Prop :=
  let since := computeSince symbol ledger now
  let asked := notBefore NormalizedIncome.time since h.rows
  AllStored h ledger since ∨
    CleanPages NormalizedIncome.time h.rows limit 10 since ∧
      (asked.length ≤ 10 * limit ∨ ∃ last ∈ (asked.take (10 * limit)).getLast?,
        rowSymbol symbol last = symbol ∧ ∀ stored ∈ lastIncomeAt symbol ledger, stored < last.time)

/-- The table behind so many calls; `clock` is what the clock says in each of them. -/
def tableAfter (h : FundingHistory) (symbol : String) (limit : ℕ) (clock : ℕ → ℕ → ℤ)
    (before : IncomeLedger) : ℕ → IncomeLedger
  | 0 => before
  | n + 1 => (syncSymbolIncome h.fetch symbol limit (clock n)
      (tableAfter h symbol limit clock before n)).1

/-- Every row since a time is stored exactly once, and the call from this table to the next changes
nothing but times of ingestion. -/
structure Settled (h : FundingHistory) (symbol : String) (since : ℤ)
    (ledger ledger' : IncomeLedger) : Prop where
  once : ∀ r ∈ h.rows, since ≤ r.time →
    content (ledger.filter fun row => row.tranId = r.tranId) = [storedRow symbol 0 r]
  kept : content ledger' = content ledger

section Step

variable {h : FundingHistory} {symbol : String} {limit : ℕ} {ledger : IncomeLedger} {clock : ℕ → ℤ}

theorem stores_syncSymbolIncome (hledger : IsLedgerOf symbol h ledger) :
    Stores symbol h (h.read limit 10 (computeSince symbol ledger (clock 0))) ledger
      (syncSymbolIncome h.fetch symbol limit clock ledger).1 :=
  syncPages_spec hledger limit clock 10 1 _ 0

/-- **A call that finds all stored changes nothing.** -/
theorem content_syncSymbolIncome (hledger : IsLedgerOf symbol h ledger)
    (hall : AllStored h ledger (computeSince symbol ledger (clock 0))) :
    content (syncSymbolIncome h.fetch symbol limit clock ledger).1 = content ledger :=
  (stores_syncSymbolIncome hledger).unchanged fun r hr =>
    hall r (mem_readPages hr).1 (mem_readPages hr).2

/-- The rows that are missing since a time are not before the start of the next call. -/
def MissingAhead (h : FundingHistory) (ledger : IncomeLedger) (since start : ℤ) : Prop :=
  ∀ r ∈ h.rows, since ≤ r.time → ¬ Stored ledger r → start ≤ r.time

/-- **A call that gets on** stores a row that was missing, and what it leaves missing is ahead of
the next call. -/
theorem step_of_stepFair (hledger : IsLedgerOf symbol h ledger) (hlimit : 0 < limit)
    (hfair : StepFair h symbol limit ledger (clock 0))
    (hmissing : ¬ AllStored h ledger (computeSince symbol ledger (clock 0))) {since : ℤ}
    (hahead : MissingAhead h ledger since (computeSince symbol ledger (clock 0))) (now : ℤ) :
    (∃ r ∈ h.rows, ¬ Stored ledger r ∧
      Stored (syncSymbolIncome h.fetch symbol limit clock ledger).1 r) ∧
    MissingAhead h (syncSymbolIncome h.fetch symbol limit clock ledger).1 since
      (computeSince symbol (syncSymbolIncome h.fetch symbol limit clock ledger).1 now) := by
  obtain ⟨hclean, hroom⟩ := hfair.resolve_left hmissing
  obtain ⟨hledger', hstored, -⟩ := @stores_syncSymbolIncome h symbol limit ledger clock hledger
  have hread := (readPages_eq_take_iff h.ascending hlimit).mpr hclean
  change h.read limit 10 (computeSince symbol ledger (clock 0)) = _ at hread
  rw [hread] at hstored
  generalize (syncSymbolIncome h.fetch symbol limit clock ledger).1 = ledger' at hstored hledger' ⊢
  generalize computeSince symbol ledger (clock 0) = start at hahead hmissing hroom hstored
  obtain ⟨missing, hmem, htime, hnot⟩ : ∃ r ∈ h.rows, start ≤ r.time ∧ ¬ Stored ledger r := by
    simpa only [AllStored, not_forall, exists_prop] using hmissing
  rcases hroom with hshort | ⟨last, hlast, hsymbol, hlater⟩
  · -- the call reads all that there is
    rw [List.take_of_length_le hshort] at hstored
    refine ⟨⟨missing, hmem, hnot, (hstored missing hmem).mpr
      (Or.inr (mem_notBefore.mpr ⟨hmem, htime⟩))⟩, fun r hr hsince hleft => ?_⟩
    have hold : ¬ Stored ledger r := fun hyes => hleft ((hstored r hr).mpr (Or.inl hyes))
    exact absurd ((hstored r hr).mpr
      (Or.inr (mem_notBefore.mpr ⟨hr, hahead r hr hsince hold⟩))) hleft
  · -- the last row that is read is new, and the next call starts before it
    have hin := List.mem_of_mem_getLast? hlast
    have hlastMem : last ∈ h.rows := (mem_notBefore.mp (List.mem_of_mem_take hin)).1
    have hnew : ¬ Stored ledger last := by
      intro hyes
      cases hmax : lastIncomeAt symbol ledger with
      | none => exact hledger.lastIncomeAt_none hmax last hlastMem hyes hsymbol
      | some stored =>
        have hle := hledger.lastIncomeAt_some hmax last hlastMem hyes hsymbol
        exact absurd (hlater stored hmax) (not_lt.mpr hle)
    have hstoredLast : Stored ledger' last := (hstored last hlastMem).mpr (Or.inr hin)
    refine ⟨⟨last, hlastMem, hnew, hstoredLast⟩, fun r hr hsince hleft => ?_⟩
    have hold : ¬ Stored ledger r := fun hyes => hleft ((hstored r hr).mpr (Or.inl hyes))
    have hasked : r ∈ notBefore NormalizedIncome.time start h.rows :=
      mem_notBefore.mpr ⟨hr, hahead r hr hsince hold⟩
    have hbehind : last.time ≤ r.time := by
      have hsorted := h.ascending.notBefore start
      rw [← List.take_append_drop (10 * limit) (notBefore NormalizedIncome.time start h.rows)]
        at hasked hsorted
      rcases List.mem_append.mp hasked with hread | hrest
      · exact absurd ((hstored r hr).mpr (Or.inr hread)) hleft
      · exact (List.pairwise_append.mp hsorted).2.2 last hin r hrest
    cases hmax : lastIncomeAt symbol ledger' with
    | none => exact absurd hsymbol (hledger'.lastIncomeAt_none hmax last hlastMem hstoredLast)
    | some latest =>
      obtain ⟨newest, hnewest, hin', hsymbol', rfl⟩ := hledger'.lastIncomeAt_mem hmax
      have hle : newest.time ≤ last.time := by
        rcases (hstored newest hnewest).mp hin' with hyes | hread
        · cases holdest : lastIncomeAt symbol ledger with
          | none => exact absurd hsymbol' (hledger.lastIncomeAt_none holdest newest hnewest hyes)
          | some stored =>
            have hbound := hledger.lastIncomeAt_some holdest newest hnewest hyes hsymbol'
            exact hbound.trans (hlater stored holdest).le
        · exact page_le_last h.ascending (List.take_append_drop ..).symm hlast hread
      rw [computeSince, hmax]
      dsimp only
      rw [syncOverlap]
      omega

end Step

section Runs

variable {h : FundingHistory} {symbol : String} {limit : ℕ} {clock : ℕ → ℕ → ℤ}
  {before : IncomeLedger}

/-- The rows that are missing from a table. -/
def missing (h : FundingHistory) (ledger : IncomeLedger) : List NormalizedIncome :=
  h.rows.filter fun r => ¬ Stored ledger r

theorem missing_lt {ledger ledger' : IncomeLedger} {read : List NormalizedIncome}
    (hstores : Stores symbol h read ledger ledger')
    (hnew : ∃ r ∈ h.rows, ¬ Stored ledger r ∧ Stored ledger' r) :
    (missing h ledger').length < (missing h ledger).length := by
  have hsub : missing h ledger' = (missing h ledger).filter fun r => ¬ Stored ledger' r := by
    rw [missing, missing, List.filter_filter]
    refine List.filter_congr fun r hr => ?_
    rw [← Bool.decide_and]
    exact decide_eq_decide.mpr ⟨fun hnot =>
      ⟨hnot, fun hyes => hnot ((hstores.stored r hr).mpr (Or.inl hyes))⟩, And.left⟩
  obtain ⟨r, hr, hold, hyes⟩ := hnew
  rw [hsub]
  refine List.length_filter_lt_length_iff_exists.mpr ⟨r, List.mem_filter.mpr ⟨hr, ?_⟩, ?_⟩
  · exact decide_eq_true hold
  · rw [decide_eq_true_eq, not_not]
    exact hyes

theorem isLedgerOf_tableAfter (hbefore : IsLedgerOf symbol h before) (n : ℕ) :
    IsLedgerOf symbol h (tableAfter h symbol limit clock before n) := by
  induction n with
  | zero => exact hbefore
  | succ n ih => exact (stores_syncSymbolIncome ih).isLedger

def startOf (h : FundingHistory) (symbol : String) (limit : ℕ) (clock : ℕ → ℕ → ℤ)
    (before : IncomeLedger) (n : ℕ) : ℤ :=
  computeSince symbol (tableAfter h symbol limit clock before n) (clock n 0)

theorem startOf_le_succ (hbefore : IsLedgerOf symbol h before)
    (hclock : ∀ n, clock n 0 ≤ clock (n + 1) 0) {n : ℕ}
    (hall : AllStored h (tableAfter h symbol limit clock before n)
      (startOf h symbol limit clock before n)) :
    startOf h symbol limit clock before n ≤ startOf h symbol limit clock before (n + 1) := by
  have hcontent := @content_syncSymbolIncome h symbol limit _ (clock n)
    (isLedgerOf_tableAfter hbefore n) hall
  have hlast := @lastIncomeAt_congr symbol _ _ hcontent
  have htick := hclock n
  rw [startOf, startOf, computeSince, computeSince, tableAfter, hlast]
  cases lastIncomeAt symbol (tableAfter h symbol limit clock before n) with
  | none =>
    dsimp only
    omega
  | some last => exact le_rfl

theorem exists_allStored (hbefore : IsLedgerOf symbol h before) (hlimit : 0 < limit)
    (hfair : ∀ n, StepFair h symbol limit (tableAfter h symbol limit clock before n) (clock n 0))
    {since : ℤ} {n : ℕ}
    (hahead : MissingAhead h (tableAfter h symbol limit clock before n) since
      (startOf h symbol limit clock before n)) :
    ∃ m, AllStored h (tableAfter h symbol limit clock before m)
        (startOf h symbol limit clock before m) ∧
      AllStored h (tableAfter h symbol limit clock before m) since := by
  induction hcount : (missing h (tableAfter h symbol limit clock before n)).length
    using Nat.strong_induction_on generalizing n with
  | h count ih =>
    by_cases hall : AllStored h (tableAfter h symbol limit clock before n)
        (startOf h symbol limit clock before n)
    · refine ⟨n, hall, fun r hr hsince => ?_⟩
      by_contra hnot
      exact hnot (hall r hr (hahead r hr hsince hnot))
    · have hledger := @isLedgerOf_tableAfter h symbol limit clock before hbefore n
      obtain ⟨hnew, hnext⟩ :=
        step_of_stepFair hledger hlimit (hfair n) hall hahead (clock (n + 1) 0)
      have hless := missing_lt (stores_syncSymbolIncome hledger) hnew
      exact ih _ (hcount ▸ hless) (n := n + 1) hnext rfl

/-- Once all rows are stored since the start of a call and since some time, they stay so, and every
further call changes nothing but times of ingestion. -/
theorem settled_from (hbefore : IsLedgerOf symbol h before)
    (hclock : ∀ n, clock n 0 ≤ clock (n + 1) 0) {since : ℤ} {m : ℕ}
    (hstart : AllStored h (tableAfter h symbol limit clock before m)
      (startOf h symbol limit clock before m))
    (hsince : AllStored h (tableAfter h symbol limit clock before m) since) (n : ℕ) (hn : m ≤ n) :
    AllStored h (tableAfter h symbol limit clock before n)
        (startOf h symbol limit clock before n) ∧
      Settled h symbol since (tableAfter h symbol limit clock before n)
        (tableAfter h symbol limit clock before (n + 1)) := by
  have hkept : ∀ k, AllStored h (tableAfter h symbol limit clock before k)
      (startOf h symbol limit clock before k) →
      content (tableAfter h symbol limit clock before (k + 1)) =
        content (tableAfter h symbol limit clock before k) := fun k hall =>
    content_syncSymbolIncome (isLedgerOf_tableAfter hbefore k) hall
  have hall : AllStored h (tableAfter h symbol limit clock before n)
        (startOf h symbol limit clock before n) ∧
      AllStored h (tableAfter h symbol limit clock before n) since := by
    induction n, hn using Nat.le_induction with
    | base => exact ⟨hstart, hsince⟩
    | succ n _ ih =>
      have hstored := stored_congr (hkept n ih.1)
      have hlater := startOf_le_succ hbefore hclock ih.1
      exact ⟨fun r hr htime => (hstored r).mpr (ih.1 r hr (hlater.trans htime)),
        fun r hr htime => (hstored r).mpr (ih.2 r hr htime)⟩
  exact ⟨hall.1, fun r hr htime =>
    (isLedgerOf_tableAfter hbefore n).once hr (hall.2 r hr htime), hkept n hall.1⟩

end Runs

/-- **No funding event is lost** if every call gets on: from some call on, every row since the start
of the first call is stored exactly once, and a further call changes nothing but times of
ingestion. -/
theorem settled_of_stepFair (h : FundingHistory) (symbol : String) (limit : ℕ) (hlimit : 0 < limit)
    (clock : ℕ → ℕ → ℤ) (hclock : ∀ n, clock n 0 ≤ clock (n + 1) 0) (before : IncomeLedger)
    (hbefore : IsLedgerOf symbol h before)
    (hfair : ∀ n, StepFair h symbol limit (tableAfter h symbol limit clock before n) (clock n 0)) :
    ∃ m, ∀ n, m ≤ n → Settled h symbol (startOf h symbol limit clock before 0)
      (tableAfter h symbol limit clock before n)
      (tableAfter h symbol limit clock before (n + 1)) := by
  have hahead : MissingAhead h (tableAfter h symbol limit clock before 0)
      (startOf h symbol limit clock before 0) (startOf h symbol limit clock before 0) :=
    fun _ _ htime _ => htime
  obtain ⟨m, hstart, hsince⟩ := exists_allStored hbefore hlimit hfair hahead
  exact ⟨m, fun n hn => (settled_from hbefore hclock hstart hsince n hn).2⟩

/-- Two fees at one time, in one page. -/
def twoFees : FundingHistory where
  rows := [⟨"FUNDING_FEE", "USDT", -1, none, "1", none, none, some 10⟩,
    ⟨"FUNDING_FEE", "USDT", 2, none, "2", none, none, some 10⟩]
  funding := by decide
  ascending := by simp [Ascending, NormalizedIncome.time]
  nodup := by decide

theorem settled_twoFees : ∃ m, ∀ n, m ≤ n → Settled twoFees "BTC/USDT:USDT"
    (startOf twoFees "BTC/USDT:USDT" 2 (fun _ _ => 0) [] 0)
    (tableAfter twoFees "BTC/USDT:USDT" 2 (fun _ _ => 0) [] n)
    (tableAfter twoFees "BTC/USDT:USDT" 2 (fun _ _ => 0) [] (n + 1)) := by
  have hsame : ∀ n, tableAfter twoFees "BTC/USDT:USDT" 2 (fun _ _ => 0) [] (n + 1) =
      tableAfter twoFees "BTC/USDT:USDT" 2 (fun _ _ => 0) [] 1 := by
    intro n
    induction n with
    | zero => rfl
    | succ n ih =>
      rw [tableAfter, ih]
      decide +kernel
  refine settled_of_stepFair twoFees "BTC/USDT:USDT" 2 (by decide) (fun _ _ => 0)
    (fun _ => le_rfl) [] ⟨List.nodup_nil, fun row hrow => absurd hrow List.not_mem_nil⟩ fun n => ?_
  cases n with
  | zero => exact Or.inr ⟨Or.inr (Or.inl (by decide +kernel)), Or.inl (by decide +kernel)⟩
  | succ n =>
    rw [hsame n]
    refine Or.inl ?_
    unfold AllStored
    decide +kernel

/-- A fee, and two at one time behind it. -/
def threeFees : FundingHistory where
  rows := [⟨"FUNDING_FEE", "USDT", -1, none, "1", none, none, some 10⟩,
    ⟨"FUNDING_FEE", "USDT", 2, none, "2", none, none, some 20⟩,
    ⟨"FUNDING_FEE", "USDT", 3, none, "3", none, none, some 20⟩]
  funding := by decide
  ascending := by simp [Ascending, NormalizedIncome.time]
  nodup := by decide

/-- With pages of two rows the first page ends between the two fees of one time.  The next one
starts behind both, and every further call reads the same page first. -/
theorem not_settled_threeFees : ¬ ∃ m, ∀ n, m ≤ n → Settled threeFees "BTC/USDT:USDT"
    (startOf threeFees "BTC/USDT:USDT" 2 (fun _ _ => 0) [] 0)
    (tableAfter threeFees "BTC/USDT:USDT" 2 (fun _ _ => 0) [] n)
    (tableAfter threeFees "BTC/USDT:USDT" 2 (fun _ _ => 0) [] (n + 1)) := by
  have hsame : ∀ n, tableAfter threeFees "BTC/USDT:USDT" 2 (fun _ _ => 0) [] (n + 1) =
      tableAfter threeFees "BTC/USDT:USDT" 2 (fun _ _ => 0) [] 1 := by
    intro n
    induction n with
    | zero => rfl
    | succ n ih =>
      rw [tableAfter, ih]
      decide +kernel
  rintro ⟨m, hm⟩
  have honce := (hm (m + 1) (Nat.le_succ m)).once
    ⟨"FUNDING_FEE", "USDT", 3, none, "3", none, none, some 20⟩ (by decide) (by decide +kernel)
  rw [hsame m] at honce
  revert honce
  decide +kernel

end IncomeSync
end AdviserConstructor
