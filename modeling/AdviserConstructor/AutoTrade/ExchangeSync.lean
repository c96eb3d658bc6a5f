import AdviserConstructor.AutoTrade.Config
import AdviserConstructor.AutoTrade.PositionRow
import AdviserConstructor.AutoTrade.Venue
import AdviserConstructor.Library.DecimalText

/-!
# The sync of the open rows with the exchange

`_sync_open_position_with_exchange` loads the open rows of an account, the newest first, and asks
the exchange for the position in one symbol.  If there is none, the rows are closed, on request; if
there is one and no row, a row is created; otherwise the newest row is rewritten from the answer and
the others are closed as duplicates of it.  No step of it looks at the symbols of the rows, but to
overwrite the one of the newest.

A row that the query has loaded is an `OpenRow`.  What the sync leaves behind are the loaded rows in
the same order, the row that it has created, and what it returns or raises.  Time stamps and the raw
orders are left out; whether the raw order of the answer is another than that of the row is an
argument.

* `syncOpenPosition_flat`, `syncOpenPosition_live`: the rows that a sync leaves behind.
* `syncOpenPosition_local_iff`: it leaves the rows of other symbols alone exactly if there are none,
  the fetch raises, or the exchange has no position and the rows are not to be closed.
* `syncOpenPosition_editedProfile`: the symbol of the profile was edited while a position was open.
-/

namespace AdviserConstructor

open DecimalText

/-! ## Values -/

/-- `_positive_or_none`. -/
def positiveOrNone (value : Option ℚ) : Option ℚ := value.filter fun x => 0 < x

/-- A stored number that is kept if the live one is close to it, and replaced otherwise. -/
def keepIfClose (stored live : ℚ) : ℚ := if |stored - live| ≤ positionEpsilon then stored else live

/-- A row of the query for open rows. -/
structure OpenRow where
  row : PositionRow
  isOpen : row.status = .open

theorem OpenRow.ne_of_closed (r : OpenRow) {row : PositionRow} (hclosed : row.status = .closed) :
    row ≠ r.row := by
  intro h
  rw [h, r.isOpen] at hclosed
  cases hclosed

namespace PositionRow

/-- `_normalize_legacy_closed_position`. -/
def normalizeLegacyClosed (row : PositionRow) : PositionRow :=
  match row.closePrice with
  | none => row
  | some price =>
      if row.status = .closed ∧ row.closeReason = some "already_closed_on_exchange" ∧
          row.closeOrderId = none ∧ |price - row.entryPrice| ≤ positionEpsilon then
        { row with closePrice := none }
      else row

@[simp] theorem status_normalizeLegacyClosed (row : PositionRow) :
    row.normalizeLegacyClosed.status = row.status := by
  rw [normalizeLegacyClosed]
  split
  · rfl
  · split_ifs <;> rfl

/-- A row whose position is missing on the exchange. -/
def closeMissing (row : PositionRow) (historyId : Option ℕ) (markPrice : Option ℚ) : PositionRow :=
  let closed : PositionRow :=
    { row.close "already_closed_on_exchange" with closeHistoryId := historyId }
  match markPrice with
  | some price => { closed.normalizeLegacyClosed with closePrice := some price }
  | none => closed.normalizeLegacyClosed

def closeDuplicate (row : PositionRow) (historyId : Option ℕ) : PositionRow :=
  let closed : PositionRow :=
    { row.close "deduplicated_on_exchange_sync" with
      closeHistoryId := historyId
      closePrice := none }
  closed.normalizeLegacyClosed

/-- `state not in _OPEN_POSITION_STATE_NAMES`. -/
def stateNotOpen (row : PositionRow) : Bool := row.state ∈ [.closed, .cancelled, .failed]

@[simp] theorem status_closeMissing (row : PositionRow) (historyId : Option ℕ)
    (markPrice : Option ℚ) : (row.closeMissing historyId markPrice).status = .closed := by
  cases markPrice with
  | none =>
    show PositionRow.status (normalizeLegacyClosed _) = .closed
    rw [status_normalizeLegacyClosed]
    rfl
  | some price =>
    show PositionRow.status (normalizeLegacyClosed _) = .closed
    rw [status_normalizeLegacyClosed]
    rfl

@[simp] theorem status_closeDuplicate (row : PositionRow) (historyId : Option ℕ) :
    (row.closeDuplicate historyId).status = .closed := by
  show PositionRow.status (normalizeLegacyClosed _) = .closed
  rfl

end PositionRow

/-! ## The sync -/

/-- What the sync returns. -/
structure SyncResult where
  position : Option PositionRow
  changed : Bool
  exchangePosition : Option ExchangePosition

/-- What the sync leaves behind. -/
structure SyncOutcome where
  rows : List PositionRow
  created : Option PositionRow := none
  result : Except ServiceError SyncResult

/-- The leverage of a live position, or the one of the configuration. -/
def resolvedLeverage (config : AutoTradeConfig) (live : ExchangePosition) : ℕ :=
  match positiveOrNone live.leverage with
  | some leverage => (max 1 (roundHalfEven leverage)).toNat
  | none => config.leverage.toNat

/-- The entry price of a live position. -/
def resolvedEntryPrice (live : ExchangePosition) : Option ℚ :=
  (positiveOrNone live.entryPrice).or (positiveOrNone live.markPrice)

/-- The row that is created for a live position that no row is open for. -/
def adoptedRow (config : AutoTradeConfig) (executionSymbol : String) (historyId : Option ℕ)
    (live : ExchangePosition) (entryPrice : ℚ) : PositionRow where
  userId := config.userId
  configId := config.id
  profileId := config.profileId
  accountId := config.accountId
  symbol := executionSymbol
  side := live.side
  status := .open
  state := .open
  entryPrice := entryPrice
  quantity := live.contracts
  positionSizeUsdt :=
    if entryPrice * live.contracts ≤ positionEpsilon then max config.positionSizeUsdt 1
    else entryPrice * live.contracts
  leverage := resolvedLeverage config live
  tpPrice := (positiveOrNone live.takeProfitPrice).getD entryPrice
  slPrice := (positiveOrNone live.stopLossPrice).getD entryPrice
  originalQuantity := some live.contracts
  currentQuantity := some live.contracts
  openHistoryId := historyId

/-- A price of the row, behind the live one: a price that is not positive is replaced by the entry
price. -/
def syncedPrice (stored entryPrice : ℚ) (live : Option ℚ) : ℚ :=
  let target := (positiveOrNone live).getD stored
  keepIfClose stored (if target ≤ positionEpsilon then entryPrice else target)

/-- The newest row, rewritten from the live position. -/
def syncedRow (config : AutoTradeConfig) (executionSymbol : String) (live : ExchangePosition)
    (row : PositionRow) : PositionRow :=
  let entryPrice := ((resolvedEntryPrice live).map (keepIfClose row.entryPrice)).getD row.entryPrice
  { row with
    symbol := executionSymbol
    accountId := config.accountId
    configId := config.id
    profileId := config.profileId
    side := live.side
    state := if row.stateNotOpen then .open else row.state
    quantity := keepIfClose row.quantity live.contracts
    currentQuantity := some live.contracts
    originalQuantity := some (row.originalQuantity.getD live.contracts)
    entryPrice := entryPrice
    leverage := resolvedLeverage config live
    tpPrice := syncedPrice row.tpPrice entryPrice live.takeProfitPrice
    slPrice := syncedPrice row.slPrice entryPrice live.stopLossPrice }

/-- `_sync_open_position_with_exchange`. -/
def syncOpenPosition (config : AutoTradeConfig) (executionSymbol : String) (historyId : Option ℕ)
    (closeMissingOnExchange rawOrderDiffers : Bool) (reply : FetchReply) (openRows : List OpenRow) :
    SyncOutcome :=
  let loaded := openRows.map OpenRow.row
  match reply with
  | .error error => { rows := loaded, result := .error error }
  | .ok exchangePosition =>
      match exchangePosition.filter fun position => positionEpsilon < position.contracts with
      | none =>
          if closeMissingOnExchange ∧ loaded ≠ [] then
            { rows := loaded.map fun row =>
                row.closeMissing historyId
                  (exchangePosition.bind fun position => positiveOrNone position.markPrice)
              result := .ok ⟨none, true, exchangePosition⟩ }
          else { rows := loaded, result := .ok ⟨loaded.head?, false, exchangePosition⟩ }
      | some live =>
          match loaded with
          | [] =>
              match resolvedEntryPrice live with
              | none => { rows := [], result := .ok ⟨none, false, exchangePosition⟩ }
              | some entryPrice =>
                  let created := adoptedRow config executionSymbol historyId live entryPrice
                  { rows := []
                    created := some created
                    result := .ok ⟨some created, true, exchangePosition⟩ }
          | newest :: duplicates =>
              let synced := syncedRow config executionSymbol live newest
              { rows := synced :: duplicates.map fun row => row.closeDuplicate historyId
                result := .ok
                  ⟨some synced, synced ≠ newest || rawOrderDiffers || !duplicates.isEmpty,
                    exchangePosition⟩ }

/-! ## What a sync leaves behind -/

/-- Every loaded row of another symbol is left as it is. -/
def SyncOutcome.LocalTo (outcome : SyncOutcome) (executionSymbol : String)
    (openRows : List OpenRow) : Prop :=
  ∀ (i : ℕ) (r : OpenRow), openRows[i]? = some r → r.row.symbol ≠ executionSymbol →
    outcome.rows[i]? = some r.row

theorem filter_contracts_eq_none (exchangePosition : Option ExchangePosition) :
    (exchangePosition.filter fun position => positionEpsilon < position.contracts) = none ↔
      isPositionClosedOnExchange exchangePosition = true := by
  cases exchangePosition with
  | none => simp [isPositionClosedOnExchange]
  | some position => simp [isPositionClosedOnExchange]

section

variable (config : AutoTradeConfig) (executionSymbol : String) (historyId : Option ℕ)
  (closeMissingOnExchange rawOrderDiffers : Bool)

theorem syncOpenPosition_error (error : ServiceError) (openRows : List OpenRow) :
    (syncOpenPosition config executionSymbol historyId closeMissingOnExchange rawOrderDiffers
      (.error error) openRows).rows = openRows.map OpenRow.row := rfl

/-- No position on the exchange: every row is closed, or none. -/
theorem syncOpenPosition_flat {exchangePosition : Option ExchangePosition}
    (hflat : isPositionClosedOnExchange exchangePosition = true) (openRows : List OpenRow) :
    (syncOpenPosition config executionSymbol historyId closeMissingOnExchange rawOrderDiffers
      (.ok exchangePosition) openRows).rows =
      if closeMissingOnExchange then
        openRows.map fun r =>
          r.row.closeMissing historyId
            (exchangePosition.bind fun position => positiveOrNone position.markPrice)
      else openRows.map OpenRow.row := by
  rw [syncOpenPosition]
  simp only [(filter_contracts_eq_none exchangePosition).mpr hflat]
  by_cases hclose : closeMissingOnExchange = true
  · rw [if_pos hclose]
    cases openRows with
    | nil => simp
    | cons newest duplicates =>
      rw [if_pos ⟨hclose, List.cons_ne_nil _ _⟩, List.map_map]
      rfl
  · rw [if_neg hclose, if_neg fun h => hclose h.1]

/-- A position on the exchange: the newest row is rewritten and the others are closed. -/
theorem syncOpenPosition_live {exchangePosition : Option ExchangePosition}
    (hlive : isPositionClosedOnExchange exchangePosition ≠ true) (newest : OpenRow)
    (duplicates : List OpenRow) :
    ∃ live, exchangePosition = some live ∧
      (syncOpenPosition config executionSymbol historyId closeMissingOnExchange rawOrderDiffers
        (.ok exchangePosition) (newest :: duplicates)).rows =
        syncedRow config executionSymbol live newest.row ::
          duplicates.map fun r => r.row.closeDuplicate historyId := by
  cases hfilter : exchangePosition.filter fun position => positionEpsilon < position.contracts with
  | none => exact absurd ((filter_contracts_eq_none exchangePosition).mp hfilter) hlive
  | some live =>
    refine ⟨live, (Option.filter_eq_some_iff.mp hfilter).1, ?_⟩
    rw [syncOpenPosition]
    simp only [hfilter, List.map_cons, List.map_map]
    rfl

/-- **When a sync is local.**  The sync leaves the rows of other symbols as they are if and only if
there are no such rows, the fetch raises, or the exchange has no position in the symbol and the rows
are not to be closed. -/
theorem syncOpenPosition_local_iff (reply : FetchReply) (openRows : List OpenRow) :
    (syncOpenPosition config executionSymbol historyId closeMissingOnExchange rawOrderDiffers reply
      openRows).LocalTo executionSymbol openRows ↔
      (∀ r ∈ openRows, r.row.symbol = executionSymbol) ∨ (∃ error, reply = .error error) ∨
        (∃ position, reply = .ok position ∧ isPositionClosedOnExchange position = true) ∧
          closeMissingOnExchange = false := by
  have hunchanged : ∀ outcome : SyncOutcome, outcome.rows = openRows.map OpenRow.row →
      outcome.LocalTo executionSymbol openRows := by
    intro outcome hrows i r hr _
    rw [hrows, List.getElem?_map, hr]
    rfl
  constructor
  · intro hlocal
    cases reply with
    | error error => exact Or.inr (Or.inl ⟨error, rfl⟩)
    | ok position =>
      by_cases hflat : isPositionClosedOnExchange position = true
      · by_cases hclose : closeMissingOnExchange = true
        · -- every row is closed, so that none is of another symbol
          refine Or.inl fun r hr => by_contra fun hsymbol => ?_
          obtain ⟨i, hi⟩ := List.getElem?_of_mem hr
          have hkept := hlocal i r hi hsymbol
          rw [syncOpenPosition_flat config executionSymbol historyId closeMissingOnExchange
            rawOrderDiffers hflat openRows, if_pos hclose, List.getElem?_map, hi] at hkept
          exact r.ne_of_closed (PositionRow.status_closeMissing _ _ _) (Option.some.inj hkept)
        · exact Or.inr (Or.inr ⟨⟨position, rfl, hflat⟩, Bool.eq_false_iff.mpr hclose⟩)
      · refine Or.inl fun r hr => by_contra fun hsymbol => ?_
        obtain ⟨i, hi⟩ := List.getElem?_of_mem hr
        have hkept := hlocal i r hi hsymbol
        cases openRows with
        | nil => cases hr
        | cons newest duplicates =>
          obtain ⟨live, _, hrows⟩ := syncOpenPosition_live config executionSymbol historyId
            closeMissingOnExchange rawOrderDiffers hflat newest duplicates
          rw [hrows] at hkept
          cases i with
          | zero =>
            -- the newest row has the symbol of the sync now
            cases Option.some.inj hi
            exact hsymbol (congrArg (fun row => row.symbol) (Option.some.inj hkept)).symm
          | succ i =>
            rw [List.getElem?_cons_succ] at hi hkept
            rw [List.getElem?_map, hi] at hkept
            exact r.ne_of_closed (PositionRow.status_closeDuplicate _ _) (Option.some.inj hkept)
  · rintro (hsame | ⟨error, rfl⟩ | ⟨⟨position, rfl, hflat⟩, hclose⟩)
    · intro i r hr hsymbol
      exact absurd (hsame r (List.mem_of_getElem? hr)) hsymbol
    · exact hunchanged _ (syncOpenPosition_error ..)
    · refine hunchanged _ ?_
      rw [syncOpenPosition_flat config executionSymbol historyId closeMissingOnExchange
        rawOrderDiffers hflat openRows, if_neg (Bool.eq_false_iff.mp hclose)]

end

def bitcoinRow : OpenRow where
  row := { symbol := "BTC/USDT:USDT", entryPrice := 60000, quantity := 1 }
  isOpen := rfl

/-- The symbol of the profile was edited while the position was open.  The account has no position
in the new symbol, so that the sync closes the row, and the position in the old symbol goes on. -/
theorem syncOpenPosition_editedProfile :
    ¬ (syncOpenPosition { userId := 1 } "ETH/USDT:USDT" none true false (.ok none)
      [bitcoinRow]).LocalTo "ETH/USDT:USDT" [bitcoinRow] := by
  intro hlocal
  have hkept := congrArg (Option.map fun row => row.status)
    (hlocal 0 bitcoinRow rfl (by decide))
  revert hkept
  decide +kernel

end AdviserConstructor
