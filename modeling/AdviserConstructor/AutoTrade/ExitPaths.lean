import AdviserConstructor.AutoTrade.SignalTrading

/-!
# The paths that close a position

Four parts of `app/services/auto_trade/service.py` mark a row closed on their own account: the
flatten behind a manual close and behind the kill-switch, the emergency close of an entry that got
no protection, the signal, and the reconciler that polls the exchange.  Each combines cancelling,
looking, closing and marking in its own order.

A row may be marked closed when the exchange has reported the position flat, or when a close has
executed all of it; and where a close fails, the stop of the position has to be live still.  The
first is read off the answers that the path has got and off the venue behind it, the second off the
venue alone.

* `honest_flatten_iff`: the flatten takes any accepted close for a whole one, and it cancels the
  stop before it knows whether the close succeeds.
* `honest_emergency_iff`: the emergency close does not look at the outcome of its close at all.
* `honest_signal_iff`, `honest_reconcile_iff`: the other two wait for a flat report, and are wrong
  only when it is about another symbol than the one of the row.
-/

namespace AdviserConstructor

/-! ## Flattening a position -/

/-- `PartialCloseResult`, as far as the flatten reads it. -/
structure PartialCloseResult where
  executedQty : ℚ
  avgPrice : ℚ := 0
  deriving DecidableEq, Repr

/-- How the exchange answers a flatten. -/
structure FlattenAnswers where
  /-- the exception, if the adapter cannot be created -/
  adapterError : Option ServiceError := none
  cancel : String → CancelReply
  /-- `get_position` -/
  lookup : PositionReply
  /-- `partial_close` -/
  close : CloseReply PartialCloseResult

/-- What `_flatten_single_position` returns: `AutoTradeClosedPositionInfo`,
`AutoTradeFailedClosePositionInfo`, or `None` where the position was flat already. -/
inductive FlattenInfo where
  | closed (positionId symbol : String) (side : PositionSide) (executedQty : ℚ)
      (avgPrice : Option ℚ) (cancelledConditionalOrders : List String)
  | failed (positionId symbol error : String)
  | alreadyFlat
  deriving DecidableEq

/-- What an exit path leaves behind. -/
structure ExitOutcome where
  row : PositionRow
  venue : Venue
  answers : List VenueAnswer := []

/-- Cancel the orders one by one; an order is noted as cancelled unless the call raises. -/
def cancelConditionalOrders (cancel : String → CancelReply) (venue : Venue) :
    List String → Venue × List String
  | [] => (venue, [])
  | id :: ids =>
      let rest := cancelConditionalOrders cancel (venue.cancelConditional id (cancel id)) ids
      match cancel id with
      | .raised .. => rest
      | _ => (rest.1, id :: rest.2)

/-- The size that `get_position` reports. -/
def PositionReply.reportedSize : PositionReply → Option ℚ
  | .snapshot live => some |live.size|
  | _ => none

/-- What `get_position` tells, unless it raises; a position that is not there is flat. -/
def PositionReply.answer (symbol : String) : PositionReply → List VenueAnswer
  | .snapshot live => [.position symbol (|live.size| ≤ positionEpsilon)]
  | .noPosition => [.position symbol true]
  | .raised => []

/-- The size that a flatten closes: the reported one, or what the row holds where none is. -/
def FlattenAnswers.liveSize (answers : FlattenAnswers) (row : PositionRow) : ℚ :=
  answers.lookup.reportedSize.getD row.heldQuantity

/-- `_flatten_single_position`. -/
def flattenSinglePosition (venue : Venue) (row : PositionRow) (reason : Option String)
    (answers : FlattenAnswers) : ExitOutcome × FlattenInfo :=
  match answers.adapterError with
  | some error =>
      ({ row, venue }, .failed row.positionId row.symbol ("adapter_init_failed: " ++ error.message))
  | none =>
      let (venue, cancelled) :=
        cancelConditionalOrders answers.cancel venue row.conditionalOrderIds
      let liveSize := answers.liveSize row
      let seen := answers.lookup.answer row.symbol
      if liveSize ≤ positionEpsilon then
        ({ row := row.markPositionClosed (reason.getD "manual_close_already_flat") none
           venue
           answers := seen }, .alreadyFlat)
      else
        let venue := venue.reduceOnly row.symbol liveSize answers.close.filled
        match answers.close with
        | .raised _ error =>
            ({ row, venue, answers := seen ++ [.close row.symbol true] },
              .failed row.positionId row.symbol error.message)
        | .accepted _ result =>
            let avgPrice := if 0 < result.avgPrice then some result.avgPrice else none
            ({ row := row.markPositionClosed (reason.getD "manual_close") avgPrice
               venue
               answers := seen ++ [.close row.symbol false] },
              .closed row.positionId row.symbol row.side result.executedQty avgPrice cancelled)

/-! ## Closing an unprotected entry -/

/-- An entry without protection: its row, and the context that was built with it, for the same
symbol. -/
structure UnprotectedEntry where
  row : PositionRow
  position : PositionContext
  symbol_eq : position.symbol = row.symbol
  filledQuantity : ℚ

/-- `_emergency_close_unprotected_position`.  The order goes to the adapter or, without one, to the
trading service; it is the same reduce-only order. -/
def emergencyCloseUnprotectedPosition (venue : Venue) (entry : UnprotectedEntry) (historyId : ℕ)
    (close : CloseReply PartialCloseResult) : ExitOutcome where
  row := { entry.row.close "emergency_unprotected" with closeHistoryId := some historyId }
  venue := venue.reduceOnly entry.position.symbol entry.filledQuantity close.filled
  answers := [.close entry.position.symbol close.raises]

/-! ## Reconciling by polling -/

/-- `_reconcile_single_position_via_rest`.  The symbol is that of the poll; the row is the one that
is locked once the position is confirmed flat.  What a position that is still held has filled of
its ladder is reconciled apart from here. -/
def reconcileSinglePositionViaRest (venue : Venue) (row : PositionRow) (symbol : String)
    (live : FetchReply) (confirm : ℕ → FetchReply) : ExitOutcome :=
  match live with
  | .error _ => { row, venue }
  | .ok position =>
      if isPositionClosedOnExchange position then
        match confirmPositionClosed confirm with
        | .ok (true, latest) =>
            let answers := [.position symbol (isPositionClosedOnExchange latest)]
            if row.status = .closed ∨ row.state = .closed then { row, venue, answers }
            else
              { row :=
                  row.markPositionClosed "reconciled_closed_on_exchange"
                    (latest.bind (·.markPrice))
                venue
                answers }
        | _ => { row, venue }
      else { row, venue, answers := [.position symbol false] }

/-! ## The paths -/

/-- An exit path with everything it is given. -/
inductive ExitPath where
  | flatten (row : PositionRow) (reason : Option String) (answers : FlattenAnswers)
  | emergency (entry : UnprotectedEntry) (historyId : ℕ) (close : CloseReply PartialCloseResult)
  | signal (config : AutoTradeConfig) (state : SignalState) (given : TradeSignal)
      (historyId : ℕ) (row : PositionRow) (snapshotSymbol : String)
      (snapshot : Option ExchangePosition) (answers : TradingAnswers)
  | reconcile (row : PositionRow) (symbol : String) (live : FetchReply)
      (confirm : ℕ → FetchReply)

namespace ExitPath

def row : ExitPath → PositionRow
  | flatten row .. => row
  | emergency entry .. => entry.row
  | signal _ _ _ _ row .. => row
  | reconcile row .. => row

def run (venue : Venue) : ExitPath → ExitOutcome
  | flatten row reason answers => (flattenSinglePosition venue row reason answers).1
  | emergency entry historyId close =>
      emergencyCloseUnprotectedPosition venue entry historyId close
  | signal config state given historyId row snapshotSymbol snapshot answers =>
      let attempt :=
        processWithOpenPosition venue config state given historyId row snapshot answers
      { row := attempt.row
        venue := attempt.venue
        answers := FetchReply.answer snapshotSymbol (.ok snapshot) ++ attempt.answers }
  | reconcile row symbol live confirm =>
      reconcileSinglePositionViaRest venue row symbol live confirm

/-- The path has marked the row closed. -/
def Marks (venue : Venue) (path : ExitPath) : Prop :=
  path.row.status ≠ .closed ∧ (path.run venue).row.status = .closed

instance (venue : Venue) (path : ExitPath) : Decidable (path.Marks venue) :=
  inferInstanceAs (Decidable (_ ∧ _))

/-- The exchange has reported the position flat, or a close has left nothing of it. -/
def Gone (venue : Venue) (path : ExitPath) : Prop :=
  .position path.row.symbol true ∈ (path.run venue).answers ∨
    (path.run venue).venue.Flat path.row.symbol

/-- A close was sent, it raised, and something of the position remains. -/
def CloseFails (venue : Venue) (path : ExitPath) : Prop :=
  .close path.row.symbol true ∈ (path.run venue).answers ∧
    ¬ (path.run venue).venue.Flat path.row.symbol

/-- The stop of the row is live behind the path if it was before. -/
def StopKept (venue : Venue) (path : ExitPath) : Prop :=
  ∀ stop ∈ PositionRow.presentId path.row.slExchangeOrderId,
    stop ∈ venue.conditionals → stop ∈ (path.run venue).venue.conditionals

/-- **No position is declared closed while exposure remains**, and a close that fails leaves the
stop. -/
def Honest (venue : Venue) (path : ExitPath) : Prop :=
  (path.Marks venue → path.Gone venue) ∧ (path.CloseFails venue → path.StopKept venue)

section

variable {venue : Venue} {path : ExitPath}

theorem honest_iff_of_stopKept (hstop : path.CloseFails venue → path.StopKept venue) :
    path.Honest venue ↔ (path.Marks venue → path.Gone venue) := and_iff_left hstop

theorem honest_iff_of_marks {row : PositionRow}
    (hstop : path.CloseFails venue → path.StopKept venue)
    (hmarks : path.Marks venue ↔ row.status ≠ .closed) :
    path.Honest venue ↔ row.status = .closed ∨ path.Gone venue := by
  rw [honest_iff_of_stopKept hstop, hmarks]
  exact or_iff_not_imp_left.symm

end

end ExitPath

/-! ## Cancelling -/

@[simp] theorem cancelConditionalOrders_size (cancel : String → CancelReply) (venue : Venue)
    (ids : List String) : (cancelConditionalOrders cancel venue ids).1.size = venue.size := by
  induction ids generalizing venue with
  | nil => rfl
  | cons id ids ih =>
    rw [cancelConditionalOrders]
    cases cancel id with
    | raised => rw [ih, Venue.cancelConditional_size]
    | accepted => rw [ih, Venue.cancelConditional_size]
    | rejected => rw [ih, Venue.cancelConditional_size]

theorem mem_cancelConditionalOrders {cancel : String → CancelReply} {venue : Venue}
    {ids : List String} {order : String} :
    order ∈ (cancelConditionalOrders cancel venue ids).1.conditionals ↔
      order ∈ venue.conditionals ∧ ¬ ((cancel order).effective = true ∧ order ∈ ids) := by
  induction ids generalizing venue with
  | nil => simp [cancelConditionalOrders]
  | cons id ids ih =>
    have hrest : order ∈ (cancelConditionalOrders cancel
        (venue.cancelConditional id (cancel id)) ids).1.conditionals ↔
        order ∈ venue.conditionals ∧
          ¬ ((cancel order).effective = true ∧ order ∈ id :: ids) := by
      rw [ih, Venue.mem_cancelConditional, List.mem_cons]
      by_cases hid : order = id
      · subst hid
        tauto
      · tauto
    rw [cancelConditionalOrders]
    cases hreply : cancel id with
    | raised => rw [hreply] at hrest; exact hrest
    | accepted => rw [hreply] at hrest; exact hrest
    | rejected => rw [hreply] at hrest; exact hrest

theorem flat_congr {venue other : Venue} (hsize : venue.size = other.size) (symbol : String) :
    venue.Flat symbol ↔ other.Flat symbol := by
  unfold Venue.Flat
  rw [hsize]

theorem reduceOnly_size_congr {venue other : Venue} (hsize : venue.size = other.size)
    (symbol : String) (quantity filled : ℚ) :
    (venue.reduceOnly symbol quantity filled).size =
      (other.reduceOnly symbol quantity filled).size := by
  unfold Venue.reduceOnly Venue.executed
  rw [hsize]

/-! ## The flatten -/

namespace ExitPath

/-- No live stop of the row is lost to the cancellations. -/
def StopSpared (venue : Venue) (row : PositionRow) (cancel : String → CancelReply) : Prop :=
  ∀ stop ∈ PositionRow.presentId row.slExchangeOrderId,
    stop ∈ venue.conditionals → (cancel stop).effective = false

/-- The flattens that do what they should: without an adapter; with nothing to close, if the
exchange has said so or it is true; and else with a close that executes the whole size, or that
raises when no live stop has been cancelled. -/
def FlattenCareful (venue : Venue) (row : PositionRow) (answers : FlattenAnswers) : Prop :=
  answers.adapterError.isSome = true ∨
    if answers.liveSize row ≤ positionEpsilon then
      row.status = .closed ∨ .position row.symbol true ∈ answers.lookup.answer row.symbol ∨
        venue.Flat row.symbol
    else
      (venue.reduceOnly row.symbol (answers.liveSize row) answers.close.filled).Flat row.symbol ∨
        if answers.close.raises then StopSpared venue row answers.cancel
        else
          row.status = .closed ∨ .position row.symbol true ∈ answers.lookup.answer row.symbol

theorem close_not_mem_lookup (lookup : PositionReply) (symbol : String) (raised : Bool) :
    VenueAnswer.close symbol raised ∉ lookup.answer symbol := by
  cases lookup with
  | snapshot live => simp [PositionReply.answer]
  | noPosition => simp [PositionReply.answer]
  | raised => simp [PositionReply.answer]

section Flatten

variable {venue : Venue} {row : PositionRow} {reason : Option String} {answers : FlattenAnswers}

/-- The venue behind the cancellations of a flatten. -/
def cancelled (venue : Venue) (row : PositionRow) (answers : FlattenAnswers) : Venue :=
  (cancelConditionalOrders answers.cancel venue row.conditionalOrderIds).1

theorem flat_cancelled (symbol : String) :
    (cancelled venue row answers).Flat symbol ↔ venue.Flat symbol :=
  flat_congr (cancelConditionalOrders_size ..) symbol

theorem flat_reduceOnly_cancelled (symbol : String) (quantity filled : ℚ) :
    ((cancelled venue row answers).reduceOnly symbol quantity filled).Flat symbol ↔
      (venue.reduceOnly symbol quantity filled).Flat symbol :=
  flat_congr (reduceOnly_size_congr (cancelConditionalOrders_size ..) ..) symbol

theorem honest_flatten_failed {error : ServiceError}
    (hadapter : answers.adapterError = some error) : (flatten row reason answers).Honest venue := by
  have hrun : (flatten row reason answers).run venue = { row, venue } := by
    simp only [run, flattenSinglePosition, hadapter]
  constructor
  · rintro ⟨hopen, hclosed⟩
    rw [hrun] at hclosed
    exact absurd hclosed hopen
  · rintro ⟨hraised, -⟩
    rw [hrun] at hraised
    cases hraised

theorem honest_flatten_nothing (hadapter : answers.adapterError = none)
    (hsmall : answers.liveSize row ≤ positionEpsilon) :
    (flatten row reason answers).Honest venue ↔
      row.status = .closed ∨ .position row.symbol true ∈ answers.lookup.answer row.symbol ∨
        venue.Flat row.symbol := by
  have hrun : (flatten row reason answers).run venue =
      { row := row.markPositionClosed (reason.getD "manual_close_already_flat") none
        venue := cancelled venue row answers
        answers := answers.lookup.answer row.symbol } := by
    simp only [run, flattenSinglePosition, hadapter, hsmall, if_true, cancelled]
  have hmarks : (flatten row reason answers).Marks venue ↔ row.status ≠ .closed := by
    unfold Marks
    rw [hrun]
    exact and_iff_left (PositionRow.markPositionClosed_status ..)
  have hgone : (flatten row reason answers).Gone venue ↔
      .position row.symbol true ∈ answers.lookup.answer row.symbol ∨ venue.Flat row.symbol := by
    unfold Gone
    rw [hrun]
    exact or_congr_right (flat_cancelled _)
  have hfails : ¬ (flatten row reason answers).CloseFails venue := by
    rintro ⟨hraised, -⟩
    rw [hrun] at hraised
    exact close_not_mem_lookup _ _ _ hraised
  rw [honest_iff_of_marks (fun h => absurd h hfails) hmarks, hgone]

theorem honest_flatten_raised {filled : ℚ} {error : ServiceError}
    (hadapter : answers.adapterError = none) (hlarge : ¬ answers.liveSize row ≤ positionEpsilon)
    (hclose : answers.close = .raised filled error) :
    (flatten row reason answers).Honest venue ↔
      (venue.reduceOnly row.symbol (answers.liveSize row) filled).Flat row.symbol ∨
        StopSpared venue row answers.cancel := by
  have hrun : (flatten row reason answers).run venue =
      { row
        venue := (cancelled venue row answers).reduceOnly row.symbol (answers.liveSize row) filled
        answers := answers.lookup.answer row.symbol ++ [.close row.symbol true] } := by
    simp only [run, flattenSinglePosition, hadapter, hlarge, if_false, cancelled, hclose,
      CloseReply.filled_raised]
  have hmarks : ¬ (flatten row reason answers).Marks venue := by
    rintro ⟨hopen, hclosed⟩
    rw [hrun] at hclosed
    exact hopen hclosed
  have hfails : (flatten row reason answers).CloseFails venue ↔
      ¬ (venue.reduceOnly row.symbol (answers.liveSize row) filled).Flat row.symbol := by
    unfold CloseFails
    rw [hrun, ← flat_reduceOnly_cancelled]
    exact and_iff_right (List.mem_append_right _ (List.mem_singleton_self _))
  have hkept : (flatten row reason answers).StopKept venue ↔
      StopSpared venue row answers.cancel := by
    unfold StopKept StopSpared
    rw [hrun]
    refine forall₂_congr fun stop hstop => imp_congr_right fun hlive => ?_
    change stop ∈ (cancelConditionalOrders _ _ _).1.conditionals ↔ _
    have hknown := PositionRow.stop_mem_conditionalOrderIds hstop
    rw [mem_cancelConditionalOrders, and_iff_right hlive, ← Bool.not_eq_true]
    exact not_congr (and_iff_left hknown)
  unfold Honest
  rw [hkept, hfails, and_iff_right fun hmarked => absurd hmarked hmarks]
  exact or_iff_not_imp_left.symm

theorem honest_flatten_accepted {filled : ℚ} {result : PartialCloseResult}
    (hadapter : answers.adapterError = none) (hlarge : ¬ answers.liveSize row ≤ positionEpsilon)
    (hclose : answers.close = .accepted filled result) :
    (flatten row reason answers).Honest venue ↔
      (venue.reduceOnly row.symbol (answers.liveSize row) filled).Flat row.symbol ∨
        row.status = .closed ∨ .position row.symbol true ∈ answers.lookup.answer row.symbol := by
  have hrun : (flatten row reason answers).run venue =
      { row := row.markPositionClosed (reason.getD "manual_close")
          (if 0 < result.avgPrice then some result.avgPrice else none)
        venue := (cancelled venue row answers).reduceOnly row.symbol (answers.liveSize row) filled
        answers := answers.lookup.answer row.symbol ++ [.close row.symbol false] } := by
    simp only [run, flattenSinglePosition, hadapter, hlarge, if_false, cancelled, hclose,
      CloseReply.filled_accepted]
  have hmarks : (flatten row reason answers).Marks venue ↔ row.status ≠ .closed := by
    unfold Marks
    rw [hrun]
    exact and_iff_left (PositionRow.markPositionClosed_status ..)
  have hgone : (flatten row reason answers).Gone venue ↔
      .position row.symbol true ∈ answers.lookup.answer row.symbol ∨
        (venue.reduceOnly row.symbol (answers.liveSize row) filled).Flat row.symbol := by
    unfold Gone
    rw [hrun, ← flat_reduceOnly_cancelled]
    refine or_congr_left ?_
    rw [List.mem_append, List.mem_singleton]
    exact or_iff_left (by rintro ⟨⟩)
  have hfails : ¬ (flatten row reason answers).CloseFails venue := by
    rintro ⟨hraised, -⟩
    rw [hrun, List.mem_append, List.mem_singleton] at hraised
    rcases hraised with hraised | hraised
    · exact close_not_mem_lookup _ _ _ hraised
    · cases hraised
  rw [honest_iff_of_marks (fun h => absurd h hfails) hmarks, hgone, ← or_assoc, or_comm]

/-- **A flatten is honest exactly if it closes the whole size, or has not cancelled the stop.** -/
theorem honest_flatten_iff :
    (flatten row reason answers).Honest venue ↔ FlattenCareful venue row answers := by
  unfold FlattenCareful
  cases hadapter : answers.adapterError with
  | some error => exact iff_of_true (honest_flatten_failed hadapter) (Or.inl rfl)
  | none =>
    rw [or_iff_right (by simp)]
    by_cases hsmall : answers.liveSize row ≤ positionEpsilon
    · rw [if_pos hsmall]
      exact honest_flatten_nothing hadapter hsmall
    · rw [if_neg hsmall]
      cases hclose : answers.close with
      | raised filled error => exact honest_flatten_raised hadapter hsmall hclose
      | accepted filled result => exact honest_flatten_accepted hadapter hsmall hclose

end Flatten

/-! ## The other three -/

/-- **An emergency close is honest exactly if it executes the whole size**, because it does not ask
how its close went. -/
theorem honest_emergency_iff {venue : Venue} {entry : UnprotectedEntry} {historyId : ℕ}
    {close : CloseReply PartialCloseResult} :
    (emergency entry historyId close).Honest venue ↔
      entry.row.status = .closed ∨
        (venue.reduceOnly entry.row.symbol entry.filledQuantity close.filled).Flat
          entry.row.symbol := by
  have hmarks : (emergency entry historyId close).Marks venue ↔ entry.row.status ≠ .closed :=
    and_iff_left rfl
  have hgone : (emergency entry historyId close).Gone venue ↔
      (venue.reduceOnly entry.row.symbol entry.filledQuantity close.filled).Flat
        entry.row.symbol := by
    refine Iff.trans (or_iff_right fun hreport => ?_) ?_
    · cases List.mem_singleton.mp hreport
    · change (venue.reduceOnly entry.position.symbol _ _).Flat entry.row.symbol ↔ _
      rw [entry.symbol_eq]
  have hkept : (emergency entry historyId close).StopKept venue := fun _ _ hlive => hlive
  rw [honest_iff_of_marks (fun _ => hkept) hmarks, hgone]

/-- **A signal is honest unless it takes the flat snapshot of another symbol for its own.** -/
theorem honest_signal_iff {venue : Venue} {config : AutoTradeConfig} {state : SignalState}
    {given : TradeSignal} {historyId : ℕ} {row : PositionRow} {snapshotSymbol : String}
    {snapshot : Option ExchangePosition} {answers : TradingAnswers} :
    (signal config state given historyId row snapshotSymbol snapshot answers).Honest venue ↔
      isPositionClosedOnExchange snapshot = false ∨ row.status = .closed ∨
        snapshotSymbol = row.symbol ∨ venue.Flat row.symbol := by
  set path := signal config state given historyId row snapshotSymbol snapshot answers with hpath
  have hkept : path.StopKept venue := by
    intro stop _ hlive
    change stop ∈ (processWithOpenPosition venue config state given historyId row snapshot
      answers).venue.conditionals
    rwa [conditionals_processWithOpenPosition]
  by_cases hflat : isPositionClosedOnExchange snapshot = true
  · have hattempt : processWithOpenPosition venue config state given historyId row snapshot
        answers =
        { state := state.observe given.trend
          row := row.alreadyClosedOnExchange historyId snapshot
          venue } := if_pos hflat
    have hrun : path.run venue =
        { row := row.alreadyClosedOnExchange historyId snapshot
          venue
          answers := [.position snapshotSymbol true] } := by
      simp only [hpath, run, hattempt, FetchReply.answer, hflat, List.append_nil]
    have hmarks : path.Marks venue ↔ row.status ≠ .closed := by
      unfold Marks
      rw [hrun]
      exact and_iff_left rfl
    have hgone : path.Gone venue ↔ snapshotSymbol = row.symbol ∨ venue.Flat row.symbol := by
      unfold Gone
      rw [hrun]
      refine or_congr_left ?_
      rw [List.mem_singleton, VenueAnswer.position.injEq, and_iff_left rfl, eq_comm]
      rfl
    rw [honest_iff_of_marks (fun _ => hkept) hmarks, hgone, hflat]
    exact (or_iff_right (by simp)).symm
  · rw [honest_iff_of_stopKept fun _ => hkept]
    refine iff_of_true ?_ (Or.inl (Bool.not_eq_true _ ▸ hflat))
    rintro ⟨hopen, hclosed⟩
    cases processWithOpenPosition_cases venue config state given historyId row snapshot
      answers with
    | alreadyClosed hclosed => exact absurd hclosed hflat
    | closed hanswer => exact Or.inl (List.mem_append_right _ hanswer)
    | held hrow =>
      change (processWithOpenPosition venue config state given historyId row snapshot
        answers).row.status = _ at hclosed
      rw [hrow] at hclosed
      exact absurd hclosed hopen

/-- The answers of a poll confirm that its symbol is flat. -/
def ConfirmedFlat (live : FetchReply) (confirm : ℕ → FetchReply) : Prop :=
  (∃ position, live = .ok position ∧ isPositionClosedOnExchange position = true) ∧
    ∃ latest, confirmPositionClosed confirm = .ok (true, latest)

theorem reconcile_of_not_confirmed {venue : Venue} {row : PositionRow} {symbol : String}
    {live : FetchReply} {confirm : ℕ → FetchReply} (h : ¬ ConfirmedFlat live confirm) :
    (reconcileSinglePositionViaRest venue row symbol live confirm).row = row := by
  unfold reconcileSinglePositionViaRest
  cases live with
  | error => rfl
  | ok position =>
    by_cases hflat : isPositionClosedOnExchange position = true
    · simp only [hflat]
      cases hconfirm : confirmPositionClosed confirm with
      | error => rfl
      | ok confirmed =>
        obtain ⟨closed, latest⟩ := confirmed
        cases closed with
        | false => rfl
        | true => exact absurd ⟨⟨position, rfl, hflat⟩, latest, hconfirm⟩ h
    · simp only [hflat]
      rfl

theorem reconcile_of_confirmed {venue : Venue} {row : PositionRow} {symbol : String}
    {live : FetchReply} {confirm : ℕ → FetchReply} (h : ConfirmedFlat live confirm)
    (hopen : ¬ (row.status = .closed ∨ row.state = .closed)) :
    (reconcileSinglePositionViaRest venue row symbol live confirm).row.status = .closed ∧
      (reconcileSinglePositionViaRest venue row symbol live confirm).answers =
        [.position symbol true] := by
  obtain ⟨⟨position, rfl, hflat⟩, latest, hconfirm⟩ := h
  unfold reconcileSinglePositionViaRest
  simp only [hflat, if_true, hconfirm, hopen, if_false,
    closed_of_confirmPositionClosed hconfirm, PositionRow.markPositionClosed_status, and_self]

theorem reconcile_of_closed {venue : Venue} {row : PositionRow} {symbol : String}
    {live : FetchReply} {confirm : ℕ → FetchReply}
    (h : row.status = .closed ∨ row.state = .closed) :
    (reconcileSinglePositionViaRest venue row symbol live confirm).row = row := by
  by_cases hconfirmed : ConfirmedFlat live confirm
  · obtain ⟨⟨position, rfl, hflat⟩, latest, hconfirm⟩ := hconfirmed
    unfold reconcileSinglePositionViaRest
    simp only [hflat, if_true, hconfirm, h]
  · exact reconcile_of_not_confirmed hconfirmed

theorem reconcile_venue (venue : Venue) (row : PositionRow) (symbol : String) (live : FetchReply)
    (confirm : ℕ → FetchReply) :
    (reconcileSinglePositionViaRest venue row symbol live confirm).venue = venue := by
  unfold reconcileSinglePositionViaRest
  cases live with
  | error => rfl
  | ok position =>
    simp only
    split
    · split
      · split <;> rfl
      · rfl
    · rfl

/-- **The reconciler is honest unless it has polled another symbol than that of the row.** -/
theorem honest_reconcile_iff {venue : Venue} {row : PositionRow} {symbol : String}
    {live : FetchReply} {confirm : ℕ → FetchReply} :
    (reconcile row symbol live confirm).Honest venue ↔
      ¬ ConfirmedFlat live confirm ∨ row.status = .closed ∨ row.state = .closed ∨
        symbol = row.symbol ∨ venue.Flat row.symbol := by
  have hkept : (reconcile row symbol live confirm).StopKept venue := by
    intro stop _ hlive
    change stop ∈ (reconcileSinglePositionViaRest ..).venue.conditionals
    rwa [reconcile_venue]
  rw [honest_iff_of_stopKept fun _ => hkept]
  by_cases hconfirmed : ConfirmedFlat live confirm
  · by_cases hopen : row.status = .closed ∨ row.state = .closed
    · refine iff_of_true ?_ (Or.inr (hopen.imp id Or.inl))
      rintro ⟨hstatus, hclosed⟩
      change (reconcileSinglePositionViaRest venue row symbol live confirm).row.status = _
        at hclosed
      rw [reconcile_of_closed hopen] at hclosed
      exact absurd hclosed hstatus
    · obtain ⟨hstatus, hanswers⟩ :=
        @reconcile_of_confirmed venue row symbol live confirm hconfirmed hopen
      have hmarks : (reconcile row symbol live confirm).Marks venue :=
        ⟨fun h => hopen (Or.inl h), hstatus⟩
      have hgone : (reconcile row symbol live confirm).Gone venue ↔
          symbol = row.symbol ∨ venue.Flat row.symbol := by
        refine or_congr ?_ ?_
        · change _ ∈ (reconcileSinglePositionViaRest ..).answers ↔ _
          rw [hanswers, List.mem_singleton, VenueAnswer.position.injEq, and_iff_left rfl, eq_comm]
          rfl
        · change (reconcileSinglePositionViaRest ..).venue.Flat _ ↔ _
          rw [reconcile_venue]
          rfl
      obtain ⟨hstatus', hstate⟩ := not_or.mp hopen
      rw [imp_iff_right hmarks, hgone, or_iff_right (not_not.mpr hconfirmed), or_iff_right hstatus',
        or_iff_right hstate]
  · refine iff_of_true ?_ (Or.inl hconfirmed)
    rintro ⟨hstatus, hclosed⟩
    change (reconcileSinglePositionViaRest venue row symbol live confirm).row.status = _ at hclosed
    rw [reconcile_of_not_confirmed hconfirmed] at hclosed
    exact absurd hclosed hstatus

/-! ## All four -/

def Careful (venue : Venue) : ExitPath → Prop
  | flatten row _ answers => FlattenCareful venue row answers
  | emergency entry _ close =>
      entry.row.status = .closed ∨
        (venue.reduceOnly entry.row.symbol entry.filledQuantity close.filled).Flat
          entry.row.symbol
  | signal _ _ _ _ row snapshotSymbol snapshot _ =>
      isPositionClosedOnExchange snapshot = false ∨ row.status = .closed ∨
        snapshotSymbol = row.symbol ∨ venue.Flat row.symbol
  | reconcile row symbol live confirm =>
      ¬ ConfirmedFlat live confirm ∨ row.status = .closed ∨ row.state = .closed ∨
        symbol = row.symbol ∨ venue.Flat row.symbol

/-- **A path is honest if and only if it is careful.** -/
theorem honest_iff (venue : Venue) (path : ExitPath) :
    path.Honest venue ↔ path.Careful venue := by
  cases path with
  | flatten row reason answers => exact honest_flatten_iff
  | emergency entry historyId close => exact honest_emergency_iff
  | signal config state given historyId row snapshotSymbol snapshot answers =>
    exact honest_signal_iff
  | reconcile row symbol live confirm => exact honest_reconcile_iff

/-- A long position of one, with a stop. -/
def protectedRow : PositionRow where
  symbol := "BTC/USDT:USDT"
  entryPrice := 100
  quantity := 1
  currentQuantity := some 1
  slExchangeOrderId := some "7"

/-- The exchange with that position and its stop. -/
def protectedVenue : Venue where
  size symbol := if symbol = "BTC/USDT:USDT" then 1 else 0
  conditionals := {"7"}

/-- A flatten whose close is accepted, but executes half of the position. -/
def halfFilled : ExitPath :=
  .flatten protectedRow none
    { cancel := fun _ => .accepted
      lookup := .snapshot { side := .long, size := 1, markPrice := 100 }
      close := .accepted (1 / 2) { executedQty := 1 / 2 } }

/-- **A flatten declares a position closed of which half is left**, without a stop. -/
theorem halfFilled_not_honest : ¬ halfFilled.Honest protectedVenue := by
  rintro ⟨hgone, -⟩
  have hmarks : halfFilled.Marks protectedVenue := by decide +kernel
  rcases hgone hmarks with hreport | hflat
  · exact absurd hreport (by decide +kernel)
  · exact absurd hflat (by decide +kernel)

end ExitPath

end AdviserConstructor
