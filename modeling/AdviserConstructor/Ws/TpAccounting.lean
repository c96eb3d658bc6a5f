import AdviserConstructor.Ws.TpEvents

/-!
# The accounting of a multi-TP position

Two descriptions of one fill both subtract it.  An order event of an open level subtracts the
level's quantity whatever the position update has already done; the reconciler gives back what
the position update took before it subtracts, the order event does not.  So the order in which
the two arrive decides what the position thinks is left.

`Accounted` is what the accounting should come to: the position never shows less than the exchange
holds, it is not closed and its orders are not cancelled while the exchange holds anything, and
once every fill has been reported the books are those of processing each fill exactly once.
`Clear` is the condition on a step.

* `accounted_of_run`: along a run whose steps are all clear the accounting is right in every state
  reached.
* `positionUpdate_first_closes`: the position update arrives before the order event, and the
  position is closed with half of it still on the exchange.
-/

namespace AdviserConstructor

open PositionContext StepSystem

/-- What the books of a position say. -/
structure Accounts where
  currentQuantity : ℚ
  statuses : List TPStatus
  dispatchedSlLevels : Finset ℕ
  tpHistory : List TPHistoryEntry
  state : PositionState
  deriving DecidableEq

def PositionContext.accounts (position : PositionContext) : Accounts where
  currentQuantity := position.currentQuantity
  statuses := position.tpLevels.map TPLevel.status
  dispatchedSlLevels := position.dispatchedSlLevels
  tpHistory := position.tpHistory
  state := position.state

namespace TpRun

/-- The accounting of a position that started as `start`. -/
structure Accounted (start : PositionContext) (s : TpRun) : Prop where
  covers : s.exchangeSize ≤ s.position.currentQuantity
  closed : s.position.state = .closed ∨ s.cleaned = true → s.exchangeSize = 0
  final : s.reconciler = none → (∀ i ∈ s.fills, i ∈ s.reported) →
    s.position.accounts = (start.reference s.fills).accounts

/-! ## Clear steps -/

/-- What the reported fills leave of the position. -/
def bookedQuantity (s : TpRun) : ℚ :=
  if s.position.state = .closed then 0 else s.position.leftBy s.reported

/-- The level `i` has filled, behind all levels reported so far. -/
def IsNext (s : TpRun) (i : ℕ) : Prop := (s.reported ++ [i]).Sublist s.fills

instance (s : TpRun) (i : ℕ) : Decidable (s.IsNext i) := by
  unfold IsNext
  infer_instance

/-- The condition on a step.

* An order event finds the booked quantity, that is no position update has taken anything off for
  a fill that has not been reported; only the last declared level, which closes whatever is left,
  does not care.  The fills are first reported in the order in which they happened, and the last
  declared level when the exchange holds nothing any more.
* A position update repeats the current quantity, or is zero, or schedules a reconciler, or finds
  one pending.
* The reconciler finds that its delta and the current quantity make up the booked quantity, and
  the level it infers has filled, behind all reported ones, and is not the last declared one; or
  it infers none, and finds the booked quantity. -/
def Clear (s : TpRun) : TpEvent → Prop
  | .fill _ => True
  | .orderUpdate i _ _ =>
      (s.position.currentQuantity = s.bookedQuantity ∨
          (i ∉ s.reported ∧ i = s.position.lastLevel)) ∧
        (i ∉ s.reported → s.IsNext i ∧ (i = s.position.lastLevel → s.exchangeSize = 0))
  | .positionUpdate size _ =>
      |size| = 0 ∨ |size| = s.position.currentQuantity ∨ s.reconciler ≠ none ∨
        s.position.schedulesReconciler |size| = true
  | .reconcile _ =>
      match s.reconciler with
      | none => True
      | some deltaQty =>
          if s.position.isLive then
            match s.position.closestOpenTpLevelByQty deltaQty with
            | none => s.position.currentQuantity = s.bookedQuantity
            | some i =>
                s.position.currentQuantity + deltaQty = s.bookedQuantity ∧ s.IsNext i ∧
                  i ≠ s.position.lastLevel
          else s.position.currentQuantity = s.bookedQuantity

instance (s : TpRun) : DecidablePred s.Clear
  | .fill _ => .isTrue trivial
  | .orderUpdate i event answers => by
    unfold Clear
    infer_instance
  | .positionUpdate size answers => by
    unfold Clear
    infer_instance
  | .reconcile answers => by
    unfold Clear
    dsimp only
    split
    · infer_instance
    · split
      · split <;> infer_instance
      · infer_instance

/-! ## The books -/

/-- What holds along a clear run; `closed` says whether the position is. -/
structure Books (start : PositionContext) (closed : Bool) (s : TpRun) : Prop where
  fills_nodup : s.fills.Nodup
  fills_lt : ∀ i ∈ s.fills, i < start.tpLevels.length
  reported : s.reported.Sublist s.fills
  size : s.exchangeSize = max (start.leftBy s.fills) 0
  sizes : ∀ entry ∈ s.sizes, s.exchangeSize ≤ entry.1
  covers : s.exchangeSize ≤ s.position.currentQuantity
  tally : Tally start closed s.reported s.position
  openBooks : closed = false → start.lastLevel ∉ s.reported ∧ s.cleaned = false ∧
    (s.reconciler = none → s.position.currentQuantity = start.leftBy s.reported)
  closedBooks : closed = true → s.exchangeSize = 0 ∧
    (s.reconciler = none → s.position.currentQuantity = 0)

section Books

variable {start : PositionContext} {closed : Bool} {s : TpRun}

variable {position : PositionContext}

theorem tally_quantityOf {fills : List ℕ} (h : Tally start closed fills position) (i : ℕ) :
    position.quantityOf i = start.quantityOf i := by
  have hget := levelsAfter_getElem? closed fills start.tpLevels i
  rw [← h.levels] at hget
  unfold quantityOf
  rw [hget]
  cases start.tpLevels[i]? with
  | none => rfl
  | some level => simp [MultiTp.levelQuantity, h.original]

theorem tally_leftBy {fills : List ℕ} (h : Tally start closed fills position) (others : List ℕ) :
    position.leftBy others = start.leftBy others := by
  have hsame : position.quantityOf = start.quantityOf := funext (tally_quantityOf h)
  rw [leftBy, leftBy, h.original, hsame]

theorem tally_lastLevel {fills : List ℕ} (h : Tally start closed fills position) :
    position.lastLevel = start.lastLevel := by
  rw [lastLevel, lastLevel, h.length]

theorem accounts_eq_of_tally {fills : List ℕ} {p q : PositionContext}
    (hp : Tally start closed fills p) (hq : Tally start closed fills q)
    (hquantity : p.currentQuantity = q.currentQuantity) : p.accounts = q.accounts := by
  simp only [accounts, Accounts.mk.injEq]
  refine ⟨hquantity, ?_, ?_, ?_, ?_⟩
  · rw [hp.levels, hq.levels]
  · rw [hp.dispatched, hq.dispatched]
  · rw [hp.history, hq.history]
  · rw [hp.state, hq.state]

theorem Books.state_closed_iff (h : Books start closed s) (hfresh : Fresh start) :
    s.position.state = .closed ↔ closed = true := by
  have hstate := h.tally.state
  cases closed with
  | true => simpa using hstate
  | false =>
    have hlive := h.tally.isLive hfresh
    simp only [PositionContext.isLive, Bool.or_eq_true, decide_eq_true_eq] at hlive
    refine iff_of_false ?_ (by simp)
    rintro hclosed
    rcases hlive with hlive | hlive <;> exact absurd (hclosed.symm.trans hlive) (by simp)

theorem Books.isLive_iff (h : Books start closed s) (hfresh : Fresh start) :
    s.position.isLive = true ↔ closed = false := by
  cases closed with
  | true =>
    have hstate : s.position.state = .closed := h.tally.state
    simp [PositionContext.isLive, hstate]
  | false => simp [h.tally.isLive hfresh]

theorem Books.bookedQuantity_eq (h : Books start closed s) (hfresh : Fresh start) :
    s.bookedQuantity = if closed then 0 else start.leftBy s.reported := by
  unfold bookedQuantity
  rw [tally_leftBy h.tally]
  simp only [h.state_closed_iff hfresh]

theorem Books.size_le_leftBy (h : Books start closed s) (hfresh : Fresh start)
    {reported : List ℕ} (hsub : reported.Sublist s.fills) (hlast : start.lastLevel ∉ reported) :
    s.exchangeSize ≤ start.leftBy reported := by
  have hpos := leftBy_pos hfresh (h.fills_nodup.sublist hsub)
    (fun i hi => h.fills_lt i (hsub.subset hi)) hlast
  have hsum : (reported.map start.quantityOf).sum ≤ (s.fills.map start.quantityOf).sum := by
    refine (hsub.map _).sum_le_sum fun x hx => ?_
    obtain ⟨i, -, rfl⟩ := List.mem_map.mp hx
    exact quantityOf_nonneg hfresh i
  rw [h.size]
  refine max_le ?_ hpos.le
  unfold leftBy
  linarith

/-- **Right books are right accounts.** -/
theorem Books.accounted (hfresh : Fresh start) (h : Books start closed s) :
    Accounted start s where
  covers := h.covers
  closed := by
    intro hclosed
    cases closed with
    | true => exact (h.closedBooks rfl).1
    | false =>
      rcases hclosed with hstate | hcleaned
      · exact absurd ((h.state_closed_iff hfresh).mp hstate) (by simp)
      · exact absurd (hcleaned.symm.trans (h.openBooks rfl).2.1) (by simp)
  final := by
    intro hnone hall
    have hlength : s.fills.length ≤ s.reported.length :=
      (List.subperm_of_subset h.fills_nodup hall).length_le
    have hsame : s.reported = s.fills := h.reported.eq_of_length_le hlength
    have htally := h.tally
    rw [hsame] at htally
    obtain ⟨hopen, hclosed⟩ := reference_spec hfresh h.fills_nodup h.fills_lt
    cases closed with
    | false =>
      obtain ⟨hlast, -, hquantity⟩ := h.openBooks rfl
      rw [hsame] at hlast hquantity
      obtain ⟨htally', hquantity'⟩ := hopen hlast
      exact accounts_eq_of_tally htally htally' ((hquantity hnone).trans hquantity'.symm)
    | true =>
      obtain ⟨hsize, hzero⟩ := h.closedBooks rfl
      -- the exchange holds nothing, so the last declared level has filled
      have hlast : start.lastLevel ∈ s.fills := by
        by_contra hnot
        have hpos := leftBy_pos hfresh h.fills_nodup h.fills_lt hnot
        rw [h.size, max_eq_left hpos.le] at hsize
        exact absurd hsize hpos.ne'
      obtain ⟨htally', hquantity'⟩ := hclosed hlast
      exact accounts_eq_of_tally htally htally' ((hzero hnone).trans hquantity'.symm)

theorem books_initial (hfresh : Fresh start) : Books start false (initial start) where
  fills_nodup := List.nodup_nil
  fills_lt i hi := absurd hi List.not_mem_nil
  reported := List.Sublist.slnil
  size := by
    simp [initial, leftBy, hfresh.positive.le]
  sizes entry hentry := by
    rw [initial, List.mem_singleton] at hentry
    rw [hentry]
    exact le_refl _
  covers := le_of_eq hfresh.whole.symm
  tally := tally_nil hfresh
  openBooks _ := ⟨List.not_mem_nil, rfl, fun _ => by simp [initial, leftBy, hfresh.whole]⟩
  closedBooks h := absurd h (by simp)

/-! ## Steps -/

theorem Books.fill (hfresh : Fresh start) (h : Books start closed s) {i : ℕ} {t : TpRun}
    (hstep : step s (.fill i) = some t) : Books start closed t := by
  simp only [step] at hstep
  split at hstep
  · cases hstep
  · next level hi =>
    split at hstep
    · next hguard =>
      obtain ⟨hnew, hpos⟩ := hguard
      cases hstep
      have hquantity : MultiTp.levelQuantity s.position level = start.quantityOf i := by
        rw [← tally_quantityOf h.tally, quantityOf, hi]
        rfl
      have hnonneg := quantityOf_nonneg hfresh i
      have hlt : i < start.tpLevels.length := by
        rw [← h.tally.length]
        exact (List.getElem?_eq_some_iff.mp hi).1
      have hless : max (s.exchangeSize - start.quantityOf i) 0 ≤ s.exchangeSize :=
        max_le (by linarith) hpos.le
      rw [hquantity]
      refine
        { fills_nodup := ?_
          fills_lt := ?_
          reported := h.reported.trans (List.sublist_append_left ..)
          size := ?_
          sizes := ?_
          covers := hless.trans h.covers
          tally := h.tally
          openBooks := h.openBooks
          closedBooks := fun hclosed => absurd (h.closedBooks hclosed).1 hpos.ne' }
      · simpa using List.Nodup.concat hnew h.fills_nodup
      · intro j hj
        rcases List.mem_append.mp hj with hj | hj
        · exact h.fills_lt j hj
        · exact List.mem_singleton.mp hj ▸ hlt
      · -- the exchange clamps at zero, which commutes with clamping once at the end
        rw [leftBy_append, h.size]
        rcases le_total 0 (start.leftBy s.fills) with hle | hle
        · rw [max_eq_left hle]
        · rw [max_eq_right hle, max_eq_right (by linarith), max_eq_right (by linarith)]
      · intro entry hentry
        rcases List.mem_append.mp hentry with hentry | hentry
        · exact hless.trans (h.sizes entry hentry)
        · rw [List.mem_singleton.mp hentry]
    · cases hstep

theorem processFill_state (answers : Answers) (position : PositionContext) (i : ℕ) :
    (position.processFill answers i).state = (position.fillPosition i).state ∧
      (position.processFill answers i).currentQuantity =
        (position.fillPosition i).currentQuantity := by
  unfold processFill
  dsimp only
  split
  · exact ⟨rfl, rfl⟩
  · exact ⟨rfl, rfl⟩

theorem Books.not_mem_of_isNext (h : Books start closed s) {i : ℕ} (hnext : s.IsNext i) :
    i ∉ s.reported := by
  have hnodup : (s.reported ++ [i]).Nodup := h.fills_nodup.sublist hnext
  rw [List.nodup_append] at hnodup
  exact fun hin => hnodup.2.2 i hin i (List.mem_singleton_self i) rfl

/-- **A fill before the last is reported**: from the booked quantity the engine takes the books
on, and the position stays open. -/
theorem Books.process_open (hfresh : Fresh start) (h : Books start false s) {i : ℕ}
    (hnext : s.IsNext i) (hi : i ≠ start.lastLevel) (htally : Tally start false s.reported position)
    (hquantity : position.currentQuantity = s.bookedQuantity) (answers : Answers) :
    (position.fillPosition i).state ≠ .closed ∧ 0 < (position.fillPosition i).currentQuantity ∧
      position.processFill answers i = position.fillPosition i ∧
      Books start false
        { s with
          position := position.fillPosition i
          reconciler := none
          reported := s.reported ++ [i] } := by
  have hlevel := List.getElem?_eq_getElem (h.fills_lt i (hnext.subset (by simp)))
  have hnodup : (s.reported ++ [i]).Nodup := h.fills_nodup.sublist hnext
  obtain ⟨hothers, hclean, -⟩ := h.openBooks rfl
  have hnot : start.lastLevel ∉ s.reported ++ [i] := by simp [hothers, Ne.symm hi]
  have hleft := leftBy_pos hfresh hnodup (fun j hj => h.fills_lt j (hnext.subset hj)) hnot
  rw [h.bookedQuantity_eq hfresh, if_neg (by simp)] at hquantity
  have hpositive : 0 < position.currentQuantity - start.quantityOf i := by
    rw [hquantity, ← leftBy_append]
    exact hleft
  obtain ⟨htally', hquantity'⟩ := processFill_open hfresh htally answers hlevel
    (h.not_mem_of_isNext hnext) hi hothers hpositive
  obtain ⟨hstate, hsame⟩ := processFill_state answers position i
  have hopen : (position.fillPosition i).state ≠ .closed := by
    intro hclosed
    have hlive := htally'.isLive hfresh
    rw [PositionContext.isLive, hstate, hclosed] at hlive
    cases hlive
  have hsome : 0 < (position.fillPosition i).currentQuantity := by
    rw [← hsame, hquantity']
    exact hpositive
  have hkeep : position.processFill answers i = position.fillPosition i :=
    if_neg fun hdone => hdone.elim hopen (not_le.mpr hsome)
  rw [hkeep, hquantity, ← leftBy_append] at hquantity'
  rw [hkeep] at htally'
  exact ⟨hopen, hsome, hkeep, h.fills_nodup, h.fills_lt, hnext, h.size, h.sizes,
    by rw [hquantity']; exact h.size_le_leftBy hfresh hnext hnot, htally',
    fun _ => ⟨hnot, hclean, fun _ => hquantity'⟩, fun hclosed => absurd hclosed (by simp)⟩

/-- **A fill is reported**, in any state, with the cleanup behind it. -/
theorem Books.process (hfresh : Fresh start) (h : Books start closed s) {i : ℕ}
    (hnext : s.IsNext i)
    (hquantity : s.position.currentQuantity = s.bookedQuantity ∨ i = start.lastLevel)
    (hlast : i = start.lastLevel → s.exchangeSize = 0) (answers : Answers) {cleaned : Bool}
    (hcleaned : cleaned = true → s.cleaned = true ∨ (s.position.fillPosition i).state = .closed ∨
      (s.position.fillPosition i).currentQuantity ≤ 0)
    (hkept : s.cleaned = true → cleaned = true) :
    ∃ closed', Books start closed'
      { s with
        position := s.position.processFill answers i
        reconciler := none
        reported := s.reported ++ [i]
        cleaned := cleaned } := by
  have hlevel := List.getElem?_eq_getElem (h.fills_lt i (hnext.subset (by simp)))
  have hnew := h.not_mem_of_isNext hnext
  -- whenever the position is closed behind the fill, nothing is left anywhere
  have hdone : s.exchangeSize = 0 →
      Tally start true (s.reported ++ [i]) (s.position.processFill answers i) ∧
        (s.position.processFill answers i).currentQuantity = 0 →
      ∃ closed', Books start closed'
        { s with
          position := s.position.processFill answers i
          reconciler := none
          reported := s.reported ++ [i]
          cleaned := cleaned } := by
    rintro hsize ⟨htally', hzero⟩
    exact ⟨true, h.fills_nodup, h.fills_lt, hnext, h.size, h.sizes,
      by rw [hsize, hzero], htally', fun hopen => absurd hopen (by simp),
      fun _ => ⟨hsize, fun _ => hzero⟩⟩
  by_cases hi : i = start.lastLevel
  · subst hi
    exact hdone (hlast rfl) (processFill_last hfresh h.tally answers hnew)
  · have hbooked := hquantity.resolve_right hi
    cases closed with
    | true =>
      rw [h.bookedQuantity_eq hfresh] at hbooked
      exact hdone (h.closedBooks rfl).1
        (processFill_closed hfresh h.tally answers hbooked hlevel hnew)
    | false =>
      obtain ⟨hopen, hsome, hkeep, hbooks⟩ :=
        h.process_open hfresh hnext hi h.tally hbooked answers
      have hclean : cleaned = s.cleaned := by
        rw [Bool.eq_iff_iff]
        refine ⟨fun hc => ?_, hkept⟩
        exact (hcleaned hc).resolve_right fun hdone => hdone.elim hopen (not_le.mpr hsome)
      rw [hkeep, hclean]
      exact ⟨false, hbooks⟩

theorem Books.triggered_iff (hfresh : Fresh start) (h : Books start closed s) {i : ℕ}
    {level : TPLevel} (hi : s.position.tpLevels[i]? = some level) :
    level.status = .triggered ↔ i ∈ s.reported := by
  have hget := levelsAfter_getElem? closed s.reported start.tpLevels i
  rw [← h.tally.levels, hi] at hget
  obtain ⟨before, hbefore, rfl⟩ := Option.map_eq_some_iff.mp hget.symm
  have hwaiting : before.status ≠ .triggered := by
    intro htriggered
    have := hfresh.waiting before (List.mem_of_getElem? hbefore)
    simp [MultiTp.isRemaining, htriggered] at this
  by_cases hmem : i ∈ s.reported
  · simp [hmem]
  · cases closed <;> simp [hwaiting]

theorem Books.ne_entering (hfresh : Fresh start) (h : Books start closed s) :
    s.position.state ≠ .entering := by
  intro hentering
  cases closed with
  | true => exact absurd (hentering.symm.trans h.tally.state) (by simp)
  | false =>
    have hlive := h.tally.isLive hfresh
    simp [PositionContext.isLive, hentering] at hlive

variable {answers : Answers}

theorem Books.orderUpdate (hfresh : Fresh start) (h : Books start closed s) {i : ℕ}
    {event : OrderEvent} (hclear : s.Clear (.orderUpdate i event answers)) {t : TpRun}
    (hstep : step s (.orderUpdate i event answers) = some t) :
    ∃ closed', Books start closed' t := by
  simp only [step] at hstep
  split at hstep
  · next hguard =>
    obtain ⟨hfill, hdescribes, -⟩ := hguard
    cases hstep
    obtain ⟨hquantity, horder⟩ := hclear
    rw [tally_lastLevel h.tally] at hquantity horder
    have hlt : i < s.position.tpLevels.length := h.tally.length.symm ▸ h.fills_lt i hfill
    have hi := List.getElem?_eq_getElem hlt
    obtain ⟨hreconciler, hposition, hcleanup⟩ := route_of_describesFill answers s.reconciler
      (h.ne_entering hfresh) h.tally.multi hdescribes hi
    have htriggered := h.triggered_iff hfresh hi
    by_cases hmem : i ∈ s.reported
    · -- a duplicate: the position is left alone and the reconciler is cancelled
      rw [if_pos (htriggered.mpr hmem)] at hposition
      have hkeep : (s.position.routeLifecycleEvent answers event s.reconciler).cleanup = false := by
        rw [← Bool.not_eq_true]
        exact fun hc => (hcleanup hc).1 (htriggered.mpr hmem)
      have hbooked := hquantity.resolve_right fun hlast => hlast.1 hmem
      rw [h.bookedQuantity_eq hfresh] at hbooked
      refine ⟨closed, ?_⟩
      simp only [apply, report, hposition, hkeep, hmem, if_true, Bool.or_false]
      refine ⟨h.fills_nodup, h.fills_lt, h.reported, h.size, h.sizes, h.covers, h.tally, ?_, ?_⟩
      · intro hopen
        obtain ⟨hlast, hclean, -⟩ := h.openBooks hopen
        refine ⟨hlast, hclean, fun _ => ?_⟩
        rw [hopen] at hbooked
        exact hbooked
      · intro hclosed
        refine ⟨(h.closedBooks hclosed).1, fun _ => ?_⟩
        rw [hclosed] at hbooked
        exact hbooked
    · obtain ⟨hnext, hlast⟩ := horder hmem
      rw [if_neg (htriggered.not.mpr hmem)] at hposition
      simp only [apply, report, hposition, hreconciler, hmem]
      refine h.process hfresh hnext (hquantity.imp id And.right) hlast answers ?_ ?_
      · intro hcleaned
        rw [Bool.or_eq_true] at hcleaned
        exact hcleaned.imp id fun hc => (hcleanup hc).2
      · exact fun hcleaned => by rw [hcleaned, Bool.true_or]
  · cases hstep

theorem Books.reconcile (hfresh : Fresh start) (h : Books start closed s)
    (hclear : s.Clear (.reconcile answers)) {t : TpRun}
    (hstep : step s (.reconcile answers) = some t) : ∃ closed', Books start closed' t := by
  simp only [step] at hstep
  cases hreconciler : s.reconciler with
  | none =>
    rw [hreconciler] at hstep
    cases hstep
  | some deltaQty =>
    rw [hreconciler] at hstep
    simp only [Clear, hreconciler] at hclear
    have hbooked := h.bookedQuantity_eq hfresh
    -- nothing is inferred: the reconciler just ends
    have hidle : s.position.currentQuantity = s.bookedQuantity →
        Books start closed
          (s.apply answers { position := s.position, reconciler := none }) := by
      intro hquantity
      rw [hbooked] at hquantity
      simp only [apply, Handled.settled, Bool.or_false]
      refine ⟨h.fills_nodup, h.fills_lt, h.reported, h.size, h.sizes, h.covers, h.tally, ?_, ?_⟩
      · intro hopen
        obtain ⟨hlast, hclean, -⟩ := h.openBooks hopen
        refine ⟨hlast, hclean, fun _ => ?_⟩
        rw [hopen] at hquantity
        exact hquantity
      · intro hclosed
        refine ⟨(h.closedBooks hclosed).1, fun _ => ?_⟩
        rw [hclosed] at hquantity
        exact hquantity
    by_cases hlive : s.position.isLive = true
    · simp only [hlive] at hstep hclear
      cases hmatch : s.position.closestOpenTpLevelByQty deltaQty with
      | none =>
        rw [hmatch] at hstep hclear
        cases hstep
        refine ⟨closed, ?_⟩
        simp only [reconcilePartialClose, hlive, hmatch]
        exact hidle hclear
      | some i =>
        rw [hmatch] at hstep hclear
        cases hstep
        obtain ⟨hquantity, hnext, hlast⟩ := hclear
        rw [tally_lastLevel h.tally] at hlast
        have hopen : closed = false := (h.isLive_iff hfresh).mp hlive
        subst hopen
        have hrestored : Tally start false s.reported
            { s.position with currentQuantity := s.position.currentQuantity + deltaQty } :=
          ⟨h.tally.multi, h.tally.original, h.tally.levels, h.tally.dispatched, h.tally.history,
            h.tally.state, h.tally.machine⟩
        obtain ⟨-, -, -, hbooks⟩ := h.process_open hfresh hnext hlast hrestored hquantity answers
        refine ⟨false, ?_⟩
        simp only [reconcilePartialClose, hlive, hmatch, handleTpTriggered_fst, apply, report,
          h.not_mem_of_isNext hnext, Bool.false_eq_true, if_false, Bool.or_false, Bool.not_true]
        exact hbooks
    · simp only [hlive] at hstep hclear
      cases hstep
      refine ⟨closed, ?_⟩
      simp only [reconcilePartialClose, hlive]
      exact hidle hclear

theorem Books.closeOut (hfresh : Fresh start) (h : Books start closed s)
    (htruthful : s.Truthful answers) (hempty : s.exchangeSize = 0) :
    Tally start true s.reported
        (cancelRemaining answers
          (closePosition answers { s.position with currentQuantity := 0 } .manualClose).2) ∧
      (cancelRemaining answers (closePosition answers { s.position with currentQuantity := 0 }
        .manualClose).2).currentQuantity = 0 := by
  obtain ⟨machine, hmachine, hclose⟩ :
      ∃ machine : PositionStateMachine, machine.state = .closed ∧
        (closePosition answers { s.position with currentQuantity := 0 } .manualClose).2 =
          { s.position with currentQuantity := 0, stateMachine := machine, state := .closed } := by
    cases closed with
    | true =>
      have hstate : s.position.state = .closed := h.tally.state
      refine @closePosition_of_closed { s.position with currentQuantity := 0 } answers
        (h.tally.machine.trans hstate) hstate rfl ?_
      unfold Truthful at htruthful
      cases hsync : answers.sync with
      | raised => trivial
      | noPosition => trivial
      | snapshot live =>
        rw [hsync, hempty] at htruthful
        exact abs_eq_zero.mp htruthful
    | false =>
      have hlive := h.tally.isLive hfresh
      refine @closePosition_of_live { s.position with currentQuantity := 0 } answers ?_
      rw [h.tally.machine]
      simpa [PositionContext.isLive] using hlive
  rw [hclose]
  exact ⟨tally_cancelRemaining hfresh answers h.tally.multi h.tally.original h.tally.levels
    h.tally.dispatched h.tally.history rfl hmachine, rfl⟩

theorem Books.positionUpdate (hfresh : Fresh start) (h : Books start closed s) {size : ℚ}
    (hclear : s.Clear (.positionUpdate size answers)) {t : TpRun}
    (hstep : step s (.positionUpdate size answers) = some t) :
    ∃ closed', Books start closed' t := by
  simp only [step] at hstep
  split at hstep
  · cases hstep
  · next entry shown hfound =>
    split at hstep
    · next htruthful =>
      cases hstep
      have hle : s.exchangeSize ≤ |size| := by
        have hmem := List.mem_of_find?_eq_some hfound
        have hsize := List.find?_some hfound
        simp only [decide_eq_true_eq] at hsize
        exact hsize ▸ h.sizes _ hmem
      have hnonneg : 0 ≤ s.exchangeSize := h.size ▸ le_max_right _ _
      -- the position is left alone
      have hkeep : ∃ closed', Books start closed'
          { s.apply answers { position := s.position, reconciler := s.reconciler } with
            shown := max s.shown shown } := by
        refine ⟨closed, h.fills_nodup, h.fills_lt, h.reported, h.size, h.sizes, h.covers, h.tally,
          ?_, h.closedBooks⟩
        intro hopen
        obtain ⟨hlast, hclean, hquantity⟩ := h.openBooks hopen
        exact ⟨hlast, by simp [apply, hclean], hquantity⟩
      unfold handlePositionUpdate
      dsimp only
      split
      · next hzero =>
        have hempty : s.exchangeSize = 0 := le_antisymm (hle.trans hzero) hnonneg
        split
        · obtain ⟨htally, hquantity⟩ := h.closeOut hfresh htruthful hempty
          refine ⟨true, h.fills_nodup, h.fills_lt, h.reported, h.size, h.sizes, ?_, htally,
            fun hopen => absurd hopen (by simp), fun _ => ⟨hempty, fun _ => hquantity⟩⟩
          change s.exchangeSize ≤ (cancelRemaining answers _).currentQuantity
          rw [hempty, hquantity]
        · exact hkeep
      · next hpos =>
        split
        · exact hkeep
        · next hne =>
          have hscheduled := (hclear.resolve_left fun hzero => hpos hzero.le).resolve_left hne
          have hpending : (if s.position.schedulesReconciler |size| = true then
              some (s.position.currentQuantity - |size|) else s.reconciler) ≠ none := by
            rcases hscheduled with hpending | hschedules
            · split
              · simp
              · exact hpending
            · rw [if_pos hschedules]
              simp
          refine ⟨closed, h.fills_nodup, h.fills_lt, h.reported, h.size, h.sizes, hle,
            ⟨h.tally.multi, h.tally.original, h.tally.levels, h.tally.dispatched, h.tally.history,
              h.tally.state, h.tally.machine⟩, ?_, ?_⟩
          · intro hopen
            obtain ⟨hlast, hclean, -⟩ := h.openBooks hopen
            exact ⟨hlast, by simp [apply, hclean], fun hnone => absurd hnone hpending⟩
          · intro hclosed
            exact ⟨(h.closedBooks hclosed).1, fun hnone => absurd hnone hpending⟩
    · cases hstep

/-- **A clear step** takes right books to right books. -/
theorem Books.step (hfresh : Fresh start) (h : Books start closed s) {e : TpEvent}
    (hclear : s.Clear e) {t : TpRun} (hstep : TpRun.step s e = some t) :
    ∃ closed', Books start closed' t := by
  cases e with
  | fill i => exact ⟨closed, h.fill hfresh hstep⟩
  | orderUpdate i event answers => exact h.orderUpdate hfresh hclear hstep
  | positionUpdate size answers => exact h.positionUpdate hfresh hclear hstep
  | reconcile answers => exact h.reconcile hfresh hclear hstep

end Books

/-! ## Runs -/

/-- **The accounting is right in every state of a clear run.** -/
theorem accounted_of_run {start : PositionContext} (hfresh : Fresh start) {s : TpRun}
    {es : List TpEvent} (hclear : AlongRun step Clear (initial start) es)
    (hrun : run step (initial start) es = some s) : Accounted start s := by
  obtain ⟨closed, hbooks⟩ := invariant_of_alongRun step
    (I := fun s => ∃ closed, Books start closed s)
    (fun s e t ⟨closed, hs⟩ he hstep => hs.step hfresh he hstep)
    ⟨false, books_initial hfresh⟩ hclear hrun
  exact hbooks.accounted hfresh

/-! ## The position update first -/

/-- A long position with two take-profit levels that close one half each. -/
def halves : PositionContext where
  positionId := "7"
  symbol := "BTCUSDT"
  state := .open
  stateMachine := { state := .open }
  entryPrice := 100
  originalQuantity := 1
  currentQuantity := 1
  currentSlPrice := 90
  slExchangeOrderId := some "sl-1"
  tpMode := .multi
  tpLevels :=
    [{ closePct := 50, triggerPrice := 110, status := .open, exchangeOrderId := some "tp-1" },
     { level := 1, closePct := 50, triggerPrice := 120, status := .open,
       exchangeOrderId := some "tp-2" }]

/-- The order event of a filled take-profit order. -/
def takeProfitFilled (orderId : String) : OrderEvent where
  orderId := orderId
  orderType := "take_profit"
  status := "filled"

theorem fresh_halves : Fresh halves := by
  refine ⟨rfl, rfl, rfl, rfl, by decide +kernel, by simp [halves], ?_, ?_, ?_, by decide +kernel,
    rfl⟩
  · decide +kernel
  · intro level hlevel
    simp only [halves, List.mem_cons, List.not_mem_nil, or_false] at hlevel
    rcases hlevel with rfl | rfl
    · exact ⟨_, rfl, by decide⟩
    · exact ⟨_, rfl, by decide⟩
  · decide +kernel

/-- Both descriptions of both fills, with a duplicate, and the reconciler in between: the first
fill is inferred, the second is reported by its order event behind the final position update. -/
theorem accounted_inferredThenReported :
    ∃ s, run step (initial halves)
        [.fill 0, .positionUpdate (1 / 2) {}, .positionUpdate (1 / 2) {}, .reconcile {},
          .orderUpdate 0 (takeProfitFilled "tp-1") {}, .fill 1, .positionUpdate 0 {},
          .orderUpdate 1 (takeProfitFilled "tp-2") {}] = some s ∧ Accounted halves s := by
  have hclear : AlongRun step Clear (initial halves)
      [.fill 0, .positionUpdate (1 / 2) {}, .positionUpdate (1 / 2) {}, .reconcile {},
        .orderUpdate 0 (takeProfitFilled "tp-1") {}, .fill 1, .positionUpdate 0 {},
        .orderUpdate 1 (takeProfitFilled "tp-2") {}] := by
    decide +kernel
  have hend : (run step (initial halves)
      [.fill 0, .positionUpdate (1 / 2) {}, .positionUpdate (1 / 2) {}, .reconcile {},
        .orderUpdate 0 (takeProfitFilled "tp-1") {}, .fill 1, .positionUpdate 0 {},
        .orderUpdate 1 (takeProfitFilled "tp-2") {}]).isSome = true := by
    decide +kernel
  obtain ⟨s, hs⟩ := Option.isSome_iff_exists.mp hend
  exact ⟨s, hs, accounted_of_run fresh_halves hclear hs⟩

/-- **The first fill closes the position**: the position update takes one half off, the order
event takes it off again, and with half of the position on the exchange it is closed and its
orders are cancelled. -/
theorem positionUpdate_first_closes :
    Fresh halves ∧ ∃ s, run step (initial halves)
        [.fill 0, .positionUpdate (1 / 2) {}, .orderUpdate 0 (takeProfitFilled "tp-1") {}] =
          some s ∧
      s.position.state = .closed ∧ s.cleaned = true ∧ s.exchangeSize = 1 / 2 ∧
      ¬Accounted halves s := by
  have hend : (run step (initial halves)
      [.fill 0, .positionUpdate (1 / 2) {}, .orderUpdate 0 (takeProfitFilled "tp-1") {}]).map
        (fun s => decide (s.position.state = .closed ∧ s.cleaned = true ∧
          s.exchangeSize = 1 / 2)) = some true := by
    decide +kernel
  obtain ⟨s, hs, hstate⟩ := Option.map_eq_some_iff.mp hend
  obtain ⟨hclosed, hcleaned, hsize⟩ := of_decide_eq_true hstate
  refine ⟨fresh_halves, s, hs, hclosed, hcleaned, hsize, fun haccounted => ?_⟩
  rw [haccounted.closed (Or.inl hclosed)] at hsize
  exact absurd hsize (by norm_num)

end TpRun
end AdviserConstructor
