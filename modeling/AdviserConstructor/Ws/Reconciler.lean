import AdviserConstructor.Ws.TpEvents

/-!
# The partial-close reconciler

A fill whose order event never comes is visible only in the size of the position.  The position
update that shows it starts a timer with the shrink as its delta, and when the timer fires, the
level whose quantity is closest to the delta is advanced.  There is one timer for a position: a
second shrink replaces it together with its delta, and every order event of a level, a duplicate
included, cancels it.

`Advanced` is what the reconciler is for: once no timer is pending any more, every fill that the
position updates have shown has advanced its level.  A run may stop after any of its events, so
the runs of `TpRun` include those in which the order event of a fill never comes.  `Settles` is
the condition on a step.

* `advanced_iff`: every state of a run is `Advanced` if and only if all its steps settle.
* `second_shrink_loses_fill`: two fills within the delay, and the first one is lost.
-/

namespace AdviserConstructor

open PositionContext StepSystem

/-! ## Triggered levels -/

namespace PositionContext

/-- The level `i` is triggered. -/
def Triggered (position : PositionContext) (i : ℕ) : Prop :=
  position.tpLevels[i]?.map TPLevel.status = some .triggered

instance (position : PositionContext) (i : ℕ) : Decidable (position.Triggered i) := by
  unfold Triggered
  infer_instance

section Triggered

variable {position : PositionContext} {i j : ℕ}

theorem KeepsLevels.triggered_iff {p q : PositionContext} (h : KeepsLevels p q) :
    q.Triggered i ↔ p.Triggered i := by
  rw [Triggered, Triggered, h.levels]

theorem cancelLevel_status_iff (orderIds : List String) (level : TPLevel) :
    (cancelLevel orderIds level).status = .triggered ↔ level.status = .triggered := by
  unfold cancelLevel
  cases level.exchangeOrderId with
  | none => exact Iff.rfl
  | some id =>
    dsimp only
    split
    · next hopen => simp [hopen.2]
    · exact Iff.rfl

/-- **The cleanup** triggers no level, and takes none back. -/
theorem triggered_cancelRemaining (answers : Answers) :
    (position.cancelRemaining answers).Triggered i ↔ position.Triggered i := by
  unfold Triggered cancelRemaining
  rw [List.getElem?_map]
  cases position.tpLevels[i]? with
  | none => exact Iff.rfl
  | some level =>
    simp only [Option.map_some, Option.some.injEq]
    exact cancelLevel_status_iff _ level

theorem cancelRemaining_length (answers : Answers) :
    (position.cancelRemaining answers).tpLevels.length = position.tpLevels.length :=
  List.length_map ..

theorem triggered_bookFill {level : TPLevel} (hi : position.tpLevels[i]? = some level) :
    (MultiTp.bookFill position i level).Triggered j ↔ position.Triggered j ∨ j = i := by
  unfold Triggered MultiTp.bookFill
  rw [List.getElem?_modify]
  by_cases hij : i = j
  · subst hij
    simp [hi]
  · have hji : j ≠ i := Ne.symm hij
    cases position.tpLevels[j]? <;> simp [hij, hji]

/-- Every level whose stop shift has been dispatched is triggered, and the position is a multi-TP
one behind its entry. -/
structure Underway (position : PositionContext) : Prop where
  multi : position.tpMode = .multi
  entered : position.Entered
  dispatched : ∀ i ∈ position.dispatchedSlLevels, position.Triggered i

theorem KeepsLevels.underway {p q : PositionContext} (h : KeepsLevels p q) (hp : p.Underway) :
    q.Underway where
  multi := h.mode.trans hp.multi
  entered := h.entered hp.entered
  dispatched i hi := h.triggered_iff.mpr (hp.dispatched i (h.dispatched ▸ hi))

theorem Underway.cancelRemaining (h : position.Underway) (answers : Answers) :
    (position.cancelRemaining answers).Underway where
  multi := h.multi
  entered := h.entered
  dispatched i hi := (triggered_cancelRemaining answers).mpr (h.dispatched i hi)

/-- **The engine** triggers the level of the fill and no other one. -/
theorem fillPosition_advances (h : position.Underway) (hi : i < position.tpLevels.length) :
    (position.fillPosition i).Underway ∧
      (position.fillPosition i).tpLevels.length = position.tpLevels.length ∧
      ∀ j, (position.fillPosition i).Triggered j ↔ position.Triggered j ∨ j = i := by
  have hlevel := List.getElem?_eq_getElem hi
  unfold fillPosition MultiTp.handleTpTriggered
  rw [hlevel]
  dsimp only
  split
  · next halready =>
    have htriggered : position.Triggered i := by
      simp only [MultiTp.alreadyTriggered, Bool.or_eq_true, decide_eq_true_eq] at halready
      rcases halready with hstatus | hdispatched
      · rw [Triggered, hlevel, Option.map_some, hstatus]
      · exact h.dispatched i hdispatched
    refine ⟨h, rfl, fun j => ⟨Or.inl, ?_⟩⟩
    rintro (hj | rfl)
    · exact hj
    · exact htriggered
  · have hkeeps := keepsLevels_closeOrContinue (MultiTp.bookFill position i position.tpLevels[i])
    refine ⟨hkeeps.underway ⟨h.multi, h.entered, fun j hj => ?_⟩, ?_, fun j => ?_⟩
    · refine (triggered_bookFill hlevel).mpr ?_
      rcases Finset.mem_insert.mp hj with rfl | hj
      · exact Or.inr rfl
      · exact Or.inl (h.dispatched j hj)
    · rw [hkeeps.levels]
      exact List.length_modify ..
    · exact hkeeps.triggered_iff.trans (triggered_bookFill hlevel)

theorem processFill_advances (h : position.Underway) (hi : i < position.tpLevels.length)
    (answers : Answers) :
    (position.processFill answers i).Underway ∧
      (position.processFill answers i).tpLevels.length = position.tpLevels.length ∧
      ∀ j, (position.processFill answers i).Triggered j ↔ position.Triggered j ∨ j = i := by
  obtain ⟨hunderway, hlength, htriggered⟩ := fillPosition_advances h hi
  unfold processFill
  dsimp only
  split
  · exact ⟨hunderway.cancelRemaining answers, (cancelRemaining_length answers).trans hlength,
      fun j => (triggered_cancelRemaining answers).trans (htriggered j)⟩
  · exact ⟨hunderway, hlength, htriggered⟩

end Triggered

end PositionContext

namespace TpRun

/-! ## Fills that wait -/

/-- The fills that the position updates show. -/
def shownFills (s : TpRun) : List ℕ := s.fills.take s.shown

/-- The number of fills behind a size of the position. -/
def fillsBehind (s : TpRun) (size : ℚ) : ℕ :=
  ((s.sizes.find? fun entry => entry.1 = |size|).map Prod.snd).getD 0

/-- Once no reconciler is pending, every fill that the position updates show has advanced its
level. -/
def Advanced (s : TpRun) : Prop :=
  s.reconciler = none → ∀ i ∈ s.shownFills, s.position.Triggered i

instance (s : TpRun) : Decidable s.Advanced := by
  unfold Advanced
  infer_instance

/-- The level that the pending reconciler would advance. -/
def inferred (s : TpRun) : Option ℕ :=
  if s.position.isLive then s.reconciler.bind s.position.closestOpenTpLevelByQty else none

/-- The condition on a step.

* An order event, which cancels the reconciler, finds no level waiting but its own.
* A position update schedules a reconciler or finds one pending, or else shows no fill whose level
  is not triggered.
* The reconciler finds no level waiting but the one it infers. -/
def Settles (s : TpRun) : TpEvent → Prop
  | .fill _ => True
  | .orderUpdate i _ _ => ∀ j ∈ s.shownFills, s.position.Triggered j ∨ j = i
  | .positionUpdate size _ =>
      (0 < |size| ∧ s.position.schedulesReconciler |size| = true) ∨ s.reconciler ≠ none ∨
        ∀ j ∈ s.fills.take (max s.shown (s.fillsBehind size)), s.position.Triggered j
  | .reconcile _ => ∀ j ∈ s.shownFills, s.position.Triggered j ∨ s.inferred = some j

instance (s : TpRun) (e : TpEvent) : Decidable (s.Settles e) := by
  cases e <;> unfold Settles <;> infer_instance

/-- What holds along every run. -/
structure Steady (s : TpRun) : Prop where
  underway : s.position.Underway
  fills_lt : ∀ i ∈ s.fills, i < s.position.tpLevels.length
  shown_le : s.shown ≤ s.fills.length
  sizes_le : ∀ entry ∈ s.sizes, entry.2 ≤ s.fills.length

section Steps

variable {s t : TpRun} {i : ℕ} {event : OrderEvent} {answers : Answers} {size : ℚ}

theorem steady_initial {start : PositionContext} (hfresh : Fresh start) :
    Steady (initial start) where
  underway :=
    { multi := hfresh.multi
      entered := by
        have hlive := hfresh.live
        simp only [PositionContext.isLive, Bool.or_eq_true, decide_eq_true_eq] at hlive
        have hstate : start.state ∉ beforeEntry := by
          rcases hlive with hlive | hlive <;> rw [hlive] <;> decide
        exact ⟨hstate, hfresh.machine ▸ hstate⟩
      dispatched := fun i hi => by
        simp only [initial, hfresh.undispatched] at hi
        exact absurd hi (Finset.notMem_empty i) }
  fills_lt i hi := absurd hi List.not_mem_nil
  shown_le := le_refl 0
  sizes_le entry hentry := by
    rw [initial, List.mem_singleton] at hentry
    rw [hentry]
    exact Nat.zero_le _

theorem advanced_initial {start : PositionContext} : (initial start).Advanced :=
  fun _ i hi => absurd hi (by simp [initial, shownFills])

theorem step_fill (h : s.Steady) (hstep : step s (.fill i) = some t) :
    t.Steady ∧ (t.Advanced ↔ s.Advanced) := by
  simp only [step] at hstep
  split at hstep
  · cases hstep
  · next level hi =>
    split at hstep
    · cases hstep
      refine ⟨⟨h.underway, ?_, ?_, ?_⟩, ?_⟩
      · intro j hj
        rcases List.mem_append.mp hj with hj | hj
        · exact h.fills_lt j hj
        · exact List.mem_singleton.mp hj ▸ (List.getElem?_eq_some_iff.mp hi).1
      · exact h.shown_le.trans (by simp)
      · intro entry hentry
        rcases List.mem_append.mp hentry with hentry | hentry
        · exact (h.sizes_le entry hentry).trans (by simp)
        · rw [List.mem_singleton.mp hentry]
          simp
      · unfold Advanced shownFills
        rw [List.take_append_of_le_length h.shown_le]
    · cases hstep

theorem Steady.of_advances {P : ℕ → Prop} (h : s.Steady)
    (hrest : t.reconciler = none ∧ t.fills = s.fills ∧ t.shown = s.shown ∧ t.sizes = s.sizes)
    (hadvances : t.position.Underway ∧
      t.position.tpLevels.length = s.position.tpLevels.length ∧
        ∀ j, t.position.Triggered j ↔ s.position.Triggered j ∨ P j) :
    t.Steady ∧ (t.Advanced ↔ ∀ j ∈ s.shownFills, s.position.Triggered j ∨ P j) := by
  obtain ⟨hreconciler, hfills, hshown, hsizes⟩ := hrest
  obtain ⟨hunderway, hlength, htriggered⟩ := hadvances
  refine ⟨⟨hunderway, fun j hj => ?_, ?_, ?_⟩, ?_⟩
  · rw [hlength]
    exact h.fills_lt j (hfills ▸ hj)
  · rw [hshown, hfills]
    exact h.shown_le
  · rw [hsizes, hfills]
    exact h.sizes_le
  · rw [Advanced, shownFills, hfills, hshown, hreconciler]
    simp only [true_imp_iff]
    exact forall₂_congr fun j _ => htriggered j

theorem triggered_orderUpdate (h : s.position.Underway)
    (hstep : step s (.orderUpdate i event answers) = some t) :
    (t.reconciler = none ∧ t.fills = s.fills ∧ t.shown = s.shown ∧ t.sizes = s.sizes) ∧
      t.position.Underway ∧ t.position.tpLevels.length = s.position.tpLevels.length ∧
        ∀ j, t.position.Triggered j ↔ s.position.Triggered j ∨ j = i := by
  simp only [step] at hstep
  split at hstep
  · next hguard =>
    obtain ⟨-, hdescribes, -⟩ := hguard
    cases hstep
    have hlt : i < s.position.tpLevels.length := by
      simp only [describesFill, Bool.and_eq_true, decide_eq_true_eq] at hdescribes
      exact hdescribes.1.2
    have hi := List.getElem?_eq_getElem hlt
    have hstate : s.position.state ≠ .entering := by
      have hentered := h.entered.1
      simp only [beforeEntry, List.mem_cons, not_or] at hentered
      exact hentered.2.1
    obtain ⟨hreconciler, hposition, -⟩ := route_of_describesFill answers s.reconciler hstate
      h.multi hdescribes hi
    refine ⟨⟨hreconciler, rfl, rfl, rfl⟩, ?_⟩
    -- in both cases the level of the event is triggered, and no other one
    have hadvances : ∀ q : PositionContext, q = (if s.position.tpLevels[i].status = .triggered then
          s.position else s.position.processFill answers i) →
        q.Underway ∧ q.tpLevels.length = s.position.tpLevels.length ∧
          ∀ j, q.Triggered j ↔ s.position.Triggered j ∨ j = i := by
      rintro q rfl
      split
      · next hstatus =>
        refine ⟨h, rfl, fun j => ⟨Or.inl, ?_⟩⟩
        rintro (hj | rfl)
        · exact hj
        · rw [Triggered, hi, Option.map_some, hstatus]
      · exact processFill_advances h hlt answers
    exact hadvances _ hposition
  · cases hstep

theorem step_orderUpdate (h : s.Steady)
    (hstep : step s (.orderUpdate i event answers) = some t) :
    t.Steady ∧ (t.Advanced ↔ s.Settles (.orderUpdate i event answers)) := by
  obtain ⟨hrest, hadvances⟩ := triggered_orderUpdate h.underway hstep
  exact h.of_advances hrest hadvances

theorem triggered_reconcile (h : s.position.Underway)
    (hstep : step s (.reconcile answers) = some t) :
    (t.reconciler = none ∧ t.fills = s.fills ∧ t.shown = s.shown ∧ t.sizes = s.sizes) ∧
      t.position.Underway ∧ t.position.tpLevels.length = s.position.tpLevels.length ∧
        ∀ j, t.position.Triggered j ↔ s.position.Triggered j ∨ s.inferred = some j := by
  simp only [step] at hstep
  cases hreconciler : s.reconciler with
  | none =>
    rw [hreconciler] at hstep
    cases hstep
  | some deltaQty =>
    rw [hreconciler] at hstep
    by_cases hlive : s.position.isLive = true
    · cases hmatch : s.position.closestOpenTpLevelByQty deltaQty with
      | none =>
        simp only [hlive, hmatch] at hstep
        cases hstep
        simp only [reconcilePartialClose, hlive, hmatch]
        refine ⟨⟨rfl, rfl, rfl, rfl⟩, h, rfl, fun j => ?_⟩
        simp [inferred, hreconciler, hmatch, apply, Handled.settled]
      | some matched =>
        simp only [hlive, hmatch] at hstep
        cases hstep
        obtain ⟨level, hlevel, -⟩ := closestOpenTpLevelByQty_spec hmatch
        have hlt : matched < s.position.tpLevels.length :=
          (List.getElem?_eq_some_iff.mp hlevel).1
        -- the delta is given back, and the level is advanced
        obtain ⟨hunderway, hlength, htriggered⟩ := @fillPosition_advances
          { s.position with currentQuantity := s.position.currentQuantity + deltaQty } matched
          ⟨h.multi, h.entered, h.dispatched⟩ hlt
        have hinferred : s.inferred = some matched := by
          simp [inferred, hlive, hreconciler, hmatch]
        simp only [reconcilePartialClose, hlive, hmatch, handleTpTriggered_fst, Bool.not_true,
          Bool.false_eq_true]
        refine ⟨⟨rfl, rfl, rfl, rfl⟩, hunderway, hlength, fun j => ?_⟩
        rw [hinferred, Option.some.injEq, eq_comm (a := matched)]
        exact htriggered j
    · have hnone : s.inferred = none := by simp [inferred, hlive]
      simp only [hlive] at hstep
      cases hstep
      simp only [reconcilePartialClose, hlive]
      refine ⟨⟨rfl, rfl, rfl, rfl⟩, h, rfl, fun j => ?_⟩
      rw [hnone]
      simp [apply, Handled.settled]

theorem step_reconcile (h : s.Steady) (hstep : step s (.reconcile answers) = some t) :
    t.Steady ∧ (t.Advanced ↔ s.Settles (.reconcile answers)) := by
  obtain ⟨hrest, hadvances⟩ := triggered_reconcile h.underway hstep
  exact h.of_advances hrest hadvances

theorem settled_positionUpdate {position : PositionContext} (h : position.Underway)
    (answers : Answers) (size : ℚ) (reconciler : Option ℚ) :
    ((position.handlePositionUpdate answers size reconciler).settled answers).Underway ∧
      ((position.handlePositionUpdate answers size reconciler).settled answers).tpLevels.length =
        position.tpLevels.length ∧
      ∀ j, ((position.handlePositionUpdate answers size reconciler).settled answers).Triggered j ↔
        position.Triggered j := by
  unfold handlePositionUpdate
  dsimp only
  split
  · split
    · have hempty : KeepsLevels position { position with currentQuantity := 0 } :=
        ⟨rfl, rfl, rfl, rfl, id⟩
      have hkeeps := hempty.trans
        (keepsLevels_closePosition answers _ (show TransitionTrigger.manualClose ≠ _ by simp))
      exact ⟨(hkeeps.underway h).cancelRemaining answers,
        (cancelRemaining_length answers).trans (congrArg List.length hkeeps.levels),
        fun j => (triggered_cancelRemaining answers).trans hkeeps.triggered_iff⟩
    · exact ⟨h, rfl, fun j => Iff.rfl⟩
  · split
    · exact ⟨h, rfl, fun j => Iff.rfl⟩
    · exact ⟨⟨h.multi, h.entered, h.dispatched⟩, rfl, fun j => Iff.rfl⟩

theorem reconciler_positionUpdate_eq_none {position : PositionContext} {reconciler : Option ℚ} :
    (position.handlePositionUpdate answers size reconciler).reconciler = none ↔
      reconciler = none ∧ ¬(0 < |size| ∧ position.schedulesReconciler |size| = true) := by
  unfold handlePositionUpdate
  dsimp only
  split
  · next hzero =>
    have hnot : ¬0 < |size| := not_lt.mpr hzero
    split <;> simp [hnot]
  · next hpos =>
    split
    · next hsame => simp [schedulesReconciler, hsame]
    · rw [not_le] at hpos
      by_cases hschedules : position.schedulesReconciler |size| = true
      · simp [hschedules, hpos]
      · simp [hschedules]

/-- A position update triggers no level.  It shows the fills behind its size, and schedules a
reconciler or leaves the pending one alone. -/
theorem step_positionUpdate (h : s.Steady)
    (hstep : step s (.positionUpdate size answers) = some t) :
    t.Steady ∧ (t.Advanced ↔ s.Settles (.positionUpdate size answers)) := by
  simp only [step] at hstep
  split at hstep
  · cases hstep
  · next entry shown hfound =>
    split at hstep
    · cases hstep
      have hbehind : s.fillsBehind size = shown := by
        rw [fillsBehind, hfound]
        rfl
      have hshown : max s.shown shown ≤ s.fills.length :=
        max_le h.shown_le (h.sizes_le _ (List.mem_of_find?_eq_some hfound))
      have hsettled := settled_positionUpdate h.underway answers size s.reconciler
      obtain ⟨hunderway, hlength, htriggered⟩ := hsettled
      refine ⟨⟨hunderway, fun j hj => hlength.symm ▸ h.fills_lt j hj, hshown, h.sizes_le⟩, ?_⟩
      unfold Advanced Settles shownFills
      simp only [apply, htriggered, reconciler_positionUpdate_eq_none, hbehind]
      constructor
      · intro hadvanced
        by_cases hscheduled : 0 < |size| ∧ s.position.schedulesReconciler |size| = true
        · exact Or.inl hscheduled
        · by_cases hnone : s.reconciler = none
          · exact Or.inr (Or.inr (hadvanced ⟨hnone, hscheduled⟩))
          · exact Or.inr (Or.inl hnone)
      · rintro hcases ⟨hnone, hscheduled⟩
        exact (hcases.resolve_left hscheduled).resolve_left (not_not.mpr hnone)
    · cases hstep

/-- **One step** from an advanced state leads to an advanced state if and only if it settles. -/
theorem step_advanced_iff (h : s.Steady) (hs : s.Advanced) {e : TpEvent}
    (hstep : step s e = some t) : t.Steady ∧ (t.Advanced ↔ s.Settles e) := by
  cases e with
  | fill i =>
    obtain ⟨hsteady, hsame⟩ := step_fill h hstep
    exact ⟨hsteady, iff_of_true (hsame.mpr hs) trivial⟩
  | orderUpdate i event answers => exact step_orderUpdate h hstep
  | positionUpdate size answers => exact step_positionUpdate h hstep
  | reconcile answers => exact step_reconcile h hstep

end Steps

/-! ## Runs -/

/-- **The reconciler loses no fill in any state of a run** if and only if all its steps settle. -/
theorem advanced_iff {start : PositionContext} (hfresh : Fresh start) {s : TpRun}
    {es : List TpEvent} (hrun : run step (initial start) es = some s) :
    (∀ es' u, es' <+: es → run step (initial start) es' = some u → u.Advanced) ↔
      AlongRun step Settles (initial start) es := by
  rw [forall_prefix_iff_alongRun]
  have hsame : AlongRun step (fun s e => ∀ t, step s e = some t → t.Advanced) (initial start) es ↔
      AlongRun step Settles (initial start) es := by
    refine alongRun_iff_of_invariant step (I := fun s => s.Steady ∧ s.Advanced) ?_ ?_
      ⟨steady_initial hfresh, advanced_initial⟩ hrun
    · rintro s e t ⟨hsteady, hadvanced⟩ hnext hstep
      exact ⟨(step_advanced_iff hsteady hadvanced hstep).1, hnext t hstep⟩
    · rintro s e t ⟨hsteady, hadvanced⟩ hstep
      rw [← (step_advanced_iff hsteady hadvanced hstep).2]
      constructor
      · exact fun hnext => hnext t hstep
      · intro ht u hu
        exact Option.some.inj (hstep.symm.trans hu) ▸ ht
  exact ⟨fun h => hsame.mp h.2, fun h => ⟨advanced_initial, hsame.mpr h⟩⟩

/-! ## Two fills within the delay -/

/-- A long position with three take-profit levels, of a quarter, a quarter and one half. -/
def quarters : PositionContext where
  positionId := "7"
  symbol := "BTCUSDT"
  state := .open
  stateMachine := { state := .open }
  entryPrice := 100
  originalQuantity := 1
  currentQuantity := 1
  currentSlPrice := 90
  slExchangeOrderId := some "sl-1"
  tpMode := .multi
  tpLevels :=
    [{ closePct := 25, triggerPrice := 110, status := .open, exchangeOrderId := some "tp-1" },
     { level := 1, closePct := 25, triggerPrice := 120, status := .open,
       exchangeOrderId := some "tp-2" },
     { level := 2, closePct := 50, triggerPrice := 130, status := .open,
       exchangeOrderId := some "tp-3" }]

theorem fresh_quarters : Fresh quarters := by
  refine ⟨rfl, rfl, rfl, rfl, by decide +kernel, by simp [quarters], ?_, ?_, ?_, by decide +kernel,
    rfl⟩
  · decide +kernel
  · intro level hlevel
    simp only [quarters, List.mem_cons, List.not_mem_nil, or_false] at hlevel
    rcases hlevel with rfl | rfl | rfl
    · exact ⟨_, rfl, by decide⟩
    · exact ⟨_, rfl, by decide⟩
    · exact ⟨_, rfl, by decide⟩
  · decide +kernel

/-- With the delay between the two fills both are inferred. -/
theorem advanced_oneAtATime :
    ∃ s, run step (initial quarters)
        [.fill 0, .positionUpdate (3 / 4) {}, .reconcile {}, .fill 1,
          .positionUpdate (1 / 2) {}, .reconcile {}] = some s ∧
      ∀ es' u, es' <+: [.fill 0, .positionUpdate (3 / 4) {}, .reconcile {}, .fill 1,
          .positionUpdate (1 / 2) {}, .reconcile {}] →
        run step (initial quarters) es' = some u → u.Advanced := by
  have hsettles : AlongRun step Settles (initial quarters)
      [.fill 0, .positionUpdate (3 / 4) {}, .reconcile {}, .fill 1,
        .positionUpdate (1 / 2) {}, .reconcile {}] := by
    decide +kernel
  have hend : (run step (initial quarters)
      [.fill 0, .positionUpdate (3 / 4) {}, .reconcile {}, .fill 1,
        .positionUpdate (1 / 2) {}, .reconcile {}]).isSome = true := by
    decide +kernel
  obtain ⟨s, hs⟩ := Option.isSome_iff_exists.mp hend
  exact ⟨s, hs, (advanced_iff fresh_quarters hs).mpr hsettles⟩

/-- **The first of two fills within the delay is lost.**  The second shrink replaces the timer and
its delta; when it fires, it advances one level, and no timer is left for the other one. -/
theorem second_shrink_loses_fill :
    Fresh quarters ∧ ∃ s, run step (initial quarters)
        [.fill 0, .positionUpdate (3 / 4) {}, .fill 1, .positionUpdate (1 / 2) {},
          .reconcile {}] = some s ∧
      s.reconciler = none ∧ s.shownFills = [0, 1] ∧ ¬s.position.Triggered 1 ∧ ¬s.Advanced := by
  have hend : (run step (initial quarters)
      [.fill 0, .positionUpdate (3 / 4) {}, .fill 1, .positionUpdate (1 / 2) {},
        .reconcile {}]).map
        (fun s => decide (s.reconciler = none ∧ s.shownFills = [0, 1] ∧
          ¬s.position.Triggered 1)) = some true := by
    decide +kernel
  obtain ⟨s, hs, hstate⟩ := Option.map_eq_some_iff.mp hend
  obtain ⟨hnone, hshown, hwaits⟩ := of_decide_eq_true hstate
  refine ⟨fresh_quarters, s, hs, hnone, hshown, hwaits, fun hadvanced => ?_⟩
  exact hwaits (hadvanced hnone 1 (by rw [hshown]; simp))

end TpRun
end AdviserConstructor
