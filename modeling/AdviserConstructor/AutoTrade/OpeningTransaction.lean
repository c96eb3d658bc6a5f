import Mathlib.Data.List.Sublists
import AdviserConstructor.AutoTrade.PositionRow
import AdviserConstructor.Library.StepSystem
import AdviserConstructor.Ws.Callbacks

/-!
# The opening transaction

When a signal opens a position, `_process_without_open_position` flushes the row and merges the
context into it, and `_initialize_position_runtime` books what came attached to the entry and
enqueues the protective orders that did not.  All of that is one transaction, which
`process_signal_queue` commits once it is through with its batches.

Meanwhile the worker of the order queue runs the tasks.  The success callback of a task writes the
id of the new order into the context and persists the context in a session of its own.  That session
sees committed rows only: before the commit there is no row, and the persist returns without a word.

A step of `OpeningRun` is the next action of the initialisation, the success of a task, one of the
phases of the persist behind it, or the commit.  The worker awaits the callback before it takes the
next task, so that one persist is under way at most.

* `recorded_iff`: when everything is through, the row has the ids and statuses of the context if
  and only if a persist has loaded the row behind the commit (or there was no adapter and nothing
  to place).
-/

namespace AdviserConstructor

open StepSystem

/-! ## The initialisation -/

/-- An action of `_initialize_position_runtime`. -/
inductive OpeningAction where
  | attachStop (orderId : String)
  /-- the target came attached to the entry -/
  | attachTarget (orderId : String)
  /-- a task is enqueued, with its success callback -/
  | enqueue (callback : SuccessCallback)
  | persist
  deriving DecidableEq

/-- An entry that was filled: the context that was built for it, which has no stop yet, the row as
it is flushed, and what came attached. -/
structure Opening where
  position : PositionContext
  row : PositionRow
  adapter : Bool
  attachedSl : Option String := none
  attachedTp : Option String := none
  fresh : position.slExchangeOrderId = none

namespace Opening

def flushed (o : Opening) : PositionRow := o.row.mergePosition o.position

/-- The stop: it is attached, or a task places it. -/
def stopAction (o : Opening) : OpeningAction :=
  match o.attachedSl with
  | some orderId => .attachStop orderId
  | none => .enqueue (.conditionalOrder .sl none)

/-- `initialize_tp_levels`: a task for each pending level. -/
def levelActions (o : Opening) : List OpeningAction :=
  o.position.tpLevels.zipIdx.filterMap fun (level, index) =>
    if level.status = .pending then some (.enqueue (.conditionalOrder .tp (some index))) else none

def targetActions (o : Opening) : List OpeningAction :=
  if o.position.tpMode = .multi ∧ o.position.tpLevels ≠ [] then o.levelActions
  else
    match o.attachedTp with
    | some orderId => if o.position.tpLevels = [] then [] else [.attachTarget orderId]
    | none =>
        match o.position.currentTpPrice with
        | some price =>
            if positionEpsilon < price then [.enqueue (.conditionalOrder .tp none)] else []
        | none => []

/-- `_initialize_position_runtime`. -/
def initializePositionRuntime (o : Opening) : List OpeningAction :=
  if o.adapter then o.stopAction :: (o.targetActions ++ [.persist]) else []

end Opening

/-! ## Runs -/

/-- How far the callback of a task is. -/
inductive CallbackPhase where
  | idle
  | booked
  | loaded (row : PositionRow)
  | merged (loaded merged : PositionRow)

/-- The context, the transaction and the queue. -/
structure OpeningRun where
  position : PositionContext
  actions : List OpeningAction
  tasks : List SuccessCallback := []
  flushed : PositionRow
  committed : Option PositionRow := none
  phase : CallbackPhase := .idle

/-- What happens next. -/
inductive OpeningEvent where
  | proceed
  /-- a task succeeds, and its callback writes to the context -/
  | complete (i : ℕ) (result : ConditionalOrderResult)
  /-- the persist of the callback loads the row -/
  | load
  | merge
  | store
  /-- `process_signal_queue` commits -/
  | commitOpening
  deriving DecidableEq

namespace OpeningRun

/-- The entry is filled and its row is flushed. -/
def start (o : Opening) : OpeningRun where
  position := o.position
  actions := o.initializePositionRuntime
  flushed := o.flushed

/-- The first level with the order that came attached to the entry. -/
def attachTarget (orderId : String) (position : PositionContext) : PositionContext :=
  { position with
    tpLevels := position.tpLevels.modify 0 fun level =>
      { level with exchangeOrderId := some orderId, status := .open } }

/-- The next action of the initialisation. -/
def act (s : OpeningRun) : OpeningAction → OpeningRun
  | .attachStop orderId =>
      { s with position := { s.position with slExchangeOrderId := some orderId } }
  | .attachTarget orderId => { s with position := attachTarget orderId s.position }
  | .enqueue callback => { s with tasks := s.tasks ++ [callback] }
  | .persist => { s with committed := s.committed.map fun row => row.mergePosition s.position }

def step (s : OpeningRun) : OpeningEvent → Option OpeningRun
  | .proceed =>
      match s.actions with
      | [] => none
      | action :: actions => some { s.act action with actions := actions }
  | .complete i result =>
      match s.phase, s.tasks[i]? with
      | .idle, some callback =>
          some
            { s with
              position := PositionContext.applyCallback result s.position callback
              tasks := s.tasks.eraseIdx i
              phase := .booked }
      | _, _ => none
  | .load =>
      match s.phase with
      | .booked =>
          match s.committed with
          -- the row is not there for this session
          | none => some { s with phase := .idle }
          | some row => some { s with phase := .loaded row }
      | _ => none
  | .merge =>
      match s.phase with
      | .loaded row => some { s with phase := .merged row (row.mergePosition s.position) }
      | _ => none
  | .store =>
      match s.phase with
      | .merged loaded merged =>
          some
            { s with
              committed := s.committed.map fun stored => loaded.commit merged stored
              phase := .idle }
      | _ => none
  | .commitOpening =>
      if s.actions = [] ∧ s.committed.isNone then some { s with committed := some s.flushed }
      else none

/-- All tasks have succeeded, and the transaction has committed. -/
def Settled (s : OpeningRun) : Prop :=
  s.actions = [] ∧ s.tasks = [] ∧ s.phase = .idle ∧ s.committed.isSome

/-- What row and context are compared in: the stop, and id and status of each level. -/
def orders (slExchangeOrderId : Option String) (levels : List TPLevel) :
    Option String × List (Option String × TPStatus) :=
  (slExchangeOrderId, levels.map fun level => (level.exchangeOrderId, level.status))

/-- **The protective orders have reached the database.** -/
def Recorded (s : OpeningRun) : Prop :=
  ∀ row ∈ s.committed,
    orders row.slExchangeOrderId row.tpLevels =
      orders s.position.slExchangeOrderId s.position.tpLevels

/-! ## What a step does -/

section Steps

variable {s s' : OpeningRun}

theorem step_proceed (hs : s.step .proceed = some s') :
    ∃ action actions, s.actions = action :: actions ∧
      s' = { s.act action with actions := actions } := by
  unfold step at hs
  cases hactions : s.actions with
  | nil => simp only [hactions, reduceCtorEq] at hs
  | cons action actions =>
    simp only [hactions, Option.some.injEq] at hs
    exact ⟨action, actions, rfl, hs.symm⟩

theorem step_complete {i : ℕ} {result : ConditionalOrderResult}
    (hs : s.step (.complete i result) = some s') :
    ∃ callback, s.phase = .idle ∧ s.tasks[i]? = some callback ∧
      s' = { s with
        position := PositionContext.applyCallback result s.position callback
        tasks := s.tasks.eraseIdx i
        phase := .booked } := by
  unfold step at hs
  cases hphase : s.phase with
  | idle =>
    cases htask : s.tasks[i]? with
    | none => simp only [hphase, htask, reduceCtorEq] at hs
    | some callback =>
      simp only [hphase, htask, Option.some.injEq] at hs
      exact ⟨callback, rfl, rfl, hs.symm⟩
  | booked => simp only [hphase, reduceCtorEq] at hs
  | loaded row => simp only [hphase, reduceCtorEq] at hs
  | merged loaded merged => simp only [hphase, reduceCtorEq] at hs

theorem step_load (hs : s.step .load = some s') :
    s.phase = .booked ∧
      (s.committed = none ∧ s' = { s with phase := .idle } ∨
        ∃ row, s.committed = some row ∧ s' = { s with phase := .loaded row }) := by
  unfold step at hs
  cases hphase : s.phase with
  | booked =>
    cases hrow : s.committed with
    | none =>
      simp only [hphase, hrow, Option.some.injEq] at hs
      exact ⟨rfl, Or.inl ⟨rfl, hs.symm⟩⟩
    | some row =>
      simp only [hphase, hrow, Option.some.injEq] at hs
      exact ⟨rfl, Or.inr ⟨row, rfl, hs.symm⟩⟩
  | idle => simp only [hphase, reduceCtorEq] at hs
  | loaded row => simp only [hphase, reduceCtorEq] at hs
  | merged loaded merged => simp only [hphase, reduceCtorEq] at hs

theorem step_merge (hs : s.step .merge = some s') :
    ∃ row, s.phase = .loaded row ∧
      s' = { s with phase := .merged row (row.mergePosition s.position) } := by
  unfold step at hs
  cases hphase : s.phase with
  | loaded row =>
    simp only [hphase, Option.some.injEq] at hs
    exact ⟨row, rfl, hs.symm⟩
  | idle => simp only [hphase, reduceCtorEq] at hs
  | booked => simp only [hphase, reduceCtorEq] at hs
  | merged loaded merged => simp only [hphase, reduceCtorEq] at hs

theorem step_store (hs : s.step .store = some s') :
    ∃ loaded merged, s.phase = .merged loaded merged ∧
      s' = { s with
        committed := s.committed.map fun stored => loaded.commit merged stored
        phase := .idle } := by
  unfold step at hs
  cases hphase : s.phase with
  | merged loaded merged =>
    simp only [hphase, Option.some.injEq] at hs
    exact ⟨loaded, merged, rfl, hs.symm⟩
  | idle => simp only [hphase, reduceCtorEq] at hs
  | booked => simp only [hphase, reduceCtorEq] at hs
  | loaded row => simp only [hphase, reduceCtorEq] at hs

theorem step_commitOpening (hs : s.step .commitOpening = some s') :
    s.actions = [] ∧ s.committed = none ∧ s' = { s with committed := some s.flushed } := by
  simp only [step, Option.ite_none_right_eq_some, Option.isNone_iff_eq_none,
    Option.some.injEq] at hs
  exact ⟨hs.1.1, hs.1.2, hs.2.symm⟩

end Steps

/-! ## Loading behind the commit -/

/-- A persist has loaded the row behind the commit. -/
def LoadedBehindCommit (events : List OpeningEvent) : Prop :=
  [OpeningEvent.commitOpening, .load].Sublist events

instance (events : List OpeningEvent) : Decidable (LoadedBehindCommit events) :=
  inferInstanceAs (Decidable (List.Sublist _ _))

theorem loadedBehindCommit_concat {events : List OpeningEvent} {e : OpeningEvent} :
    LoadedBehindCommit (events ++ [e]) ↔
      LoadedBehindCommit events ∨ e = .load ∧ .commitOpening ∈ events := by
  have hlast : [OpeningEvent.load, .commitOpening].Sublist (e :: events.reverse) ↔
      [OpeningEvent.load, .commitOpening].Sublist events.reverse ∨
        e = .load ∧ .commitOpening ∈ events := by
    rw [List.sublist_cons_iff]
    refine or_congr_right ⟨?_, ?_⟩
    · rintro ⟨rest, hsplit, hrest⟩
      obtain ⟨hload, rfl⟩ := List.cons.inj hsplit
      exact ⟨hload.symm, List.mem_reverse.mp (List.singleton_sublist.mp hrest)⟩
    · rintro ⟨rfl, hmem⟩
      exact ⟨_, rfl, List.singleton_sublist.mpr (List.mem_reverse.mpr hmem)⟩
  unfold LoadedBehindCommit
  rw [← List.reverse_sublist, List.reverse_append,
    ← @List.reverse_sublist _ [OpeningEvent.commitOpening, .load] events]
  exact hlast

/-! ## The invariant -/

/-- What the callback has in hand is up to date: nothing has been written to the row since it was
loaded, and nothing to the context since it was merged. -/
def Current (s : OpeningRun) : Prop :=
  match s.phase with
  | .idle => s.Recorded
  | .booked => True
  | .loaded row => s.committed = some row
  | .merged loaded merged =>
      s.committed = some loaded ∧ merged = loaded.mergePosition s.position

/-- The stop has an order, or an action or a task that will give it one. -/
def StopUnderWay (s : OpeningRun) : Prop :=
  s.position.slExchangeOrderId.isSome = true ∨
    (∃ orderId, .attachStop orderId ∈ s.actions) ∨
    .enqueue (.conditionalOrder .sl none) ∈ s.actions ∨
    .conditionalOrder .sl none ∈ s.tasks

/-- What holds of the state `s` behind the events `past` of an opening. -/
structure Progress (o : Opening) (past : List OpeningEvent) (s : OpeningRun) : Prop where
  flushed_eq : s.flushed = o.flushed
  committed_isSome : s.committed.isSome = true ↔ .commitOpening ∈ past
  actions_eq : .commitOpening ∈ past → s.actions = []
  untouched : ¬ LoadedBehindCommit past →
    (s.phase = .idle ∨ s.phase = .booked) ∧ ∀ row ∈ s.committed, row = o.flushed
  current : LoadedBehindCommit past → s.Current
  stop : o.adapter = true → s.StopUnderWay
  without_adapter : o.adapter = false →
    s.actions = [] ∧ s.tasks = [] ∧ s.phase = .idle ∧ s.position = o.position

theorem progress_start (o : Opening) : Progress o [] (start o) where
  flushed_eq := rfl
  committed_isSome := iff_of_false (by simp [start]) List.not_mem_nil
  actions_eq h := absurd h List.not_mem_nil
  untouched _ := ⟨Or.inl rfl, by rintro _ ⟨⟩⟩
  current h := absurd h (by decide)
  stop hadapter := by
    have hmem : o.stopAction ∈ (start o).actions := by
      change o.stopAction ∈ o.initializePositionRuntime
      rw [Opening.initializePositionRuntime, if_pos hadapter]
      exact List.mem_cons_self
    unfold Opening.stopAction at hmem
    cases hattached : o.attachedSl with
    | some orderId =>
      rw [hattached] at hmem
      exact Or.inr (Or.inl ⟨orderId, hmem⟩)
    | none =>
      rw [hattached] at hmem
      exact Or.inr (Or.inr (Or.inl hmem))
  without_adapter hadapter := by
    refine ⟨?_, rfl, rfl, rfl⟩
    change o.initializePositionRuntime = []
    rw [Opening.initializePositionRuntime, hadapter]
    rfl

/-! ### The stop -/

theorem stopUnderWay_act {s : OpeningRun} {action : OpeningAction} {actions : List OpeningAction}
    (hactions : s.actions = action :: actions) (h : s.StopUnderWay) :
    StopUnderWay { s.act action with actions := actions } := by
  unfold StopUnderWay at h ⊢
  rw [hactions] at h
  rcases h with hset | ⟨orderId, hattach⟩ | henqueue | htask
  · refine Or.inl ?_
    cases action with
    | attachStop orderId => rfl
    | attachTarget orderId => exact hset
    | enqueue callback => exact hset
    | persist => exact hset
  · rcases List.mem_cons.mp hattach with rfl | hattach
    · exact Or.inl rfl
    · exact Or.inr (Or.inl ⟨orderId, hattach⟩)
  · rcases List.mem_cons.mp henqueue with rfl | henqueue
    · exact Or.inr (Or.inr (Or.inr (List.mem_append_right _ (List.mem_singleton_self _))))
    · exact Or.inr (Or.inr (Or.inl henqueue))
  · refine Or.inr (Or.inr (Or.inr ?_))
    cases action with
    | attachStop orderId => exact htask
    | attachTarget orderId => exact htask
    | enqueue callback => exact List.mem_append_left _ htask
    | persist => exact htask

theorem stop_applyCallback (result : ConditionalOrderResult) {position : PositionContext}
    (callback : SuccessCallback) (h : position.slExchangeOrderId.isSome = true) :
    (PositionContext.applyCallback result position callback).slExchangeOrderId.isSome = true := by
  cases callback with
  | conditionalOrder source levelIndex =>
    cases source with
    | sl => rfl
    | tp =>
      cases levelIndex with
      | none => exact h
      | some i => exact h
  | slAdjustment reason triggerSource =>
    unfold PositionContext.applyCallback PositionContext.applySlAdjustment
      PositionContext.transition PositionContext.syncState
    dsimp only
    split <;> rfl

theorem stopUnderWay_complete {s : OpeningRun} {i : ℕ} {callback : SuccessCallback}
    (result : ConditionalOrderResult) (htask : s.tasks[i]? = some callback)
    (h : s.StopUnderWay) :
    StopUnderWay { s with
      position := PositionContext.applyCallback result s.position callback
      tasks := s.tasks.eraseIdx i
      phase := .booked } := by
  rcases h with hset | hattach | henqueue | hqueued
  · exact Or.inl (stop_applyCallback result callback hset)
  · exact Or.inr (Or.inl hattach)
  · exact Or.inr (Or.inr (Or.inl henqueue))
  · by_cases hself : callback = .conditionalOrder .sl none
    · subst hself
      exact Or.inl rfl
    · refine Or.inr (Or.inr (Or.inr ?_))
      obtain ⟨j, hj⟩ := List.mem_iff_getElem?.mp hqueued
      have hne : j ≠ i := by
        rintro rfl
        exact hself (Option.some.inj (htask.symm.trans hj))
      exact List.mem_eraseIdx_iff_getElem?.mpr ⟨j, hne, hj⟩

/-! ### Steps -/

section Progress

variable {o : Opening} {past : List OpeningEvent} {s s' : OpeningRun}

theorem commit_mem_of_loadedBehindCommit (h : LoadedBehindCommit past) :
    .commitOpening ∈ past :=
  h.subset List.mem_cons_self

theorem Progress.committed_eq_none (h : Progress o past s) (hbefore : .commitOpening ∉ past) :
    s.committed = none := by
  rw [← h.committed_isSome, Bool.not_eq_true] at hbefore
  exact Option.isSome_eq_false_iff.mp hbefore |> Option.isNone_iff_eq_none.mp

theorem mem_concat_of_ne {e : OpeningEvent} (hne : e ≠ .commitOpening) :
    OpeningEvent.commitOpening ∈ past ++ [e] ↔ .commitOpening ∈ past := by
  rw [List.mem_append, List.mem_singleton]
  exact or_iff_left fun h => hne h.symm

theorem loadedBehindCommit_concat_of_ne {e : OpeningEvent} (hne : e ≠ .load) :
    LoadedBehindCommit (past ++ [e]) ↔ LoadedBehindCommit past := by
  rw [loadedBehindCommit_concat]
  exact or_iff_left fun h => hne h.1

theorem progress_proceed (h : Progress o past s) (hs : s.step .proceed = some s') :
    Progress o (past ++ [.proceed]) s' := by
  obtain ⟨action, actions, hactions, rfl⟩ := step_proceed hs
  have hbefore : .commitOpening ∉ past := fun hcommit => by
    rw [h.actions_eq hcommit] at hactions
    cases hactions
  have hnone := h.committed_eq_none hbefore
  have hbehind : ¬ LoadedBehindCommit past := fun hloaded =>
    hbefore (commit_mem_of_loadedBehindCommit hloaded)
  obtain ⟨hphase, -⟩ := h.untouched hbehind
  have hact : (s.act action).committed = none ∧ (s.act action).phase = s.phase ∧
      (s.act action).flushed = s.flushed := by
    cases action with
    | attachStop orderId => exact ⟨hnone, rfl, rfl⟩
    | attachTarget orderId => exact ⟨hnone, rfl, rfl⟩
    | enqueue callback => exact ⟨hnone, rfl, rfl⟩
    | persist => exact ⟨by rw [act, hnone]; rfl, rfl, rfl⟩
  refine ⟨hact.2.2.trans h.flushed_eq, ?_, ?_, ?_, ?_, ?_, ?_⟩
  · rw [mem_concat_of_ne (by simp)]
    exact iff_of_false (by rw [hact.1]; simp) hbefore
  · rw [mem_concat_of_ne (by simp)]
    exact fun hcommit => absurd hcommit hbefore
  · intro _
    rw [hact.1, hact.2.1]
    exact ⟨hphase, by rintro _ ⟨⟩⟩
  · rw [loadedBehindCommit_concat_of_ne (by simp)]
    exact fun hloaded => absurd hloaded hbehind
  · exact fun hadapter => stopUnderWay_act hactions (h.stop hadapter)
  · intro hadapter
    rw [(h.without_adapter hadapter).1] at hactions
    cases hactions

theorem progress_complete {i : ℕ} {result : ConditionalOrderResult} (h : Progress o past s)
    (hs : s.step (.complete i result) = some s') :
    Progress o (past ++ [.complete i result]) s' := by
  obtain ⟨callback, hidle, htask, rfl⟩ := step_complete hs
  refine ⟨h.flushed_eq, ?_, ?_, ?_, fun _ => trivial, ?_, ?_⟩
  · rw [mem_concat_of_ne (by simp)]
    exact h.committed_isSome
  · rw [mem_concat_of_ne (by simp)]
    exact h.actions_eq
  · rw [loadedBehindCommit_concat_of_ne (by simp)]
    exact fun hbehind => ⟨Or.inr rfl, (h.untouched hbehind).2⟩
  · exact fun hadapter => stopUnderWay_complete result htask (h.stop hadapter)
  · intro hadapter
    rw [(h.without_adapter hadapter).2.1] at htask
    cases htask

theorem progress_load (h : Progress o past s) (hs : s.step .load = some s') :
    Progress o (past ++ [.load]) s' := by
  obtain ⟨hbooked, hload⟩ := step_load hs
  have hadapter : ¬ o.adapter = false := fun hadapter => by
    rw [(h.without_adapter hadapter).2.2.1] at hbooked
    cases hbooked
  rcases hload with ⟨hnone, rfl⟩ | ⟨row, hrow, rfl⟩
  · -- the persist finds no row, and the opening has not committed
    have hbefore : .commitOpening ∉ past := by
      rw [← h.committed_isSome, hnone]
      simp
    have hbehind : ¬ LoadedBehindCommit (past ++ [.load]) := by
      rw [loadedBehindCommit_concat]
      rintro (hloaded | ⟨-, hcommit⟩)
      · exact hbefore (commit_mem_of_loadedBehindCommit hloaded)
      · exact hbefore hcommit
    refine ⟨h.flushed_eq, ?_, ?_, fun _ => ⟨Or.inl rfl, ?_⟩, fun hloaded => absurd hloaded hbehind,
      h.stop, fun h => absurd h hadapter⟩
    · rw [mem_concat_of_ne (by simp)]
      exact h.committed_isSome
    · rw [mem_concat_of_ne (by simp)]
      exact h.actions_eq
    · rintro _ hmem
      rw [hnone] at hmem
      cases hmem
  · have hcommit : .commitOpening ∈ past := by
      rw [← h.committed_isSome, hrow]
      rfl
    have hbehind : LoadedBehindCommit (past ++ [.load]) :=
      loadedBehindCommit_concat.mpr (Or.inr ⟨rfl, hcommit⟩)
    refine ⟨h.flushed_eq, ?_, ?_, fun hloaded => absurd hbehind hloaded, fun _ => hrow, h.stop,
      fun h => absurd h hadapter⟩
    · rw [mem_concat_of_ne (by simp)]
      exact h.committed_isSome
    · rw [mem_concat_of_ne (by simp)]
      exact h.actions_eq

theorem Progress.loadedBehindCommit (h : Progress o past s) (hidle : s.phase ≠ .idle)
    (hbooked : s.phase ≠ .booked) : LoadedBehindCommit past := by
  by_contra hbehind
  rcases (h.untouched hbehind).1 with hphase | hphase
  · exact hidle hphase
  · exact hbooked hphase

theorem progress_merge (h : Progress o past s) (hs : s.step .merge = some s') :
    Progress o (past ++ [.merge]) s' := by
  obtain ⟨row, hphase, rfl⟩ := step_merge hs
  have hbehind := h.loadedBehindCommit (by rw [hphase]; simp) (by rw [hphase]; simp)
  have hcurrent := h.current hbehind
  unfold Current at hcurrent
  rw [hphase] at hcurrent
  refine ⟨h.flushed_eq, ?_, ?_, ?_, fun _ => ⟨hcurrent, rfl⟩, h.stop, ?_⟩
  · rw [mem_concat_of_ne (by simp)]
    exact h.committed_isSome
  · rw [mem_concat_of_ne (by simp)]
    exact h.actions_eq
  · rw [loadedBehindCommit_concat_of_ne (by simp)]
    exact fun hloaded => absurd hbehind hloaded
  · intro hadapter
    rw [(h.without_adapter hadapter).2.2.1] at hphase
    cases hphase

theorem column_self {α : Type} [DecidableEq α] (loaded merged : α) :
    Row.column loaded merged loaded = merged := by
  unfold Row.column
  by_cases hsame : merged = loaded
  · rw [if_pos hsame, hsame]
  · rw [if_neg hsame]

theorem orders_commit_self (loaded : PositionRow) (position : PositionContext) :
    orders (loaded.commit (loaded.mergePosition position) loaded).slExchangeOrderId
        (loaded.commit (loaded.mergePosition position) loaded).tpLevels =
      orders position.slExchangeOrderId position.tpLevels := by
  have hstop : (loaded.commit (loaded.mergePosition position) loaded).slExchangeOrderId =
      position.slExchangeOrderId := column_self ..
  have hlevels : (loaded.commit (loaded.mergePosition position) loaded).tpLevels =
      position.tpLevels := column_self ..
  rw [hstop, hlevels]

theorem progress_store (h : Progress o past s) (hs : s.step .store = some s') :
    Progress o (past ++ [.store]) s' := by
  obtain ⟨loaded, merged, hphase, rfl⟩ := step_store hs
  have hbehind := h.loadedBehindCommit (by rw [hphase]; simp) (by rw [hphase]; simp)
  have hcurrent := h.current hbehind
  unfold Current at hcurrent
  rw [hphase] at hcurrent
  obtain ⟨hrow, rfl⟩ := hcurrent
  refine ⟨h.flushed_eq, ?_, ?_, ?_, fun _ => ?_, h.stop, ?_⟩
  · rw [mem_concat_of_ne (by simp), ← h.committed_isSome, Option.isSome_map]
  · rw [mem_concat_of_ne (by simp)]
    exact h.actions_eq
  · rw [loadedBehindCommit_concat_of_ne (by simp)]
    exact fun hloaded => absurd hbehind hloaded
  · rintro row hmem
    rw [hrow] at hmem
    obtain rfl := Option.some.inj hmem
    exact orders_commit_self loaded s.position
  · intro hadapter
    rw [(h.without_adapter hadapter).2.2.1] at hphase
    cases hphase

theorem progress_commitOpening (h : Progress o past s) (hs : s.step .commitOpening = some s') :
    Progress o (past ++ [.commitOpening]) s' := by
  obtain ⟨hactions, hnone, rfl⟩ := step_commitOpening hs
  have hbefore : .commitOpening ∉ past := by
    rw [← h.committed_isSome, hnone]
    simp
  have hbehind : ¬ LoadedBehindCommit past := fun hloaded =>
    hbefore (commit_mem_of_loadedBehindCommit hloaded)
  refine ⟨h.flushed_eq, ?_, fun _ => hactions, fun _ => ?_, ?_, h.stop, h.without_adapter⟩
  · exact iff_of_true rfl (List.mem_append_right _ (List.mem_singleton_self _))
  · refine ⟨(h.untouched hbehind).1, ?_⟩
    rintro row ⟨⟩
    exact h.flushed_eq
  · rw [loadedBehindCommit_concat_of_ne (by simp)]
    exact fun hloaded => absurd hloaded hbehind

theorem progress_step {e : OpeningEvent} (h : Progress o past s) (hs : s.step e = some s') :
    Progress o (past ++ [e]) s' := by
  cases e with
  | proceed => exact progress_proceed h hs
  | complete i result => exact progress_complete h hs
  | load => exact progress_load h hs
  | merge => exact progress_merge h hs
  | store => exact progress_store h hs
  | commitOpening => exact progress_commitOpening h hs

theorem progress_of_run {events : List OpeningEvent} {t : OpeningRun}
    (hrun : run step (start o) events = some t) : Progress o events t := by
  induction events using List.reverseRecOn generalizing t with
  | nil => exact Option.some.inj hrun ▸ progress_start o
  | append_singleton events e ih =>
    obtain ⟨u, hu, hstep⟩ := (run_concat_eq_some step).mp hrun
    exact progress_step (ih hu) hstep

end Progress

/-! ## The outcome -/

theorem StopUnderWay.isSome {s : OpeningRun} (h : s.StopUnderWay) (hsettled : s.Settled) :
    s.position.slExchangeOrderId.isSome = true := by
  obtain ⟨hactions, htasks, -, -⟩ := hsettled
  unfold StopUnderWay at h
  rw [hactions, htasks] at h
  rcases h with hset | ⟨orderId, hattach⟩ | henqueue | hqueued
  · exact hset
  · cases hattach
  · cases henqueue
  · cases hqueued

/-- **The protective orders have reached the database if and only if a persist has loaded the row
behind the commit**, or nothing was placed for want of an adapter. -/
theorem recorded_iff (o : Opening) {events : List OpeningEvent} {t : OpeningRun}
    (hrun : run step (start o) events = some t) (hsettled : t.Settled) :
    t.Recorded ↔ o.adapter = false ∨ LoadedBehindCommit events := by
  have h := progress_of_run hrun
  obtain ⟨-, -, hidle, hsome⟩ := id hsettled
  obtain ⟨row, hrow⟩ := Option.isSome_iff_exists.mp hsome
  by_cases hbehind : LoadedBehindCommit events
  · refine iff_of_true ?_ (Or.inr hbehind)
    have hcurrent := h.current hbehind
    unfold Current at hcurrent
    rwa [hidle] at hcurrent
  rw [or_iff_left hbehind]
  have hflushed : row = o.flushed := (h.untouched hbehind).2 row hrow
  constructor
  · intro hrecorded
    by_contra hadapter
    have hset := (h.stop (Bool.not_eq_false _ ▸ hadapter)).isSome hsettled
    have horders := hrecorded row hrow
    have hstop : o.position.slExchangeOrderId = t.position.slExchangeOrderId := by
      rw [hflushed] at horders
      exact (Prod.mk.inj horders).1
    rw [← hstop, o.fresh] at hset
    cases hset
  · intro hadapter row' hrow'
    obtain rfl := Option.some.inj (hrow.symm.trans hrow')
    rw [(h.without_adapter hadapter).2.2.2, hflushed]
    rfl

/-- An entry with a ladder of two levels, and nothing attached. -/
def ladderOpening : Opening where
  position :=
    { state := .open
      stateMachine := { state := .open }
      entryPrice := 100
      originalQuantity := 1
      currentQuantity := 1
      currentSlPrice := 95
      tpMode := .multi
      tpLevels :=
        [{ closePct := 50, triggerPrice := 105 }, { closePct := 50, triggerPrice := 110 }] }
  row := { entryPrice := 100, quantity := 1 }
  adapter := true
  fresh := rfl

def placed (orderId : String) (orderType : ConditionalOrderType) : ConditionalOrderResult where
  exchangeOrderId := orderId
  clientOrderId := "c" ++ orderId
  orderType := orderType
  triggerPrice := 100
  quantity := 1

/-- The initialisation, and the stop and the first target while it is still in its transaction. -/
def earlyCallbacks : List OpeningEvent :=
  [.proceed, .proceed, .proceed, .proceed,
    .complete 0 (placed "1" .stopLoss), .load, .complete 0 (placed "2" .takeProfit), .load]

/-- The persist of the last callback loads the row behind the commit. -/
def lateTarget : List OpeningEvent :=
  [.commitOpening, .complete 0 (placed "3" .takeProfit), .load, .merge, .store]

/-- The persist of the last callback finds no row. -/
def earlyTarget : List OpeningEvent :=
  [.complete 0 (placed "3" .takeProfit), .load, .commitOpening]

theorem recorded_lateTarget :
    ∃ t, run step (start ladderOpening) (earlyCallbacks ++ lateTarget) = some t ∧ t.Settled ∧
      t.Recorded := by
  refine ⟨_, rfl, ⟨rfl, rfl, rfl, rfl⟩, ?_⟩
  exact (@recorded_iff ladderOpening (earlyCallbacks ++ lateTarget) _ rfl
    ⟨rfl, rfl, rfl, rfl⟩).mpr (Or.inr (by decide))

/-- **Three callbacks before the commit, and none of the orders is in the row.** -/
theorem earlyTarget_not_recorded :
    ∃ t, run step (start ladderOpening) (earlyCallbacks ++ earlyTarget) = some t ∧ t.Settled ∧
      ¬ t.Recorded := by
  refine ⟨_, rfl, ⟨rfl, rfl, rfl, rfl⟩, fun h => ?_⟩
  exact absurd (h _ rfl) (by decide +kernel)

end OpeningRun

end AdviserConstructor
