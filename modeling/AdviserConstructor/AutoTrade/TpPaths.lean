import AdviserConstructor.AutoTrade.RestInference
import AdviserConstructor.Library.Slots
import AdviserConstructor.Library.StepSystem

/-!
# Two paths to a take-profit fill

The socket manager books a fill on the live position when its event arrives; a poll
(`AutoTrade.PartialTpReconcile`) books it on a context of its own.  Both contexts live on, because
the stop shift that an engine has dispatched calls back, writes to the context that it closes over
and persists it.  A persist loads the row, merges all levels into what it has loaded and commits the
columns that the merge has changed.

A step of `TpPathsRun` is a fill event, one of the three phases of a poll, the callback of a stop
shift of either path, one of the phases of a persist, a hydration that tracks the position, or the
start of a new process, so that a run is any interleaving of any number of these.

* `pathsAgree_of_run`: each fill is booked once, triggered levels stay triggered in the row, and the
  row ends with those of the live position, in every run in which the paths take turns (`InTurn`).
  A poll drives the levels that it has accepted while no position is tracked and the row still has
  the levels that it has read; its context is merged and persisted while nobody else has written
  levels since; and the row of a commit has the levels that it had at the merge.
* The same theorem says that a poll that merges a level which it has booked beside a live position
  breaks the agreement in every run that comes to rest behind it: the live position has no way to
  learn of the level but by its event, and then the fill is booked twice.
* `pollThenEvent_books_twice`: a run in which that happens.
-/

namespace AdviserConstructor

open PositionContext StepSystem

/-! ## Runs -/

/-- How far a poll is; its context lives on behind it. -/
inductive RestPhase where
  | decided (pass : RestPass)
  | driven (pass : RestPass) (context : PositionContext)
  | done (pass : RestPass) (context : PositionContext)

namespace RestPhase

/-- The context of an engine that has been driven. -/
def context? : RestPhase → Option PositionContext
  | .decided _ => none
  | .driven _ context => some context
  | .done _ context => some context

/-- The phase with its context changed. -/
def mapContext (f : PositionContext → PositionContext) : RestPhase → RestPhase
  | .decided pass => .decided pass
  | .driven pass context => .driven pass (f context)
  | .done pass context => .done pass (f context)

/-- The engine has been driven, and its context is not merged yet. -/
def Driven : RestPhase → Prop
  | .driven _ _ => True
  | _ => False

instance : DecidablePred Driven
  | .decided _ => isFalse id
  | .driven _ _ => isTrue trivial
  | .done _ _ => isFalse id

end RestPhase

/-- Who holds a context. -/
inductive Holder where
  | live
  | rest (i : ℕ)
  deriving DecidableEq

/-- A persist of one of the contexts.  A persist that has merged remembers the row that was stored
then; nothing reads it but the condition of `InTurn`. -/
inductive TpPersist where
  | owed (holder : Holder)
  | loaded (holder : Holder) (row : PositionRow)
  | merged (loaded : PositionRow) (position : PositionContext) (stored : PositionRow)

/-- The live position, if the runtime tracks one, the row, the polls and the persists. -/
structure TpPathsRun where
  live : Option PositionContext
  row : PositionRow
  polls : List RestPhase := []
  persists : List TpPersist := []
  /-- the levels that either engine has booked, in the order of the history entries -/
  booked : List ℕ := []

/-- What happens next. -/
inductive TpPathsEvent where
  /-- an event of the user stream that reaches the take-profit handler -/
  | wsFill (answers : Answers) (event : OrderEvent)
  | pollRead (liveSize : ℚ) (openOrders : Option (List String))
  | pollDrive (i : ℕ) (live : PositionReply) (now : ℚ) (nowMs : ℕ)
  | pollPersist (i : ℕ)
  /-- a stop shift has succeeded and calls back -/
  | shifted (holder : Holder) (reason triggerSource : String) (result : ConditionalOrderResult)
  | load (i : ℕ)
  | merge (i : ℕ)
  | commit (i : ℕ)
  | tracked
  /-- a new process has nothing but the row -/
  | restarted

namespace TpPathsRun

def context? (s : TpPathsRun) : Holder → Option PositionContext
  | .live => s.live
  | .rest i => s.polls[i]?.bind RestPhase.context?

/-- The levels of the history entries that have come to a context. -/
def entriesSince (before after : PositionContext) : List ℕ :=
  (after.tpHistory.drop before.tpHistory.length).map TPHistoryEntry.tpLevel

/-- The multi-TP branch of `_handle_tp_triggered_event`, with the persist at its end. -/
def handleFill (s : TpPathsRun) (position : PositionContext) (answers : Answers)
    (event : OrderEvent) : TpPathsRun :=
  let live := (position.handleMultiTpEvent answers event none).settled answers
  { s with
    live := some live
    persists :=
      if position.eventMatchesTriggeredLevel event || (position.matchTpLevel event).isNone then
        s.persists
      else s.persists ++ [.owed .live]
    booked := s.booked ++ entriesSince position live }

/-- The success callback of a stop shift. -/
def applyShift (s : TpPathsRun) (holder : Holder) (reason triggerSource : String)
    (result : ConditionalOrderResult) : TpPathsRun :=
  let write := PositionContext.applySlAdjustment reason triggerSource result
  match holder with
  | .live => { s with live := s.live.map write, persists := s.persists ++ [.owed .live] }
  | .rest i =>
      { s with
        polls := s.polls.modify i (RestPhase.mapContext write)
        persists := s.persists ++ [.owed (.rest i)] }

/-- One step.  An event for a position that is not tracked is dropped. -/
def step (s : TpPathsRun) : TpPathsEvent → Option TpPathsRun
  | .wsFill answers event =>
      match s.live with
      | some position => some (s.handleFill position answers event)
      | none => some s
  | .pollRead liveSize openOrders =>
      some
        { s with
          polls := s.polls ++ (RestPass.decide s.row liveSize openOrders).toList.map .decided }
  | .pollDrive i live now nowMs =>
      match s.polls[i]? with
      | some (.decided pass) =>
          let context := pass.drive live now nowMs
          some
            { s with
              polls := s.polls.set i (.driven pass context)
              booked := s.booked ++ entriesSince pass.context context }
      | _ => none
  | .pollPersist i =>
      match s.polls[i]? with
      | some (.driven pass context) =>
          some
            { s with
              row := s.row.mergeRestContext context
              polls := s.polls.set i (.done pass context) }
      | _ => none
  | .shifted holder reason triggerSource result =>
      if (s.context? holder).isSome then
        some (s.applyShift holder reason triggerSource result)
      else none
  | .load i =>
      match s.persists[i]? with
      | some (.owed holder) => some { s with persists := s.persists.set i (.loaded holder s.row) }
      | _ => none
  | .merge i =>
      match s.persists[i]? with
      | some (.loaded holder row) =>
          (s.context? holder).map fun context =>
            { s with persists := s.persists.set i (.merged row context s.row) }
      | _ => none
  | .commit i =>
      match s.persists[i]? with
      | some (.merged loaded position _) =>
          some
            { s with
              row := loaded.commit (loaded.mergePosition position) s.row
              persists := s.persists.eraseIdx i }
      | _ => none
  | .tracked =>
      some { s with live := some (trackPosition s.live (fromDbRow s.row.toRow) false) }
  | .restarted => some { s with live := none, polls := [], persists := [] }

/-! ## What is asked of a reconciled level -/

def triggered (levels : List TPLevel) : Finset ℕ :=
  (Finset.range levels.length).filter fun i => levels[i]?.any fun level => level.status = .triggered

/-- No fill is booked twice, by whichever path. -/
def BookedOnce (s : TpPathsRun) : Prop := s.booked.Nodup

/-- Nothing is under way: no persist, and no poll that has been driven and not merged. -/
def Settled (s : TpPathsRun) : Prop :=
  s.persists = [] ∧ ∀ poll ∈ s.polls, ¬ poll.Driven

instance (s : TpPathsRun) : Decidable s.Settled := inferInstanceAs (Decidable (_ ∧ _))

/-- The live position, if there is one, and the row have the same levels triggered. -/
def SameTriggered (s : TpPathsRun) : Prop :=
  ∀ position ∈ s.live, triggered position.tpLevels = triggered s.row.tpLevels

/-- **The two paths agree**: in every state reached each fill is booked at most once, live position
and row agree whenever nothing is under way, and no state behind another has lost a triggered level
in its row. -/
structure PathsAgree (s : TpPathsRun) (events : List TpPathsEvent) : Prop where
  bookedOnce : ∀ bs u, bs <+: events → run step s bs = some u → u.BookedOnce
  sameTriggered : ∀ bs u, bs <+: events → run step s bs = some u → u.Settled → u.SameTriggered
  keptTriggered : ∀ bs cs u v, bs ++ cs <+: events → run step s bs = some u →
    run step u cs = some v → triggered u.row.tpLevels ⊆ triggered v.row.tpLevels

/-! ## Triggered levels -/

theorem mem_triggered {levels : List TPLevel} {i : ℕ} :
    i ∈ triggered levels ↔ ∃ level, levels[i]? = some level ∧ level.status = .triggered := by
  unfold triggered
  rw [Finset.mem_filter, Finset.mem_range]
  constructor
  · rintro ⟨hlt, hany⟩
    rw [List.getElem?_eq_getElem hlt] at hany ⊢
    exact ⟨_, rfl, of_decide_eq_true hany⟩
  · rintro ⟨level, hlevel, hstatus⟩
    obtain ⟨hlt, -⟩ := List.getElem?_eq_some_iff.mp hlevel
    refine ⟨hlt, ?_⟩
    rw [hlevel]
    exact decide_eq_true hstatus

theorem mem_triggered_modify {levels : List TPLevel} {i : ℕ} {level : TPLevel}
    (h : levels[i]? = some level) (j : ℕ) :
    j ∈ triggered (levels.modify i fun level => { level with status := .triggered }) ↔
      j ∈ triggered levels ∨ j = i := by
  rw [mem_triggered, mem_triggered]
  by_cases hij : i = j
  · subst hij
    simp [h]
  · simp [hij, Ne.symm hij]

theorem triggered_cancel (orderIds : List String) (levels : List TPLevel) :
    triggered (levels.map (cancelLevel orderIds)) = triggered levels := by
  ext j
  rw [mem_triggered, mem_triggered, List.getElem?_map]
  cases levels[j]? with
  | none => simp
  | some level =>
    have hstatus : (cancelLevel orderIds level).status = .triggered ↔
        level.status = .triggered := by
      unfold cancelLevel
      cases level.exchangeOrderId with
      | none => exact Iff.rfl
      | some id =>
        dsimp only
        split
        case isTrue h => exact iff_of_false (by simp) h.2
        case isFalse => exact Iff.rfl
    simp [hstatus]

theorem mem_triggered_iff (position : PositionContext) (i : ℕ) :
    i ∈ triggered position.tpLevels ↔ position.Triggered i := by
  rw [mem_triggered]
  exact Option.map_eq_some_iff.symm

/-! ## What a fill does to the live position -/

theorem closeOrContinue_tpHistory (position : PositionContext) :
    (MultiTp.closeOrContinue position).tpHistory = position.tpHistory := by
  obtain ⟨machine, hmachine⟩ := PositionContext.closeOrContinue_eq position
  rw [hmachine]

/-- What booking does to a context: some levels come to be triggered that had not been, each with an
entry. -/
structure Advance (p q : PositionContext) : Prop where
  entries : ∃ entries, q.tpHistory = p.tpHistory ++ entries ∧
    (entries.map TPHistoryEntry.tpLevel).Nodup ∧
    (∀ i ∈ entries.map TPHistoryEntry.tpLevel, i ∉ triggered p.tpLevels) ∧
    ∀ i, i ∈ triggered q.tpLevels ↔
      i ∈ triggered p.tpLevels ∨ i ∈ entries.map TPHistoryEntry.tpLevel

namespace Advance

variable {p q r : PositionContext}

theorem of_same (hlevels : triggered q.tpLevels = triggered p.tpLevels)
    (hhistory : q.tpHistory = p.tpHistory) : Advance p q :=
  ⟨[], by rw [hhistory, List.append_nil], List.nodup_nil, fun _ hi => absurd hi List.not_mem_nil,
    fun i => by simp [hlevels]⟩

theorem refl (p : PositionContext) : Advance p p := of_same rfl rfl

theorem trans (h : Advance p q) (h' : Advance q r) : Advance p r := by
  obtain ⟨entries, hq, hnodup, hnew, hiff⟩ := h.entries
  obtain ⟨entries', hr, hnodup', hnew', hiff'⟩ := h'.entries
  refine ⟨entries ++ entries', ?_, ?_, ?_, fun i => ?_⟩
  · rw [hr, hq, List.append_assoc]
  · rw [List.map_append]
    refine List.Nodup.append hnodup hnodup' fun i hi hi' => ?_
    exact hnew' i hi' ((hiff i).mpr (Or.inr hi))
  · intro i hi
    rw [List.map_append, List.mem_append] at hi
    rcases hi with hi | hi
    · exact hnew i hi
    · exact fun hp => hnew' i hi ((hiff i).mpr (Or.inl hp))
  · rw [hiff' i, hiff i, List.map_append, List.mem_append, or_assoc]

theorem entriesSince_eq (h : Advance p q) :
    (entriesSince p q).Nodup ∧ (∀ i ∈ entriesSince p q, i ∉ triggered p.tpLevels) ∧
      ∀ i, i ∈ triggered q.tpLevels ↔ i ∈ triggered p.tpLevels ∨ i ∈ entriesSince p q := by
  obtain ⟨entries, hq, hnodup, hnew, hiff⟩ := h.entries
  have heq : entriesSince p q = entries.map TPHistoryEntry.tpLevel := by
    unfold entriesSince
    rw [hq, List.drop_left]
  rw [heq]
  exact ⟨hnodup, hnew, hiff⟩

theorem nodup_entriesSince (h : Advance p q) : (entriesSince p q).Nodup := h.entriesSince_eq.1

theorem mem_iff (h : Advance p q) (i : ℕ) :
    i ∈ triggered q.tpLevels ↔ i ∈ triggered p.tpLevels ∨ i ∈ entriesSince p q :=
  h.entriesSince_eq.2.2 i

theorem triggered_le (h : Advance p q) : triggered p.tpLevels ⊆ triggered q.tpLevels :=
  fun i hi => (h.mem_iff i).mpr (Or.inl hi)

theorem mem_entriesSince (h : Advance p q) {i : ℕ} (hi : i ∈ entriesSince p q) :
    i ∉ triggered p.tpLevels ∧ i ∈ triggered q.tpLevels :=
  ⟨h.entriesSince_eq.2.1 i hi, (h.mem_iff i).mpr (Or.inr hi)⟩

end Advance

theorem advance_handleTpTriggered (position : PositionContext) (i : ℕ) (triggerSource : String)
    (live : PositionReply) (now : ℚ) (nowMs : ℕ) :
    Advance position
      (MultiTp.handleTpTriggered position i triggerSource live now nowMs).1 := by
  unfold MultiTp.handleTpTriggered
  cases hlevel : position.tpLevels[i]? with
  | none => exact Advance.refl position
  | some level =>
    by_cases hdone : MultiTp.alreadyTriggered position i level = true
    · simp only [hdone]
      exact Advance.refl position
    · simp only [hdone]
      have hkeeps := keepsLevels_closeOrContinue (MultiTp.bookFill position i level)
      have hlevels : (MultiTp.closeOrContinue (MultiTp.bookFill position i level)).tpLevels =
          position.tpLevels.modify i fun level => { level with status := .triggered } :=
        hkeeps.levels
      have hentry : [MultiTp.fillEntry i level].map TPHistoryEntry.tpLevel = [i] := rfl
      refine ⟨[MultiTp.fillEntry i level], closeOrContinue_tpHistory _, ?_, ?_, fun j => ?_⟩
      · exact List.nodup_singleton i
      · intro j hj hmem
        obtain rfl := List.mem_singleton.mp hj
        obtain ⟨other, hother, hstatus⟩ := mem_triggered.mp hmem
        obtain rfl := Option.some.inj (hlevel.symm.trans hother)
        exact hdone (by simp [MultiTp.alreadyTriggered, hstatus])
      · change j ∈ triggered (MultiTp.closeOrContinue _).tpLevels ↔ _
        rw [hlevels, hentry, mem_triggered_modify hlevel, List.mem_singleton]

theorem Advance.settled {p : PositionContext} {handled : Handled} (h : Advance p handled.position)
    (answers : Answers) : Advance p (handled.settled answers) := by
  unfold Handled.settled
  split
  · exact h.trans (Advance.of_same (triggered_cancel _ _) rfl)
  · exact h

theorem advance_drive (pass : RestPass) (live : PositionReply) (now : ℚ) (nowMs : ℕ) :
    Advance pass.context (pass.drive live now nowMs) := by
  have hfold : ∀ (accepted : List (ℕ × TPLevel)) (context : PositionContext),
      Advance context (accepted.foldl (fun context rung =>
        (MultiTp.handleTpTriggered context rung.1 "rest_reconcile_inferred" live now nowMs).1)
          context) := by
    intro accepted
    induction accepted with
    | nil => exact Advance.refl
    | cons level accepted ih =>
      intro context
      exact (advance_handleTpTriggered context level.1 _ live now nowMs).trans (ih _)
  have hfed : Advance pass.context { pass.context with currentQuantity := pass.quantityBefore } :=
    Advance.of_same rfl rfl
  exact (hfed.trans (hfold pass.accepted _)).trans (Advance.of_same rfl rfl)

theorem advance_handleFill (s : TpPathsRun) (position : PositionContext) (answers : Answers)
    (event : OrderEvent) :
    (∃ next, Advance position next ∧ s.handleFill position answers event =
        { s with
          live := some next
          persists := s.persists ++ [.owed .live]
          booked := s.booked ++ entriesSince position next }) ∨
      s.handleFill position answers event = { s with live := some position } := by
  have hsame : entriesSince position position = [] := by
    unfold entriesSince
    rw [List.drop_length, List.map_nil]
  unfold handleFill PositionContext.handleMultiTpEvent
  by_cases hduplicate : position.eventMatchesTriggeredLevel event = true
  · right
    simp only [hduplicate, Bool.true_or]
    change { s with
      live := some position, booked := s.booked ++ entriesSince position position } = _
    rw [hsame, List.append_nil]
  · simp only [hduplicate]
    cases hmatched : position.matchTpLevel event with
    | none =>
      right
      change { s with
        live := some position, booked := s.booked ++ entriesSince position position } = _
      rw [hsame, List.append_nil]
    | some i =>
      left
      exact ⟨_, (advance_handleTpTriggered ..).settled answers, rfl⟩

/-! ## Paths that take turns -/

/-- A row, and the position that is tracked of it, if any, with the same levels triggered. -/
structure TrackedLadder where
  live : Option PositionContext
  row : PositionRow
  same : ∀ position ∈ live, triggered position.tpLevels = triggered row.tpLevels

def start (ladder : TrackedLadder) : TpPathsRun where
  live := ladder.live
  row := ladder.row

/-- Nobody has written other levels into the row since the poll has read it: they are the ones that
it has read, as long as it has not merged, or the ones that it has made of them. -/
def RestInTurn (s : TpPathsRun) (i : ℕ) : Prop :=
  match s.polls[i]? with
  | some (.driven pass context) =>
      s.row.tpLevels = pass.context.tpLevels ∨ s.row.tpLevels = context.tpLevels
  | some (.done _ context) => s.row.tpLevels = context.tpLevels
  | _ => True

/-- The condition on a step, on when it comes. -/
def InTurn (s : TpPathsRun) : TpPathsEvent → Prop
  -- no position is tracked, no other poll is between its drive and its merge, and the levels of
  -- the row are still the ones that the poll has read
  | .pollDrive i _ _ _ =>
      match s.polls[i]? with
      | some (.decided pass) =>
          s.live = none ∧ (∀ poll ∈ s.polls, ¬ poll.Driven) ∧
            s.row.tpLevels = pass.context.tpLevels
      | _ => True
  -- the row is still open, and nobody else has written levels
  | .pollPersist i => s.row.status = .open ∧ s.row.state ≠ .closed ∧ s.RestInTurn i
  | .merge j =>
      match s.persists[j]? with
      | some (.loaded (.rest i) _) => s.RestInTurn i
      | _ => True
  -- the levels of the row are still the ones that it had when the context was merged
  | .commit j =>
      match s.persists[j]? with
      | some (.merged _ _ stored) => s.row.tpLevels = stored.tpLevels
      | _ => True
  | .tracked => s.live = none → s.Settled
  | .restarted => s.Settled
  | _ => True

instance (s : TpPathsRun) (i : ℕ) : Decidable (s.RestInTurn i) := by
  unfold RestInTurn
  split <;> infer_instance

instance (s : TpPathsRun) (e : TpPathsEvent) : Decidable (s.InTurn e) := by
  unfold InTurn
  repeat' split
  all_goals infer_instance

/-- What a persist has in hand is behind the row, and ahead of what was stored at the merge. -/
def InHand (s : TpPathsRun) : TpPersist → Prop
  | .owed _ => True
  | .loaded _ loaded => triggered loaded.tpLevels ⊆ triggered s.row.tpLevels
  | .merged loaded position stored =>
      triggered loaded.tpLevels ⊆ triggered s.row.tpLevels ∧
        triggered stored.tpLevels ⊆ triggered position.tpLevels ∧
        ∀ live ∈ s.live, triggered position.tpLevels ⊆ triggered live.tpLevels

/-- The persist will write the levels of the live position. -/
def CatchesUp (s : TpPathsRun) : TpPersist → Prop
  | .owed holder => holder = .live
  | .loaded holder _ => holder = .live
  | .merged loaded position _ =>
      (∀ live ∈ s.live, triggered position.tpLevels = triggered live.tpLevels) ∧
        position.tpLevels ≠ loaded.tpLevels

/-- A level is known where the next booking looks: in the live position, or else in the row or in
the context of a poll that is about to be merged. -/
def Known (s : TpPathsRun) (i : ℕ) : Prop :=
  match s.live with
  | some live => i ∈ triggered live.tpLevels
  | none =>
      i ∈ triggered s.row.tpLevels ∨
        ∃ pass context, .driven pass context ∈ s.polls ∧ i ∈ triggered context.tpLevels

/-- The invariant of a run in which the paths take turns. -/
structure TakesTurns (s : TpPathsRun) : Prop where
  bookedOnce : s.BookedOnce
  known : ∀ i ∈ s.booked, s.Known i
  row_le : ∀ live ∈ s.live, triggered s.row.tpLevels ⊆ triggered live.tpLevels
  /-- what a poll has driven is ahead of what it has read; and it waits for its merge only while no
  position is tracked -/
  driven : ∀ pass context, .driven pass context ∈ s.polls →
    s.live = none ∧ triggered pass.context.tpLevels ⊆ triggered context.tpLevels
  inHand : ∀ persist ∈ s.persists, s.InHand persist
  catchesUp : s.SameTriggered ∨ ∃ persist ∈ s.persists, s.CatchesUp persist

theorem takesTurns_start (ladder : TrackedLadder) : TakesTurns (start ladder) where
  bookedOnce := List.nodup_nil
  known _ hi := absurd hi List.not_mem_nil
  row_le live hlive := (ladder.same live hlive).symm.subset
  driven _ _ hpoll := absurd hpoll List.not_mem_nil
  inHand _ hpersist := absurd hpersist List.not_mem_nil
  catchesUp := Or.inl ladder.same

section Steps

variable {s s' : TpPathsRun}

theorem TakesTurns.sameTriggered (h : TakesTurns s) (hsettled : s.Settled) : s.SameTriggered := by
  rcases h.catchesUp with hsame | ⟨persist, hpersist, -⟩
  · exact hsame
  · rw [hsettled.1] at hpersist
    cases hpersist

variable {i j : ℕ}

theorem TakesTurns.booked_row (h : TakesTurns s) (hlive : s.live = none)
    (hdriven : ∀ poll ∈ s.polls, ¬ poll.Driven) (hi : i ∈ s.booked) :
    i ∈ triggered s.row.tpLevels := by
  have hknown := h.known i hi
  unfold Known at hknown
  rw [hlive] at hknown
  rcases hknown with hrow | ⟨pass, context, hpoll, -⟩
  · exact hrow
  · exact absurd trivial (hdriven _ hpoll)

theorem TakesTurns.booked_live (h : TakesTurns s) {live : PositionContext}
    (hlive : s.live = some live) (hi : i ∈ s.booked) : i ∈ triggered live.tpLevels := by
  have hknown := h.known i hi
  unfold Known at hknown
  rwa [hlive] at hknown

theorem TakesTurns.advance (h : TakesTurns s) {live next : PositionContext}
    (hlive : s.live = some live) (hadvance : Advance live next) :
    TakesTurns { s with
      live := some next
      persists := s.persists ++ [.owed .live]
      booked := s.booked ++ entriesSince live next } where
  bookedOnce := by
    refine List.Nodup.append h.bookedOnce hadvance.nodup_entriesSince fun i hi hnew => ?_
    exact (hadvance.mem_entriesSince hnew).1 (h.booked_live hlive hi)
  known := by
    intro i hi
    rcases List.mem_append.mp hi with hold | hnew
    · exact hadvance.triggered_le (h.booked_live hlive hold)
    · exact (hadvance.mem_entriesSince hnew).2
  row_le := by
    rintro _ ⟨⟩
    exact (h.row_le live hlive).trans hadvance.triggered_le
  driven pass context hpoll := absurd ((h.driven pass context hpoll).1.symm.trans hlive) (by simp)
  inHand := by
    intro persist hpersist
    rcases List.mem_append.mp hpersist with hold | hnew
    · have hhand := h.inHand persist hold
      cases persist with
      | owed holder => trivial
      | loaded holder loaded => exact hhand
      | merged loaded position stored =>
        refine ⟨hhand.1, hhand.2.1, ?_⟩
        rintro _ ⟨⟩
        exact (hhand.2.2 live hlive).trans hadvance.triggered_le
    · obtain rfl := List.mem_singleton.mp hnew
      trivial
  catchesUp := Or.inr ⟨.owed .live, List.mem_append_right _ (List.mem_singleton_self _), rfl⟩

theorem TakesTurns.of_live (h : TakesTurns s) {live next : PositionContext}
    (hlive : s.live = some live) (hsame : triggered next.tpLevels = triggered live.tpLevels) :
    TakesTurns { s with live := some next } where
  bookedOnce := h.bookedOnce
  known i hi := by
    change i ∈ triggered next.tpLevels
    rw [hsame]
    exact h.booked_live hlive hi
  row_le := by
    rintro _ ⟨⟩
    rw [hsame]
    exact h.row_le live hlive
  driven pass context hpoll := absurd ((h.driven pass context hpoll).1.symm.trans hlive) (by simp)
  inHand := by
    intro persist hpersist
    have hhand := h.inHand persist hpersist
    cases persist with
    | owed holder => trivial
    | loaded holder loaded => exact hhand
    | merged loaded position stored =>
      refine ⟨hhand.1, hhand.2.1, ?_⟩
      rintro _ ⟨⟩
      rw [hsame]
      exact hhand.2.2 live hlive
  catchesUp := by
    refine h.catchesUp.imp (fun hrow => ?_) fun ⟨persist, hpersist, hcatches⟩ =>
      ⟨persist, hpersist, ?_⟩
    · rintro _ ⟨⟩
      rw [hsame]
      exact hrow live hlive
    · cases persist with
      | owed holder => exact hcatches
      | loaded holder loaded => exact hcatches
      | merged loaded position stored =>
        refine ⟨?_, hcatches.2⟩
        rintro _ ⟨⟩
        rw [hsame]
        exact hcatches.1 live hlive

theorem TakesTurns.of_polls (h : TakesTurns s) {polls : List RestPhase}
    (hback : ∀ pass context, .driven pass context ∈ polls →
      ∃ old, .driven pass old ∈ s.polls ∧ old.tpLevels = context.tpLevels)
    (hkept : ∀ pass old, .driven pass old ∈ s.polls →
      ∃ context, .driven pass context ∈ polls ∧ context.tpLevels = old.tpLevels) :
    TakesTurns { s with polls := polls } where
  bookedOnce := h.bookedOnce
  known i hi := by
    have hknown := h.known i hi
    unfold Known at hknown ⊢
    cases hlive : s.live with
    | some live =>
      rw [hlive] at hknown
      exact hknown
    | none =>
      rw [hlive] at hknown
      refine hknown.imp_right fun ⟨pass, old, hpoll, htriggered⟩ => ?_
      obtain ⟨context, hcontext, hlevels⟩ := hkept pass old hpoll
      exact ⟨pass, context, hcontext, hlevels ▸ htriggered⟩
  row_le := h.row_le
  driven pass context hpoll := by
    obtain ⟨old, hold, hlevels⟩ := hback pass context hpoll
    exact hlevels ▸ h.driven pass old hold
  inHand := h.inHand
  catchesUp := h.catchesUp

theorem TakesTurns.owe (h : TakesTurns s) (holder : Holder) :
    TakesTurns { s with persists := s.persists ++ [.owed holder] } where
  bookedOnce := h.bookedOnce
  known := h.known
  row_le := h.row_le
  driven := h.driven
  inHand := by
    intro persist hpersist
    rcases List.mem_append.mp hpersist with hold | hnew
    · exact h.inHand persist hold
    · obtain rfl := List.mem_singleton.mp hnew
      trivial
  catchesUp := h.catchesUp.imp_right fun ⟨persist, hpersist, hcatches⟩ =>
    ⟨persist, List.mem_append_left _ hpersist, hcatches⟩

theorem TakesTurns.inHand_grown (h : TakesTurns s) {row : PositionRow}
    (hgrows : triggered s.row.tpLevels ⊆ triggered row.tpLevels) {persist : TpPersist}
    (hpersist : persist ∈ s.persists) : InHand { s with row := row } persist := by
  have hhand := h.inHand persist hpersist
  cases persist with
  | owed holder => trivial
  | loaded holder loaded => exact hhand.trans hgrows
  | merged loaded position stored => exact ⟨hhand.1.trans hgrows, hhand.2⟩

theorem takesTurns_wsFill (h : TakesTurns s) {answers : Answers} {event : OrderEvent}
    (hs : s.step (.wsFill answers event) = some s') : TakesTurns s' := by
  unfold step at hs
  cases hlive : s.live with
  | none =>
    simp only [hlive, Option.some.injEq] at hs
    exact hs ▸ h
  | some live =>
    simp only [hlive, Option.some.injEq] at hs
    rcases advance_handleFill s live answers event with ⟨next, hadvance, hfill⟩ | hfill
    · rw [← hs, hfill]
      exact h.advance hlive hadvance
    · rw [← hs, hfill]
      exact h.of_live hlive rfl

theorem takesTurns_pollRead (h : TakesTurns s) {liveSize : ℚ} {openOrders : Option (List String)}
    (hs : s.step (.pollRead liveSize openOrders) = some s') : TakesTurns s' := by
  obtain rfl := Option.some.inj hs
  refine h.of_polls (fun pass context hpoll => ⟨context, ?_, rfl⟩)
    fun pass old hold => ⟨old, List.mem_append_left _ hold, rfl⟩
  rcases List.mem_append.mp hpoll with hold | hnew
  · exact hold
  · obtain ⟨decided, -, hdecided⟩ := List.mem_map.mp hnew
    cases hdecided

theorem step_pollDrive {live : PositionReply} {now : ℚ} {nowMs : ℕ}
    (hs : s.step (.pollDrive i live now nowMs) = some s') :
    ∃ pass, s.polls[i]? = some (.decided pass) ∧
      s' = { s with
        polls := s.polls.set i (.driven pass (pass.drive live now nowMs))
        booked := s.booked ++ entriesSince pass.context (pass.drive live now nowMs) } := by
  simp only [step] at hs
  split at hs
  case h_1 pass hpoll => exact ⟨pass, hpoll, (Option.some.inj hs).symm⟩
  case h_2 => exact absurd hs (by simp)

theorem takesTurns_pollDrive (h : TakesTurns s) {live : PositionReply} {now : ℚ} {nowMs : ℕ}
    (hturn : s.InTurn (.pollDrive i live now nowMs))
    (hs : s.step (.pollDrive i live now nowMs) = some s') : TakesTurns s' := by
  obtain ⟨pass, hpoll, rfl⟩ := step_pollDrive hs
  simp only [InTurn, hpoll] at hturn
  obtain ⟨hlive, hdriven, hlevels⟩ := hturn
  have hadvance := advance_drive pass live now nowMs
  have hnew : RestPhase.driven pass (pass.drive live now nowMs) ∈
      s.polls.set i (.driven pass (pass.drive live now nowMs)) := List.mem_set_of_getElem? hpoll
  constructor
  · refine List.Nodup.append h.bookedOnce hadvance.nodup_entriesSince fun j hj hentry => ?_
    have hbooked := h.booked_row hlive hdriven hj
    rw [hlevels] at hbooked
    exact (hadvance.mem_entriesSince hentry).1 hbooked
  · intro j hj
    rw [hlive]
    rcases List.mem_append.mp hj with hold | hentry
    · exact Or.inl (h.booked_row hlive hdriven hold)
    · exact Or.inr ⟨pass, _, hnew, (hadvance.mem_entriesSince hentry).2⟩
  · exact h.row_le
  · intro other context hother
    rcases List.mem_or_eq_of_mem_set hother with hold | heq
    · exact h.driven other context hold
    · obtain ⟨rfl, rfl⟩ := RestPhase.driven.inj heq
      exact ⟨hlive, hadvance.triggered_le⟩
  · exact h.inHand
  · exact h.catchesUp

theorem tpLevels_mergeRestContext {row : PositionRow} (context : PositionContext)
    (hstatus : row.status = .open) (hstate : row.state ≠ .closed) :
    (row.mergeRestContext context).tpLevels = context.tpLevels := by
  unfold PositionRow.mergeRestContext
  rw [if_neg (by simp [hstatus, hstate])]
  change (if context.tpLevels = row.tpLevels then row.tpLevels else context.tpLevels) = _
  split
  case isTrue hsame => exact hsame.symm
  case isFalse => rfl

theorem step_pollPersist (hs : s.step (.pollPersist i) = some s') :
    ∃ pass context, s.polls[i]? = some (.driven pass context) ∧
      s' = { s with
        row := s.row.mergeRestContext context
        polls := s.polls.set i (.done pass context) } := by
  simp only [step] at hs
  split at hs
  case h_1 pass context hpoll => exact ⟨pass, context, hpoll, (Option.some.inj hs).symm⟩
  case h_2 => exact absurd hs (by simp)

theorem row_le_pollPersist (h : TakesTurns s) (hturn : s.InTurn (.pollPersist i)) {pass : RestPass}
    {context : PositionContext} (hpoll : s.polls[i]? = some (.driven pass context)) :
    triggered s.row.tpLevels ⊆ triggered context.tpLevels := by
  have hlevels := hturn.2.2
  simp only [RestInTurn, hpoll] at hlevels
  rcases hlevels with hread | hmade
  · rw [hread]
    exact (h.driven pass context (List.mem_of_getElem? hpoll)).2
  · rw [hmade]

theorem takesTurns_pollPersist (h : TakesTurns s) (hturn : s.InTurn (.pollPersist i))
    (hs : s.step (.pollPersist i) = some s') : TakesTurns s' := by
  obtain ⟨pass, context, hpoll, rfl⟩ := step_pollPersist hs
  have hlive := (h.driven pass context (List.mem_of_getElem? hpoll)).1
  have hrow := tpLevels_mergeRestContext context hturn.1 hturn.2.1
  have hgrows : triggered s.row.tpLevels ⊆
      triggered (s.row.mergeRestContext context).tpLevels := by
    rw [hrow]
    exact row_le_pollPersist h hturn hpoll
  constructor
  · exact h.bookedOnce
  · intro j hj
    have hknown := h.known j hj
    unfold Known at hknown ⊢
    rw [hlive] at hknown ⊢
    rcases hknown with hold | ⟨other, driven, hother, htriggered⟩
    · exact Or.inl (hgrows hold)
    · rcases List.eq_or_mem_set (a := .done pass context) hpoll hother with heq | hkept
      · obtain ⟨rfl, rfl⟩ := RestPhase.driven.inj heq
        left
        rwa [hrow]
      · exact Or.inr ⟨other, driven, hkept, htriggered⟩
  · intro live hsome
    exact absurd (hlive.symm.trans hsome) (by simp)
  · intro other driven hother
    rcases List.mem_or_eq_of_mem_set hother with hold | heq
    · exact h.driven other driven hold
    · cases heq
  · intro persist hpersist
    exact h.inHand_grown hgrows hpersist
  · left
    intro live hsome
    exact absurd (hlive.symm.trans hsome) (by simp)

theorem applySlAdjustment_fields (reason triggerSource : String) (result : ConditionalOrderResult)
    (position : PositionContext) :
    (position.applySlAdjustment reason triggerSource result).tpLevels = position.tpLevels ∧
      (position.applySlAdjustment reason triggerSource result).tpHistory =
        position.tpHistory := by
  unfold PositionContext.applySlAdjustment PositionContext.syncState
  dsimp only
  obtain ⟨machine, hmachine⟩ := PositionContext.transition_eq
    { position with
      currentSlPrice :=
        if 0 < result.triggerPrice then result.triggerPrice else position.currentSlPrice
      slExchangeOrderId := some result.exchangeOrderId
      slHistory := position.slHistory ++
        [{ oldPrice := position.currentSlPrice
           newPrice :=
            if 0 < result.triggerPrice then result.triggerPrice else position.currentSlPrice
           reason := reason
           triggerSource := triggerSource
           exchangeOrderId := result.exchangeOrderId }] } .adjustmentComplete
  rw [hmachine]
  exact ⟨rfl, rfl⟩

theorem driven_of_modify {write : PositionContext → PositionContext}
    (hlevels : ∀ position, (write position).tpLevels = position.tpLevels) {polls : List RestPhase}
    {pass : RestPass} {context : PositionContext}
    (h : .driven pass context ∈ polls.modify i (RestPhase.mapContext write)) :
    ∃ old, .driven pass old ∈ polls ∧ old.tpLevels = context.tpLevels := by
  obtain ⟨old, hold, rfl | hmapped⟩ := List.mem_modify h
  · exact ⟨context, hold, rfl⟩
  · cases old with
    | driven other old =>
      obtain ⟨rfl, rfl⟩ := RestPhase.driven.inj hmapped
      exact ⟨old, hold, (hlevels old).symm⟩
    | decided other => exact absurd hmapped (by simp [RestPhase.mapContext])
    | done other old => exact absurd hmapped (by simp [RestPhase.mapContext])

theorem driven_modify {write : PositionContext → PositionContext}
    (hlevels : ∀ position, (write position).tpLevels = position.tpLevels) {polls : List RestPhase}
    {pass : RestPass} {old : PositionContext} (h : .driven pass old ∈ polls) :
    ∃ context, .driven pass context ∈ polls.modify i (RestPhase.mapContext write) ∧
      context.tpLevels = old.tpLevels := by
  obtain ⟨j, hj⟩ := List.mem_iff_getElem?.mp h
  have hmodified : (polls.modify i (RestPhase.mapContext write))[j]? =
      some (if i = j then .driven pass (write old) else .driven pass old) := by
    rw [List.getElem?_modify, hj]
    rfl
  by_cases hij : i = j
  · rw [if_pos hij] at hmodified
    exact ⟨_, List.mem_of_getElem? hmodified, hlevels old⟩
  · rw [if_neg hij] at hmodified
    exact ⟨old, List.mem_of_getElem? hmodified, rfl⟩

theorem takesTurns_shifted (h : TakesTurns s) {holder : Holder} {reason triggerSource : String}
    {result : ConditionalOrderResult}
    (hs : s.step (.shifted holder reason triggerSource result) = some s') : TakesTurns s' := by
  simp only [step, Option.ite_none_right_eq_some, Option.some.injEq] at hs
  obtain ⟨hcontext, rfl⟩ := hs
  have hlevels := fun position =>
    (applySlAdjustment_fields reason triggerSource result position).1
  cases holder with
  | live =>
    obtain ⟨live, hlive⟩ := Option.isSome_iff_exists.mp hcontext
    have hnext := (h.of_live hlive (congrArg triggered (hlevels live))).owe .live
    unfold applyShift
    rw [show s.live = some live from hlive]
    exact hnext
  | rest i =>
    have hpolls : TakesTurns { s with
        polls := s.polls.modify i (RestPhase.mapContext
          (PositionContext.applySlAdjustment reason triggerSource result)) } :=
      h.of_polls (fun pass context hpoll => driven_of_modify hlevels hpoll)
        fun pass old hold => driven_modify hlevels hold
    exact hpolls.owe (.rest i)

theorem step_load (hs : s.step (.load j) = some s') :
    ∃ holder, s.persists[j]? = some (.owed holder) ∧
      s' = { s with persists := s.persists.set j (.loaded holder s.row) } := by
  simp only [step] at hs
  split at hs
  case h_1 holder hpersist => exact ⟨holder, hpersist, (Option.some.inj hs).symm⟩
  case h_2 => exact absurd hs (by simp)

theorem step_merge (hs : s.step (.merge j) = some s') :
    ∃ holder row context, s.persists[j]? = some (.loaded holder row) ∧
      s.context? holder = some context ∧
      s' = { s with persists := s.persists.set j (.merged row context s.row) } := by
  simp only [step] at hs
  split at hs
  case h_1 holder row hpersist =>
    obtain ⟨context, hcontext, rfl⟩ := Option.map_eq_some_iff.mp hs
    exact ⟨holder, row, context, hpersist, hcontext, rfl⟩
  case h_2 => exact absurd hs (by simp)

theorem step_commit (hs : s.step (.commit j) = some s') :
    ∃ loaded position stored, s.persists[j]? = some (.merged loaded position stored) ∧
      s' = { s with
        row := loaded.commit (loaded.mergePosition position) s.row
        persists := s.persists.eraseIdx j } := by
  simp only [step] at hs
  split at hs
  case h_1 loaded position stored hpersist =>
    exact ⟨loaded, position, stored, hpersist, (Option.some.inj hs).symm⟩
  case h_2 => exact absurd hs (by simp)

theorem takesTurns_load (h : TakesTurns s) (hs : s.step (.load j) = some s') : TakesTurns s' := by
  obtain ⟨holder, hpersist, rfl⟩ := step_load hs
  refine ⟨h.bookedOnce, h.known, h.row_le, h.driven, ?_, ?_⟩
  · intro persist hmem
    rcases List.mem_or_eq_of_mem_set hmem with hold | rfl
    · exact h.inHand persist hold
    · exact Finset.Subset.refl _
  · refine h.catchesUp.imp_right fun hcatches => ?_
    exact List.exists_mem_set hpersist (fun hlive => hlive) hcatches

theorem between_merge (h : TakesTurns s) (hturn : s.InTurn (.merge j)) {holder : Holder}
    {row : PositionRow} {context : PositionContext}
    (hpersist : s.persists[j]? = some (.loaded holder row))
    (hcontext : s.context? holder = some context) :
    triggered s.row.tpLevels ⊆ triggered context.tpLevels ∧
      ∀ live ∈ s.live, triggered context.tpLevels ⊆ triggered live.tpLevels := by
  cases holder with
  | live =>
    refine ⟨h.row_le context hcontext, fun live hlive => ?_⟩
    obtain rfl := Option.some.inj (hcontext.symm.trans hlive)
    exact Finset.Subset.refl _
  | rest i =>
    obtain ⟨phase, hphase, hcontext⟩ := Option.bind_eq_some_iff.mp hcontext
    simp only [InTurn, hpersist, RestInTurn, hphase] at hturn
    cases phase with
    | decided pass => exact absurd hcontext (by simp [RestPhase.context?])
    | driven pass driven =>
      obtain rfl := Option.some.inj hcontext
      obtain ⟨hlive, hahead⟩ := h.driven pass driven (List.mem_of_getElem? hphase)
      refine ⟨?_, fun live hsome => absurd (hlive.symm.trans hsome) (by simp)⟩
      rcases hturn with hread | hmade
      · rw [hread]
        exact hahead
      · rw [hmade]
    | done pass done =>
      obtain rfl := Option.some.inj hcontext
      rw [← show s.row.tpLevels = done.tpLevels from hturn]
      exact ⟨Finset.Subset.refl _, h.row_le⟩

theorem takesTurns_merge (h : TakesTurns s) (hturn : s.InTurn (.merge j))
    (hs : s.step (.merge j) = some s') : TakesTurns s' := by
  obtain ⟨holder, loaded, context, hpersist, hcontext, rfl⟩ := step_merge hs
  have hloaded : triggered loaded.tpLevels ⊆ triggered s.row.tpLevels :=
    h.inHand _ (List.mem_of_getElem? hpersist)
  obtain ⟨hahead, hbehind⟩ := between_merge h hturn hpersist hcontext
  refine ⟨h.bookedOnce, h.known, h.row_le, h.driven, ?_, ?_⟩
  · intro persist hmem
    rcases List.mem_or_eq_of_mem_set hmem with hold | rfl
    · exact h.inHand persist hold
    · exact ⟨hloaded, hahead, hbehind⟩
  · by_cases hsame : holder = .live ∧ context.tpLevels = loaded.tpLevels
    · -- the merge changes no level, and then the row has had them all along
      left
      intro live hlive
      obtain ⟨rfl, hsame⟩ := hsame
      obtain rfl := Option.some.inj (hcontext.symm.trans hlive)
      refine Finset.Subset.antisymm ?_ hahead
      rw [hsame]
      exact hloaded
    · refine h.catchesUp.imp_right fun hcatches => List.exists_mem_set hpersist ?_ hcatches
      rintro rfl
      refine ⟨fun live hlive => ?_, fun hlevels => hsame ⟨rfl, hlevels⟩⟩
      obtain rfl := Option.some.inj (hcontext.symm.trans hlive)
      rfl

theorem tpLevels_commit (loaded stored : PositionRow) (position : PositionContext) :
    (loaded.commit (loaded.mergePosition position) stored).tpLevels =
      if position.tpLevels = loaded.tpLevels then stored.tpLevels else position.tpLevels := rfl

theorem row_le_commit (h : TakesTurns s) (hturn : s.InTurn (.commit j))
    {loaded stored : PositionRow} {position : PositionContext}
    (hpersist : s.persists[j]? = some (.merged loaded position stored)) :
    triggered s.row.tpLevels ⊆
      triggered (loaded.commit (loaded.mergePosition position) s.row).tpLevels := by
  simp only [InTurn, hpersist] at hturn
  rw [tpLevels_commit]
  by_cases hsame : position.tpLevels = loaded.tpLevels
  · rw [if_pos hsame]
  · rw [if_neg hsame, hturn]
    exact (h.inHand _ (List.mem_of_getElem? hpersist)).2.1

theorem takesTurns_commit (h : TakesTurns s) (hturn : s.InTurn (.commit j))
    (hs : s.step (.commit j) = some s') : TakesTurns s' := by
  obtain ⟨loaded, position, stored, hpersist, rfl⟩ := step_commit hs
  obtain ⟨-, -, hbehind⟩ := h.inHand _ (List.mem_of_getElem? hpersist)
  have hgrows := row_le_commit h hturn hpersist
  have hrow : ∀ live ∈ s.live,
      triggered (loaded.commit (loaded.mergePosition position) s.row).tpLevels ⊆
        triggered live.tpLevels := by
    intro live hlive
    rw [tpLevels_commit]
    split
    · exact h.row_le live hlive
    · exact hbehind live hlive
  refine ⟨h.bookedOnce, ?_, hrow, h.driven, ?_, ?_⟩
  · intro i hi
    have hknown := h.known i hi
    unfold Known at hknown ⊢
    cases hlive : s.live with
    | some live =>
      rw [hlive] at hknown
      exact hknown
    | none =>
      rw [hlive] at hknown
      exact hknown.imp_left fun hold => hgrows hold
  · exact fun persist hmem => h.inHand_grown hgrows (List.mem_of_mem_eraseIdx hmem)
  · by_cases hcatches : s.CatchesUp (.merged loaded position stored)
    · left
      intro live hlive
      rw [tpLevels_commit, if_neg hcatches.2, hcatches.1 live hlive]
    · rcases h.catchesUp with hsame | hother
      · left
        intro live hlive
        exact Finset.Subset.antisymm ((hsame live hlive).subset.trans hgrows) (hrow live hlive)
      · exact Or.inr (List.exists_mem_eraseIdx hpersist hcatches hother)

theorem triggered_mergePersistedFields (live snapshot : PositionContext) :
    triggered (live.mergePersistedFieldsIntoLive snapshot).tpLevels = triggered live.tpLevels := by
  unfold PositionContext.mergePersistedFieldsIntoLive
  ext i
  rw [mem_triggered, mem_triggered, List.getElem?_mapIdx]
  cases hlevel : live.tpLevels[i]? with
  | none => simp
  | some level =>
    cases snapshot.tpLevels[i]? with
    | none => rfl
    | some snap => simp

theorem takesTurns_tracked (h : TakesTurns s) (hturn : s.InTurn .tracked)
    (hs : s.step .tracked = some s') : TakesTurns s' := by
  obtain rfl := Option.some.inj hs
  cases hlive : s.live with
  | some live => exact h.of_live hlive (triggered_mergePersistedFields live _)
  | none =>
    obtain ⟨hpersists, hpolls⟩ := hturn hlive
    refine ⟨h.bookedOnce, fun i hi => h.booked_row hlive hpolls hi, ?_, ?_, ?_, Or.inl ?_⟩
    · rintro _ ⟨⟩
      exact Finset.Subset.refl _
    · exact fun pass context hpoll => absurd trivial (hpolls _ hpoll)
    · intro persist hpersist
      rw [hpersists] at hpersist
      cases hpersist
    · rintro _ ⟨⟩
      rfl

theorem takesTurns_restarted (h : TakesTurns s) (hsettled : s.Settled)
    (hs : s.step .restarted = some s') : TakesTurns s' := by
  obtain rfl := Option.some.inj hs
  refine ⟨h.bookedOnce, fun i hi => Or.inl ?_, ?_, ?_, ?_, Or.inl ?_⟩
  · cases hlive : s.live with
    | none => exact h.booked_row hlive hsettled.2 hi
    | some live =>
      rw [← h.sameTriggered hsettled live hlive]
      exact h.booked_live hlive hi
  · rintro _ ⟨⟩
  · exact fun _ _ hpoll => absurd hpoll List.not_mem_nil
  · exact fun _ hpersist => absurd hpersist List.not_mem_nil
  · rintro _ ⟨⟩

theorem takesTurns_step {e : TpPathsEvent} (h : TakesTurns s) (hturn : s.InTurn e)
    (hs : s.step e = some s') : TakesTurns s' := by
  cases e with
  | wsFill answers event => exact takesTurns_wsFill h hs
  | pollRead liveSize openOrders => exact takesTurns_pollRead h hs
  | pollDrive i live now nowMs => exact takesTurns_pollDrive h hturn hs
  | pollPersist i => exact takesTurns_pollPersist h hturn hs
  | shifted holder reason triggerSource result => exact takesTurns_shifted h hs
  | load j => exact takesTurns_load h hs
  | merge j => exact takesTurns_merge h hturn hs
  | commit j => exact takesTurns_commit h hturn hs
  | tracked => exact takesTurns_tracked h hturn hs
  | restarted => exact takesTurns_restarted h hturn hs

theorem row_le_step {e : TpPathsEvent} (h : TakesTurns s) (hturn : s.InTurn e)
    (hs : s.step e = some s') : triggered s.row.tpLevels ⊆ triggered s'.row.tpLevels := by
  cases e with
  | wsFill answers event =>
    simp only [step] at hs
    cases hlive : s.live with
    | none =>
      simp only [hlive, Option.some.injEq] at hs
      exact hs ▸ Finset.Subset.refl _
    | some live =>
      simp only [hlive, Option.some.injEq] at hs
      exact hs ▸ Finset.Subset.refl _
  | pollRead liveSize openOrders => exact Option.some.inj hs ▸ Finset.Subset.refl _
  | pollDrive i live now nowMs =>
    obtain ⟨pass, -, rfl⟩ := step_pollDrive hs
    exact Finset.Subset.refl _
  | pollPersist i =>
    obtain ⟨pass, context, hpoll, rfl⟩ := step_pollPersist hs
    rw [tpLevels_mergeRestContext context hturn.1 hturn.2.1]
    exact row_le_pollPersist h hturn hpoll
  | shifted holder reason triggerSource result =>
    simp only [step, Option.ite_none_right_eq_some, Option.some.injEq] at hs
    obtain ⟨-, rfl⟩ := hs
    cases holder <;> exact Finset.Subset.refl _
  | load j =>
    obtain ⟨holder, -, rfl⟩ := step_load hs
    exact Finset.Subset.refl _
  | merge j =>
    obtain ⟨holder, loaded, context, -, -, rfl⟩ := step_merge hs
    exact Finset.Subset.refl _
  | commit j =>
    obtain ⟨loaded, position, stored, hpersist, rfl⟩ := step_commit hs
    exact row_le_commit h hturn hpersist
  | tracked => exact Option.some.inj hs ▸ Finset.Subset.refl _
  | restarted => exact Option.some.inj hs ▸ Finset.Subset.refl _

end Steps

theorem pathsAgree_of_inTurn (ladder : TrackedLadder) {events : List TpPathsEvent}
    (hturns : AlongRun step InTurn (start ladder) events) :
    (start ladder).PathsAgree events := by
  have hinvariant := forall_prefix_of_alongRun step (I := TakesTurns)
    (fun _ _ _ h hturn hs => takesTurns_step h hturn hs) (takesTurns_start ladder) hturns
  refine ⟨fun bs u hprefix hu => (hinvariant bs u hprefix hu).bookedOnce,
    fun bs u hprefix hu hsettled => (hinvariant bs u hprefix hu).sameTriggered hsettled, ?_⟩
  exact related_of_alongRun step
    (R := fun u v => triggered u.row.tpLevels ⊆ triggered v.row.tpLevels)
    (fun _ => Finset.Subset.refl _) (fun h h' => Finset.Subset.trans h h')
    (fun _ _ _ h hturn hs => takesTurns_step h hturn hs)
    (fun _ _ _ h hturn hs => row_le_step h hturn hs) (takesTurns_start ladder) hturns

/-! ## A poll beside a live position -/

/-- A level has been booked, but not on the live position. -/
def BookedApart (s : TpPathsRun) (i : ℕ) : Prop :=
  i ∈ s.booked ∧ ∀ live ∈ s.live, i ∉ triggered live.tpLevels

section

variable {s s' : TpPathsRun}

theorem live_step {e : TpPathsEvent} {live : PositionContext} (hlive : s.live = some live)
    (hstay : e ≠ .restarted) (hs : s.step e = some s') :
    ∃ next new, s'.live = some next ∧ s'.booked = s.booked ++ new ∧
      ∀ i ∈ triggered next.tpLevels, i ∈ triggered live.tpLevels ∨ i ∈ new := by
  have hquiet : s'.live = s.live → s'.booked = s.booked →
      ∃ next new, s'.live = some next ∧ s'.booked = s.booked ++ new ∧
        ∀ i ∈ triggered next.tpLevels, i ∈ triggered live.tpLevels ∨ i ∈ new :=
    fun hsame hbooked => ⟨live, [], hsame.trans hlive, by rw [hbooked, List.append_nil],
      fun i hi => Or.inl hi⟩
  cases e with
  | wsFill answers event =>
    simp only [step, hlive, Option.some.injEq] at hs
    rcases advance_handleFill s live answers event with ⟨next, hadvance, hfill⟩ | hfill
    · refine ⟨next, entriesSince live next, ?_, ?_, fun i => (hadvance.mem_iff i).mp⟩
      · rw [← hs, hfill]
      · rw [← hs, hfill]
    · exact hquiet (by rw [← hs, hfill, hlive]) (by rw [← hs, hfill])
  | pollRead liveSize openOrders =>
    obtain rfl := Option.some.inj hs
    exact hquiet rfl rfl
  | pollDrive i reply now nowMs =>
    obtain ⟨pass, -, rfl⟩ := step_pollDrive hs
    exact ⟨live, _, hlive, rfl, fun i hi => Or.inl hi⟩
  | pollPersist i =>
    obtain ⟨pass, context, -, rfl⟩ := step_pollPersist hs
    exact hquiet rfl rfl
  | shifted holder reason triggerSource result =>
    simp only [step, Option.ite_none_right_eq_some, Option.some.injEq] at hs
    obtain ⟨-, rfl⟩ := hs
    cases holder with
    | rest i => exact hquiet rfl rfl
    | live =>
      refine ⟨live.applySlAdjustment reason triggerSource result, [], ?_, ?_, fun i hi => ?_⟩
      · simp only [applyShift, hlive, Option.map_some]
      · exact (List.append_nil _).symm
      · rw [(applySlAdjustment_fields reason triggerSource result live).1] at hi
        exact Or.inl hi
  | load j =>
    obtain ⟨holder, -, rfl⟩ := step_load hs
    exact hquiet rfl rfl
  | merge j =>
    obtain ⟨holder, loaded, context, -, -, rfl⟩ := step_merge hs
    exact hquiet rfl rfl
  | commit j =>
    obtain ⟨loaded, position, stored, -, rfl⟩ := step_commit hs
    exact hquiet rfl rfl
  | tracked =>
    obtain rfl := Option.some.inj hs
    refine ⟨live.mergePersistedFieldsIntoLive (fromDbRow s.row.toRow), [], ?_, ?_, fun i hi => ?_⟩
    · simp only [hlive]
      rfl
    · exact (List.append_nil _).symm
    · rw [triggered_mergePersistedFields] at hi
      exact Or.inl hi
  | restarted => exact absurd rfl hstay

theorem BookedApart.step {i : ℕ} (h : s.BookedApart i) (hlive : ∃ live, s.live = some live)
    {e : TpPathsEvent} (hstay : e ≠ .restarted) (hs : s.step e = some s')
    (honce : s'.BookedOnce) : s'.BookedApart i := by
  obtain ⟨live, hlive⟩ := hlive
  obtain ⟨next, new, hnext, hbooked, htriggered⟩ := live_step hlive hstay hs
  refine ⟨?_, fun other hother hi => ?_⟩
  · rw [hbooked]
    exact List.mem_append_left _ h.1
  · obtain rfl := Option.some.inj (hnext.symm.trans hother)
    rcases htriggered i hi with hold | hnew
    · exact h.2 live hlive hold
    · unfold BookedOnce at honce
      rw [hbooked] at honce
      exact List.disjoint_of_nodup_append honce h.1 hnew

end

/-- The poll is about to merge the level into the open row, and has booked it beside a live
position. -/
structure MergesBeside (s : TpPathsRun) (i j : ℕ) : Prop where
  isOpen : s.row.status = .open ∧ s.row.state ≠ .closed
  driven : ∃ pass context, s.polls[i]? = some (.driven pass context) ∧
    j ∈ triggered context.tpLevels
  live : ∃ live, s.live = some live
  apart : s.BookedApart j

/-- A poll has merged beside a live position, and the run has come to rest behind it, all in one
process. -/
def MergedBeside (s : TpPathsRun) (events : List TpPathsEvent) : Prop :=
  ∃ as i bs u v j, as ++ .pollPersist i :: bs <+: events ∧ .restarted ∉ bs ∧
    run step s as = some u ∧ u.MergesBeside i j ∧
    run step u (.pollPersist i :: bs) = some v ∧ v.Settled

/-- **A poll that merges beside a live position breaks the agreement.** -/
theorem not_pathsAgree_of_mergedBeside {ladder : TrackedLadder} {events : List TpPathsEvent}
    (h : MergedBeside (start ladder) events) : ¬ (start ladder).PathsAgree events := by
  obtain ⟨as, i, bs, u, v, j, hprefix, hstay, hu, hbeside, hv, hsettled⟩ := h
  intro hagree
  have honce := ((forall_prefix_iff_alongRun step (G := BookedOnce)).mp fun cs t hcs ht =>
    hagree.bookedOnce cs t (hcs.trans hprefix) ht).2
  have hall : AlongRun step (fun _ e => e ≠ .restarted) u (.pollPersist i :: bs) := by
    refine alongRun_of_forall step (p := fun e => e ≠ .restarted) fun e he => ?_
    rintro rfl
    exact hstay ((List.mem_cons.mp he).resolve_left (by simp))
  obtain ⟨u', hpersist, hrest⟩ := (run_cons_eq_some step).mp hv
  obtain ⟨pass, context, hpoll, rfl⟩ := step_pollPersist hpersist
  -- the level stays apart up to `v`, and stays triggered in the row
  obtain ⟨⟨live, hlive⟩, hlast⟩ := invariant_of_alongRun step
    (I := fun t => (∃ live, t.live = some live) ∧ t.BookedApart j)
    (fun t e t' hI hP hs => by
      obtain ⟨live, hlive⟩ := hI.1
      obtain ⟨next, new, hnext, -, -⟩ := live_step hlive hP.2 hs
      exact ⟨⟨next, hnext⟩, hI.2.step hI.1 hP.2 hs (hP.1 t' hs)⟩)
    ⟨hbeside.live, hbeside.apart⟩
    (AlongRun.and step (AlongRun.append step honce hu).2 hall) hv
  have hmiddle : run step (start ladder) (as ++ [.pollPersist i]) = some _ :=
    (run_concat_eq_some step).mpr ⟨u, hu, hpersist⟩
  have hshown := hagree.keptTriggered (as ++ [.pollPersist i]) bs _ v
    (by rw [List.append_assoc]; exact hprefix) hmiddle hrest
  have hrow : j ∈ triggered (u.row.mergeRestContext context).tpLevels := by
    obtain ⟨_, _, hdriven, hj⟩ := hbeside.driven
    obtain ⟨-, rfl⟩ := RestPhase.driven.inj (Option.some.inj (hpoll.symm.trans hdriven))
    rw [tpLevels_mergeRestContext context hbeside.isOpen.1 hbeside.isOpen.2]
    exact hj
  have hwhole : run step (start ladder) (as ++ .pollPersist i :: bs) = some v := by
    rw [run_append, hu]
    exact hv
  have hsame := hagree.sameTriggered _ v hprefix hwhole hsettled live hlive
  refine hlast.2 live hlive ?_
  rw [hsame]
  exact hshown hrow

/-- **The two paths agree while they take turns**, and a run in which a poll merges a level that it
has booked beside a live position, and that comes to rest behind it, is one in which they do not. -/
theorem pathsAgree_of_run (ladder : TrackedLadder) (events : List TpPathsEvent) :
    (AlongRun step InTurn (start ladder) events → (start ladder).PathsAgree events) ∧
      (MergedBeside (start ladder) events → ¬ (start ladder).PathsAgree events) :=
  ⟨pathsAgree_of_inTurn ladder, not_pathsAgree_of_mergedBeside⟩

/-- The row of a long position of one with two levels, both placed. -/
def twoLevels : PositionRow where
  symbol := "BTC/USDT:USDT"
  entryPrice := 100
  quantity := 1
  originalQuantity := some 1
  currentQuantity := some 1
  slPrice := 95
  slExchangeOrderId := some "7"
  tpMode := .multi
  tpLevels :=
    [{ closePct := 50, triggerPrice := 105, status := .open, exchangeOrderId := some "1" },
      { closePct := 50, triggerPrice := 110, status := .open, exchangeOrderId := some "2" }]

/-- The row as it lies there, before a hydration. -/
def twoLevelsUntracked : TrackedLadder where
  live := none
  row := twoLevels
  same := by rintro _ ⟨⟩

def twoLevelsTracked : TrackedLadder where
  live := some (fromDbRow twoLevels.toRow)
  row := twoLevels
  same := by
    rintro _ ⟨⟩
    rfl

/-- The poll books the first level while nothing is tracked; then the position comes to be tracked,
its event arrives late, and the second level fills and is persisted. -/
def pollThenTracked : List TpPathsEvent :=
  [.pollRead (1 / 2) (some ["2", "7"]), .pollDrive 0 .raised 0 0, .pollPersist 0, .tracked,
    .wsFill {} (TpRun.takeProfitFilled "1"), .wsFill {} (TpRun.takeProfitFilled "2"), .load 0,
    .merge 0, .commit 0]

/-- Either level is booked once, the first by the poll and the second by its event. -/
theorem pathsAgree_pollThenTracked :
    (run step (start twoLevelsUntracked) pollThenTracked).map booked = some [0, 1] ∧
      (start twoLevelsUntracked).PathsAgree pollThenTracked :=
  ⟨by decide +kernel,
    (pathsAgree_of_run twoLevelsUntracked pollThenTracked).1 (by decide +kernel)⟩

/-- The poll finds the order of the first level gone and half of the position closed; then the
event arrives. -/
def pollThenEvent : List TpPathsEvent :=
  [.pollRead (1 / 2) (some ["2", "7"]), .pollDrive 0 .raised 0 0, .pollPersist 0,
    .wsFill {} (TpRun.takeProfitFilled "1")]

/-- **A fill that a poll has booked is booked again when its event arrives.** -/
theorem pollThenEvent_books_twice : ¬ (start twoLevelsTracked).PathsAgree pollThenEvent := by
  intro h
  have hrun : (run step (start twoLevelsTracked) pollThenEvent).map booked = some [0, 0] := by
    decide +kernel
  obtain ⟨u, hu, hbooked⟩ := Option.map_eq_some_iff.mp hrun
  have honce := h.bookedOnce pollThenEvent u (List.prefix_refl _) hu
  unfold BookedOnce at honce
  rw [hbooked] at honce
  exact absurd honce (by decide)

end TpPathsRun

end AdviserConstructor
