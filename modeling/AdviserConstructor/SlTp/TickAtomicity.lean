import AdviserConstructor.SlTp.LiveTracker

/-!
# A tick that sends nothing

`RealtimeSLAdjuster.on_tick` of `app/services/sl_tp/live_tracker.py`, with a queue resolver that
may raise.  The tick writes the new stop, the tracked extremes and the throttle stamp to the
position first, and only then `_dispatch_replace_sl` finds out whether anything can be sent: it
returns without a task when the position has no stop order or no quantity, and a resolver that
raises ends the tick.  Nothing undoes the writes.

* `onTickResolving_eq`: with a resolver that always answers this is the tick of the adjuster.
* `changed_of_result`: a result that is applied changes something that the tick keeps of the
  position.
* `atomic_iff`: a tick leaves every position for which it sends nothing as it was, exactly when
  every position for which the pipeline proposes a move can be sent one.
-/

namespace AdviserConstructor
namespace Adjuster

/-! ## A tick with a resolver -/

/-- A position after it was looked at: the task that was enqueued for it, and whether the queue
resolver raised on it. -/
structure Visited where
  position : PositionContext
  task : Option OrderTask := none
  raised : Bool := false
  deriving DecidableEq

/-- Looking at one position.  The resolver is asked only when there is something to send. -/
def visitResolving (env : TrackerEnv) (resolves : String → Bool) (killed : List String)
    (currentPrice now : ℚ) (nowMs : ℕ) (adj : Adjuster) (position : PositionContext) : Visited :=
  match adj.visitResult env killed currentPrice now position with
  | none => { position := position }
  | some result =>
      let position := applyStateChanges position result
      match
        dispatchReplaceSl env.accountId position result.newSlPrice result.reason now nowMs with
      | none => { position := position }
      | some task =>
          if resolves position.positionId then { position := position, task := some task }
          else { position := position, raised := true }

/-- The loop of `on_tick`; a resolver that raises leaves the positions behind it alone. -/
def visitUntilRaise (env : TrackerEnv) (resolves : String → Bool) (killed : List String)
    (currentPrice now : ℚ) (nowMs : ℕ) :
    Adjuster → List PositionContext → Adjuster × List Visited
  | adj, [] => (adj, [])
  | adj, position :: rest =>
      let visited := adj.visitResolving env resolves killed currentPrice now nowMs position
      let adj := adj.afterVisit env killed currentPrice now position
      if visited.raised then (adj, visited :: rest.map fun position => { position := position })
      else
        let (adj, others) :=
          visitUntilRaise env resolves killed currentPrice now nowMs adj rest
        (adj, visited :: others)

/-- `on_tick`, for a queue resolver that answers for the ids of `resolves`. -/
def onTickResolving (env : TrackerEnv) (resolves : String → Bool) (adj : Adjuster) (tick : Tick)
    (positions : List PositionContext) : Adjuster × List Visited :=
  match adj.updateBuffer tick.event with
  | none => (adj, positions.map fun position => { position := position })
  | some (bar, adj) =>
      if bar.close ≤ 0 then (adj, positions.map fun position => { position := position })
      else
        let (adj, killed) := adj.checkKillSwitch env bar tick.now positions
        visitUntilRaise env resolves killed bar.close tick.now tick.nowMs adj positions

section Resolver

variable {env : TrackerEnv} {resolves : String → Bool} {killed : List String}
  {currentPrice now : ℚ} {nowMs : ℕ} {adj : Adjuster} {position : PositionContext}

theorem visitUntilRaise_eq (positions : List PositionContext) (adj : Adjuster) :
    visitAll env killed currentPrice now nowMs adj positions =
      ((visitUntilRaise env (fun _ => true) killed currentPrice now nowMs adj positions).1,
        (visitUntilRaise env (fun _ => true) killed currentPrice now nowMs adj positions).2.map
          fun visited => (visited.position, visited.task)) := by
  induction positions generalizing adj with
  | nil => rfl
  | cons position rest ih =>
      have hvisit : (adj.visitResolving env (fun _ => true) killed currentPrice now nowMs
            position).raised = false ∧
          adj.visitPosition env killed currentPrice now nowMs position =
            ((adj.visitResolving env (fun _ => true) killed currentPrice now nowMs
                position).position,
              (adj.visitResolving env (fun _ => true) killed currentPrice now nowMs
                position).task) := by
        unfold visitPosition visitResolving
        cases adj.visitResult env killed currentPrice now position with
        | none => exact ⟨rfl, rfl⟩
        | some result =>
            dsimp only
            cases dispatchReplaceSl env.accountId (applyStateChanges position result)
              result.newSlPrice result.reason now nowMs with
            | none => exact ⟨rfl, rfl⟩
            | some task => exact ⟨rfl, rfl⟩
      rw [visitAll, visitUntilRaise]
      simp only [hvisit.1, Bool.false_eq_true, if_false, ih, hvisit.2, List.map_cons]

/-- **With a resolver that always answers** this is the tick of the adjuster. -/
theorem onTickResolving_eq (env : TrackerEnv) (adj : Adjuster) (tick : Tick)
    (positions : List PositionContext) :
    adj.onTick env tick positions =
      ((adj.onTickResolving env (fun _ => true) tick positions).1,
        (adj.onTickResolving env (fun _ => true) tick positions).2.map
          fun visited => (visited.position, visited.task)) := by
  unfold onTick onTickResolving
  cases adj.updateBuffer tick.event with
  | none => simp
  | some placed =>
      dsimp only
      split
      · simp
      · exact visitUntilRaise_eq positions _

/-! ## What a visit writes -/

/-- What the tick keeps of a position is as it was. -/
structure Unchanged (adj adj' : Adjuster) (before after : PositionContext) : Prop where
  currentSlPrice : after.currentSlPrice = before.currentSlPrice
  breakevenActivated : after.breakevenActivated = before.breakevenActivated
  trailingHighestPrice : after.trailingHighestPrice = before.trailingHighestPrice
  trailingLowestPrice : after.trailingLowestPrice = before.trailingLowestPrice
  volatilityLastAtr : after.volatilityLastAtr = before.volatilityLastAtr
  throttle : adj'.lastAdjustmentAt.get? before.positionId =
    adj.lastAdjustmentAt.get? before.positionId

/-- Something can be sent for the position. -/
def canSend (resolves : String → Bool) (position : PositionContext) : Bool :=
  (match position.slExchangeOrderId with
    | some existing => existing ≠ ""
    | none => false) &&
    0 < position.currentQuantity && resolves position.positionId

theorem applyTracking_frame (position : PositionContext) (update : TrackingUpdate) :
    (applyTracking position update).slExchangeOrderId = position.slExchangeOrderId ∧
      (applyTracking position update).currentQuantity = position.currentQuantity ∧
      (applyTracking position update).positionId = position.positionId := by
  cases update <;> exact ⟨rfl, rfl, rfl⟩

theorem applyStateChanges_frame (position : PositionContext) (result : SLAdjustmentResult) :
    (applyStateChanges position result).slExchangeOrderId = position.slExchangeOrderId ∧
      (applyStateChanges position result).currentQuantity = position.currentQuantity ∧
      (applyStateChanges position result).positionId = position.positionId := by
  have hfold : ∀ (updates : List TrackingUpdate) (p : PositionContext),
      (updates.foldl applyTracking p).slExchangeOrderId = p.slExchangeOrderId ∧
        (updates.foldl applyTracking p).currentQuantity = p.currentQuantity ∧
        (updates.foldl applyTracking p).positionId = p.positionId := by
    intro updates
    induction updates with
    | nil => exact fun p => ⟨rfl, rfl, rfl⟩
    | cons update updates ih =>
        intro p
        obtain ⟨hid, hquantity, hposition⟩ := ih (applyTracking p update)
        obtain ⟨hid', hquantity', hposition'⟩ := applyTracking_frame p update
        exact ⟨hid.trans hid', hquantity.trans hquantity', hposition.trans hposition'⟩
  exact hfold result.updateTracking position

theorem visitResolving_of_result {result : SLAdjustmentResult}
    (h : adj.visitResult env killed currentPrice now position = some result) :
    (adj.visitResolving env resolves killed currentPrice now nowMs position).position =
        applyStateChanges position result ∧
      ((adj.visitResolving env resolves killed currentPrice now nowMs position).task.isSome =
        canSend resolves position) ∧
      ((adj.visitResolving env resolves killed currentPrice now nowMs position).raised = true →
        canSend resolves position = false) := by
  obtain ⟨hid, hquantity, hposition⟩ := applyStateChanges_frame position result
  unfold visitResolving
  rw [h]
  dsimp only
  unfold dispatchReplaceSl canSend
  rw [hid, hquantity, hposition]
  cases hsl : position.slExchangeOrderId with
  | none => simp
  | some existing =>
      by_cases hblocked : existing = "" ∨ position.currentQuantity ≤ 0
      · rcases hblocked with hempty | hgone
        · simp [hempty]
        · simp [hgone]
      · obtain ⟨hnonempty, hpositive⟩ := not_or.mp hblocked
        cases hresolves : resolves position.positionId with
        | true => simp [hnonempty, hpositive, not_le.mp hpositive]
        | false => simp [hnonempty, hpositive]

theorem visitResolving_of_none
    (h : adj.visitResult env killed currentPrice now position = none) :
    adj.visitResolving env resolves killed currentPrice now nowMs position =
      { position := position } := by
  unfold visitResolving
  rw [h]

/-- **A result that is applied changes something**: the stop, or the mark that breakeven is
done. -/
theorem changed_of_result {atr : Option ℚ} {result : SLAdjustmentResult}
    (h : evaluatePipeline position currentPrice atr = some result) :
    (applyStateChanges position result).currentSlPrice ≠ position.currentSlPrice ∨
      (applyStateChanges position result).breakevenActivated ≠ position.breakevenActivated := by
  have hprotective : MoreProtective position.side result.newSlPrice position.currentSlPrice →
      result.newSlPrice ≠ position.currentSlPrice := by
    intro hmore hsame
    rw [hsame] at hmore
    unfold MoreProtective at hmore
    split at hmore <;> exact lt_irrefl _ hmore
  rcases mem_pipelineCandidates_iff.mp (evaluatePipeline_best h).1 with
    ⟨-, ht⟩ | ⟨-, hb⟩ | ⟨-, hv⟩
  · exact .inl (hprotective (evaluateTrailing_protective ht))
  · refine .inr ?_
    unfold evaluateBreakeven at hb
    by_cases hdone : (!position.breakevenEnabled || position.breakevenActivated) = true
    · rw [if_pos hdone] at hb
      cases hb
    · rw [if_neg hdone] at hb
      split at hb
      · cases hb
        simp only [Bool.or_eq_true, not_or, Bool.not_eq_true] at hdone
        rw [hdone.2]
        simp [applyStateChanges, applyTracking]
      · cases hb
  · exact .inl (hprotective (evaluateVolatility_protective hv))

theorem evaluatePipeline_of_visitResult {result : SLAdjustmentResult}
    (h : adj.visitResult env killed currentPrice now position = some result) :
    ∃ atr, evaluatePipeline position currentPrice atr = some result := by
  unfold visitResult at h
  split at h
  · cases h
  · split at h
    · cases h
    · split at h
      · cases h
      · exact ⟨_, h⟩

/-! ## Other positions -/

theorem get?_afterVisit_of_ne {id : String} (hne : id ≠ position.positionId) :
    (adj.afterVisit env killed currentPrice now position).lastAdjustmentAt.get? id =
      adj.lastAdjustmentAt.get? id := by
  unfold afterVisit
  cases adj.visitResult env killed currentPrice now position with
  | none => rfl
  | some result => exact InsertionDict.get?_assign_of_ne hne

theorem visitResult_afterVisit {other : PositionContext}
    (hne : other.positionId ≠ position.positionId) :
    (adj.afterVisit env killed currentPrice now position).visitResult env killed currentPrice now
        other =
      adj.visitResult env killed currentPrice now other := by
  have hstamp := @get?_afterVisit_of_ne env killed currentPrice now adj position _ hne
  unfold afterVisit at hstamp ⊢
  cases hresult : adj.visitResult env killed currentPrice now position with
  | none => rfl
  | some result =>
      rw [hresult] at hstamp
      unfold visitResult cooldownElapsed isPositionEligible evaluate computeAtr atrSeries
        InsertionDict.getD
      rw [hstamp]

theorem get?_visitUntilRaise {id : String} (positions : List PositionContext)
    (hid : id ∉ positions.map PositionContext.positionId) (adj : Adjuster) :
    (visitUntilRaise env resolves killed currentPrice now nowMs adj
        positions).1.lastAdjustmentAt.get? id = adj.lastAdjustmentAt.get? id := by
  induction positions generalizing adj with
  | nil => rfl
  | cons position rest ih =>
      rw [List.map_cons, List.mem_cons, not_or] at hid
      have hstamp := @get?_afterVisit_of_ne env killed currentPrice now adj position _ hid.1
      rw [visitUntilRaise]
      split
      · exact hstamp
      · exact (ih hid.2 _).trans hstamp

/-! ## Ticks that send nothing -/

theorem unchanged_head_iff {adj' : Adjuster}
    (hstamp : adj'.lastAdjustmentAt.get? position.positionId =
      (adj.afterVisit env killed currentPrice now position).lastAdjustmentAt.get?
        position.positionId) :
    let visited := adj.visitResolving env resolves killed currentPrice now nowMs position
    (visited.task = none → Unchanged adj adj' position visited.position) ↔
      ((adj.visitResult env killed currentPrice now position).isSome = true →
        canSend resolves position = true) := by
  dsimp only
  cases hresult : adj.visitResult env killed currentPrice now position with
  | none =>
      rw [visitResolving_of_none hresult]
      have hsame : adj'.lastAdjustmentAt.get? position.positionId =
          adj.lastAdjustmentAt.get? position.positionId := by
        rw [hstamp, afterVisit, hresult]
      simp only [Option.isSome_none, Bool.false_eq_true, false_imp_iff, iff_true]
      exact fun _ => ⟨rfl, rfl, rfl, rfl, rfl, hsame⟩
  | some result =>
      obtain ⟨hposition, htask, -⟩ :=
        @visitResolving_of_result env resolves killed currentPrice now nowMs adj position _ hresult
      rw [hposition]
      simp only [Option.isSome_some, true_imp_iff]
      constructor
      · intro hunchanged
        by_contra hblocked
        have hsame := hunchanged (Option.not_isSome_iff_eq_none.mp (by simp [htask, hblocked]))
        obtain ⟨atr, heval⟩ := evaluatePipeline_of_visitResult hresult
        rcases changed_of_result heval with hstop | hmark
        · exact hstop hsame.currentSlPrice
        · exact hmark hsame.breakevenActivated
      · intro hsend hnone
        rw [hsend, hnone] at htask
        cases htask

theorem forall₂_congr_of_mem {α β : Type*} {R R' : α → β → Prop} {l : List α} {u : List β}
    (h : ∀ a ∈ l, ∀ b, R a b ↔ R' a b) : List.Forall₂ R l u ↔ List.Forall₂ R' l u := by
  constructor
  · intro hl
    exact ((List.forall₂_and_left l u).mpr ⟨h, hl⟩).imp fun a b hab => (hab.1 b).mp hab.2
  · intro hl
    exact ((List.forall₂_and_left l u).mpr ⟨h, hl⟩).imp fun a b hab => (hab.1 b).mpr hab.2

/-- Every position of the list is left as it was unless the pipeline proposes a move for it that
cannot be sent.  By induction on the list: the ids are distinct, so what was stamped for one
position does not count for the next. -/
theorem unchanged_visitUntilRaise_iff (positions : List PositionContext)
    (hnodup : (positions.map PositionContext.positionId).Nodup) (adj : Adjuster) :
    List.Forall₂
        (fun before visited => visited.task = none →
          Unchanged adj
            (visitUntilRaise env resolves killed currentPrice now nowMs adj positions).1 before
            visited.position)
        positions
        (visitUntilRaise env resolves killed currentPrice now nowMs adj positions).2 ↔
      ∀ position ∈ positions,
        (adj.visitResult env killed currentPrice now position).isSome = true →
          canSend resolves position = true := by
  induction positions generalizing adj with
  | nil => simp [visitUntilRaise]
  | cons position rest ih =>
      rw [List.map_cons, List.nodup_cons] at hnodup
      rw [List.forall_mem_cons, visitUntilRaise]
      by_cases hraised :
          (adj.visitResolving env resolves killed currentPrice now nowMs position).raised = true
      · -- the tick ends here, with the position written to
        rw [if_pos hraised]
        have hresult : ∃ result,
            adj.visitResult env killed currentPrice now position = some result := by
          cases hresult : adj.visitResult env killed currentPrice now position with
          | none =>
              rw [visitResolving_of_none hresult] at hraised
              cases hraised
          | some result => exact ⟨result, rfl⟩
        obtain ⟨result, hresult⟩ := hresult
        have hblocked := (visitResolving_of_result hresult).2.2 hraised
        have hcannot : ¬((adj.visitResult env killed currentPrice now position).isSome = true →
            canSend resolves position = true) := by
          simp [hresult, hblocked]
        rw [List.forall₂_cons]
        constructor
        · rintro ⟨hhead, -⟩
          exact absurd ((unchanged_head_iff rfl).mp hhead) hcannot
        · rintro ⟨hhead, -⟩
          exact absurd hhead hcannot
      · rw [if_neg hraised, List.forall₂_cons]
        refine and_congr (unchanged_head_iff (get?_visitUntilRaise rest hnodup.1 _)) ?_
        have hrest := ih hnodup.2 (adj.afterVisit env killed currentPrice now position)
        have hne : ∀ other ∈ rest, other.positionId ≠ position.positionId := by
          intro other hother hsame
          exact hnodup.1 (List.mem_map.mpr ⟨other, hother, hsame⟩)
        have hvisits : (∀ other ∈ rest,
              ((adj.afterVisit env killed currentPrice now position).visitResult env killed
                currentPrice now other).isSome = true → canSend resolves other = true) ↔
            ∀ other ∈ rest, (adj.visitResult env killed currentPrice now other).isSome = true →
              canSend resolves other = true := by
          refine forall₂_congr fun other hother => ?_
          rw [visitResult_afterVisit (hne other hother)]
        rw [← hvisits, ← hrest]
        -- the stamps of the others are those from before this visit
        refine forall₂_congr_of_mem fun other hother visited => imp_congr_right fun _ => ?_
        have hstamp := @get?_afterVisit_of_ne env killed currentPrice now adj position _
          (hne other hother)
        constructor
        · rintro ⟨hsl, hmark, hhigh, hlow, hatr, hthrottle⟩
          exact ⟨hsl, hmark, hhigh, hlow, hatr, hthrottle.trans hstamp.symm⟩
        · rintro ⟨hsl, hmark, hhigh, hlow, hatr, hthrottle⟩
          exact ⟨hsl, hmark, hhigh, hlow, hatr, hthrottle.trans hstamp⟩

/-- What the pipeline proposes for a position in a tick; `none` also when it is not asked. -/
def tickResult (env : TrackerEnv) (adj : Adjuster) (tick : Tick)
    (positions : List PositionContext) (position : PositionContext) :
    Option SLAdjustmentResult :=
  match adj.updateBuffer tick.event with
  | none => none
  | some (bar, adj) =>
      if bar.close ≤ 0 then none
      else
        let (adj, killed) := adj.checkKillSwitch env bar tick.now positions
        adj.visitResult env killed bar.close tick.now position

/-- Every position for which the tick enqueues nothing is left as it was. -/
def Atomic (env : TrackerEnv) (resolves : String → Bool) (adj : Adjuster) (tick : Tick)
    (positions : List PositionContext) : Prop :=
  List.Forall₂
    (fun before visited => visited.task = none →
      Unchanged adj (adj.onTickResolving env resolves tick positions).1 before visited.position)
    positions (adj.onTickResolving env resolves tick positions).2

theorem updateBuffer_lastAdjustmentAt {adj' : Adjuster} {event : KlineEvent} {bar : Bar}
    (h : adj.updateBuffer event = some (bar, adj')) :
    adj'.lastAdjustmentAt = adj.lastAdjustmentAt := by
  obtain ⟨_, -, hplaced⟩ := Option.map_eq_some_iff.mp h
  rw [Prod.mk.injEq] at hplaced
  rw [← hplaced.2]

theorem checkKillSwitch_lastAdjustmentAt (env : TrackerEnv) (adj : Adjuster) (bar : Bar) (now : ℚ)
    (positions : List PositionContext) :
    (adj.checkKillSwitch env bar now positions).1.lastAdjustmentAt = adj.lastAdjustmentAt := by
  have hfold : ∀ (positions : List PositionContext) (start : Adjuster × List String),
      (positions.foldl
        (fun (adj, killed) position =>
          if killSwitchTrips env adj bar now position then
            ({ adj with
                lastKillSwitchAt := adj.lastKillSwitchAt.assign position.positionId now },
              killed ++ [position.positionId])
          else (adj, killed))
        start).1.lastAdjustmentAt = start.1.lastAdjustmentAt := by
    intro positions
    induction positions with
    | nil => exact fun start => rfl
    | cons position rest ih =>
        rintro ⟨start, killed⟩
        rw [List.foldl_cons, ih]
        dsimp only
        split <;> rfl
  unfold checkKillSwitch
  split
  · rfl
  · exact hfold positions (adj, [])

theorem unchanged_refl {adj' : Adjuster} (h : adj'.lastAdjustmentAt = adj.lastAdjustmentAt)
    (position : PositionContext) : Unchanged adj adj' position position :=
  ⟨rfl, rfl, rfl, rfl, rfl, by rw [h]⟩

theorem Unchanged.congr_left {adj' adj'' : Adjuster} {before after : PositionContext}
    (h : adj'.lastAdjustmentAt = adj.lastAdjustmentAt) :
    Unchanged adj' adj'' before after ↔ Unchanged adj adj'' before after := by
  constructor
  · rintro ⟨hsl, hmark, hhigh, hlow, hatr, hthrottle⟩
    exact ⟨hsl, hmark, hhigh, hlow, hatr, h ▸ hthrottle⟩
  · rintro ⟨hsl, hmark, hhigh, hlow, hatr, hthrottle⟩
    exact ⟨hsl, hmark, hhigh, hlow, hatr, by rw [hthrottle, h]⟩

theorem forall₂_unchanged_self (positions : List PositionContext) {adj' : Adjuster}
    (h : adj'.lastAdjustmentAt = adj.lastAdjustmentAt) :
    List.Forall₂
      (fun before visited => visited.task = none →
        Unchanged adj adj' before visited.position)
      positions (positions.map fun position => ({ position := position } : Visited)) := by
  rw [List.forall₂_map_right_iff]
  exact List.forall₂_same.mpr fun position _ _ => unchanged_refl h position

/-- **A tick is atomic exactly when every position for which the pipeline proposes a move can be
sent one.**  The others are written to all the same: the stop that the position believes in is
no longer the one on the exchange. -/
theorem atomic_iff (env : TrackerEnv) (resolves : String → Bool) (adj : Adjuster) (tick : Tick)
    (positions : List PositionContext)
    (hnodup : (positions.map PositionContext.positionId).Nodup) :
    Atomic env resolves adj tick positions ↔
      ∀ position ∈ positions, (adj.tickResult env tick positions position).isSome = true →
        canSend resolves position = true := by
  unfold Atomic onTickResolving tickResult
  cases hbuffer : adj.updateBuffer tick.event with
  | none =>
      simp only [Option.isSome_none, Bool.false_eq_true, false_imp_iff, implies_true, iff_true]
      exact forall₂_unchanged_self positions rfl
  | some placed =>
      obtain ⟨bar, adj'⟩ := placed
      have hstamps := updateBuffer_lastAdjustmentAt hbuffer
      by_cases hclose : bar.close ≤ 0
      · simp only [hclose, if_true, Option.isSome_none, Bool.false_eq_true, false_imp_iff,
          implies_true, iff_true]
        exact forall₂_unchanged_self positions hstamps
      · simp only [hclose, if_false]
        have hswitch := checkKillSwitch_lastAdjustmentAt env adj' bar tick.now positions
        rw [← unchanged_visitUntilRaise_iff positions hnodup]
        · refine forall₂_congr_of_mem fun before _ visited => imp_congr_right fun _ => ?_
          exact (Unchanged.congr_left (hswitch.trans hstamps)).symm

end Resolver

/-! ## A breakeven move without a stop order -/

/-- An adjuster whose library reports no average true range. -/
def quietEnv : TrackerEnv where
  taAtr := fun _ _ => []
  killSwitchHandler := false
  accountId := "acc"

/-- A long position from 100 with breakeven at twice the risk. -/
def breakevenLong (slExchangeOrderId : Option String) : PositionContext where
  positionId := "7"
  symbol := "BTC/USDT:USDT"
  state := .open
  stateMachine := { state := .open }
  side := .long
  entryPrice := 100
  originalQuantity := 1
  currentQuantity := 1
  currentSlPrice := 95
  slExchangeOrderId := slExchangeOrderId
  breakevenEnabled := true
  breakevenTriggerRr := 2

def breakevenTick : Tick where
  event := .ofList
    [("open_time", .int 1), ("open", .float 100), ("high", .float 110), ("low", .float 100),
     ("close", .float 110)]
  now := 10

/-- The position has its stop order, and the move to breakeven is sent. -/
theorem atomic_withStopOrder :
    Atomic quietEnv (fun _ => true) { symbol := "BTC/USDT:USDT" } breakevenTick
      [breakevenLong (some "55")] :=
  (atomic_iff quietEnv (fun _ => true) { symbol := "BTC/USDT:USDT" } breakevenTick
    [breakevenLong (some "55")] (by decide)).mpr (by decide +kernel)

/-- The stop order is not known yet: nothing is sent, and breakeven is marked as done. -/
theorem breakeven_markedUnsent :
    ¬Atomic quietEnv (fun _ => true) { symbol := "BTC/USDT:USDT" } breakevenTick
      [breakevenLong none] := by
  intro hatomic
  obtain ⟨visited, rest, hhead, -, hout⟩ := List.forall₂_cons_left_iff.mp hatomic
  have hshown : (onTickResolving quietEnv (fun _ => true) { symbol := "BTC/USDT:USDT" }
      breakevenTick [breakevenLong none]).2.map
        (fun visited => (visited.task, visited.position.breakevenActivated)) =
      [(none, true)] := by decide +kernel
  rw [hout, List.map_cons, List.cons.injEq, Prod.mk.injEq] at hshown
  have hmark := (hhead hshown.1.1).breakevenActivated
  rw [hshown.1.2] at hmark
  cases hmark

end Adjuster
end AdviserConstructor
