import AdviserConstructor.Position.Producers
import AdviserConstructor.Position.QueueInvariants

/-!
# From a failed stop to an emergency close

When a stop-loss task fails for good, the queue builds an `emergency_market_close` task out of
whatever parameters the failed task happened to carry, and that task meets the strict readers of
`_execute_task` only when it is executed itself.

* `reachesPartialClose_emergencyParams`: the emergency task closes whatever is live if and only
  if the failed task named a symbol and a side.
* `armed_iff`: in every run of the queue, whichever producer made the failed task, the emergency
  close that waits on the heap afterwards can be executed if and only if the producer was not
  the watcher and the position has a symbol.
* `tighten_sl_unprotected`: a `tighten_sl` task is rejected, and so is its emergency task.
-/

namespace AdviserConstructor

/-! ## The parameters of the emergency task -/

/-- Executing an emergency task with these parameters against a live position reaches
`partial_close`. -/
def ReachesPartialClose (params : TaskParams) : Prop :=
  ∀ (live : PositionSnapshot) (defaultId : String), emergencyCloseDustEpsilon < |live.size| →
    ∃ symbol side quantity clientOrderId, 0 < quantity ∧ symbol ≠ "" ∧ clientOrderId ≠ "" ∧
      executeTask .emergencyMarketClose params (.snapshot live) defaultId =
        .ok (some (.partialClose symbol side quantity clientOrderId "market" none))

namespace TaskParams

@[simp] theorem getD_empty (k : String) (default : PyVal) :
    (InsertionDict.empty : TaskParams).getD k default = default := rfl

end TaskParams

open TaskParams in
theorem lookup_emergencyParams (params : TaskParams) (reason : String) :
    (emergencyParams params reason).lookup "symbol" = params.lookup "symbol" ∧
      (emergencyParams params reason).lookup "side" = params.lookup "side" ∧
      (emergencyParams params reason).lookup "full_quantity" = params.inheritedQuantity ∧
      ∀ default, (emergencyParams params reason).getD "client_order_id" default =
        params.lookup "client_order_id" := by
  simp [emergencyParams, InsertionDict.ofList, lookup_assign, getD_assign]

theorem requireStr_of_lookup {params : TaskParams} {key s : String}
    (h : params.lookup key = .str s) :
    params.requireStr key =
      if s ≠ "" then .ok s
      else .error (.other ("Missing or invalid string parameter: " ++ key)) := by
  unfold TaskParams.requireStr
  rw [show params.getD key .none = .str s from h]

/-- **The emergency task of a failed task closes what is live** if and only if the failed task
named a symbol and a side. -/
theorem reachesPartialClose_emergencyParams {params : TaskParams} {symbol clientOrderId : String}
    {quantity : ℚ} {side : Option OrderSide} (hsymbol : params.lookup "symbol" = .str symbol)
    (hside : params.lookup "side" = side.elim .none .side)
    (hquantity : params.inheritedQuantity = .float quantity) (hpos : 0 < quantity)
    (hclient : params.lookup "client_order_id" = .str clientOrderId) (hne : clientOrderId ≠ "")
    (reason : String) :
    ReachesPartialClose (emergencyParams params reason) ↔ symbol ≠ "" ∧ side.isSome := by
  obtain ⟨lsymbol, lside, lquantity, lclient⟩ := lookup_emergencyParams params reason
  have hreqSymbol := requireStr_of_lookup (lsymbol.trans hsymbol)
  have hreqClient : ∀ defaultId,
      (emergencyParams params reason).requireStr "client_order_id" (.str defaultId) =
        .ok clientOrderId := by
    intro defaultId
    rw [TaskParams.requireStr, lclient, hclient]
    exact if_pos hne
  have hreqQuantity :
      (emergencyParams params reason).resolveEmergencyQuantity = .ok quantity := by
    rw [TaskParams.resolveEmergencyQuantity, TaskParams.quantityKeys, TaskParams.firstPositive,
      lquantity, hquantity]
    exact if_pos hpos
  constructor
  · intro h
    obtain ⟨_, _, _, _, -, -, -, hrun⟩ := h ⟨.long, 1, 1⟩ ""
      (by norm_num [emergencyCloseDustEpsilon])
    constructor
    · rintro rfl
      rw [executeTask, executeEmergencyClose, hreqSymbol] at hrun
      exact absurd hrun (by simp [bind, Except.bind])
    · cases side with
      | some side => rfl
      | none =>
        -- without a side the close is rejected before the adapter is called
        have hreqSide : (emergencyParams params reason).requireSide "side" =
            .error (.other ("Missing order side parameter: " ++ "side")) := by
          rw [TaskParams.requireSide, lside, hside]
          rfl
        rw [executeTask, executeEmergencyClose, hreqSymbol, hreqQuantity, hreqSide] at hrun
        by_cases hs : symbol ≠ ""
        · rw [if_pos hs] at hrun
          have hlive : ¬(1 : ℚ) ≤ emergencyCloseDustEpsilon := by
            norm_num [emergencyCloseDustEpsilon]
          simp [bind, Except.bind, hlive] at hrun
        · rw [if_neg hs] at hrun
          exact absurd hrun (by simp [bind, Except.bind])
  · rintro ⟨hs, hsome⟩ live defaultId hlive
    obtain ⟨side, rfl⟩ := Option.isSome_iff_exists.mp hsome
    have hreqSide : (emergencyParams params reason).requireSide "side" = .ok side := by
      rw [TaskParams.requireSide, lside, hside]
      rfl
    have hlivePos : 0 < |live.size| :=
      lt_trans (by norm_num [emergencyCloseDustEpsilon]) hlive
    refine ⟨symbol, side, min quantity |live.size|, clientOrderId, lt_min hpos hlivePos, hs, hne,
      ?_⟩
    rw [executeTask, executeEmergencyClose, hreqSymbol, if_pos hs, hreqQuantity, hreqSide,
      hreqClient]
    simp [bind, Except.bind, pure, Except.pure, not_le.mpr hlive, not_le.mpr hpos]

/-! ## What the producers supply -/

theorem managerClientOrderId_ne_empty (accountId positionId action : String) (nowMs : ℕ) :
    managerClientOrderId accountId positionId action nowMs ≠ "" := by
  intro h
  have hlen := congrArg String.length h
  simp [managerClientOrderId] at hlen

theorem positionClientOrderId_ne_empty (positionId kind : String) (nowMs : ℕ) :
    positionClientOrderId positionId kind nowMs ≠ "" := by
  intro h
  have hlen := congrArg String.length h
  simp [positionClientOrderId] at hlen

theorem runtimeOrderId_ne_empty (positionId kind : String) (nowMs : ℕ) :
    runtimeOrderId positionId kind nowMs ≠ "" := by
  intro h
  have hlen := congrArg (fun s => s.toList.length) h
  simp [runtimeOrderId] at hlen

/-- What an emergency close needs to know, as a producer's dictionary answers it. -/
structure Supplies (task : OrderTask) (position : PositionContext) (side : Option OrderSide) :
    Prop where
  isSl : task.action.isSl = true
  positionId : task.positionId = position.positionId
  symbol : task.params.lookup "symbol" = .str position.symbol
  side : task.params.lookup "side" = side.elim .none .side
  quantity : task.params.inheritedQuantity = .float position.currentQuantity
  hasQuantity : 0 < position.currentQuantity → task.params.hasPositiveEmergencyQuantity = true
  clientOrderId : ∃ id ≠ "", task.params.lookup "client_order_id" = .str id

open TaskParams in
theorem SlProducer.supplies {producer : SlProducer} {accountId : String}
    {position : PositionContext} {now : ℚ} {nowMs : ℕ} {task : OrderTask}
    (h : producer.task accountId position now nowMs = some task) :
    Supplies task position
      (if producer.isWatcher then none
        else some (PositionContext.closingOrderSide position.side)) := by
  cases producer with
  | runtimeInitialization =>
    cases h
    refine ⟨rfl, rfl, ?_, ?_, ?_, ?_, _, runtimeOrderId_ne_empty position.positionId "sl" nowMs,
      ?_⟩
    all_goals
      simp [initializePositionRuntimeSl, InsertionDict.ofList, lookup_assign, getD_assign,
        inheritedQuantity, hasPositiveEmergencyQuantity, quantityKeys, PyVal.toFloat?,
        SlProducer.isWatcher]
  | initialProtection =>
    simp only [SlProducer.task, enqueueInitialProtectionSl] at h
    split at h
    · cases h
      refine ⟨rfl, rfl, ?_, ?_, ?_, ?_, _,
        managerClientOrderId_ne_empty accountId position.positionId "sl" nowMs, ?_⟩
      all_goals
        simp [InsertionDict.ofList, lookup_assign, getD_assign, inheritedQuantity,
          hasPositiveEmergencyQuantity, quantityKeys, PyVal.toFloat?, SlProducer.isWatcher]
    · exact absurd h (by simp)
  | emergencySl =>
    simp only [SlProducer.task, enqueueEmergencySl] at h
    split at h
    · exact absurd h (by simp)
    · cases h
      refine ⟨rfl, rfl, ?_, ?_, ?_, ?_, _,
        managerClientOrderId_ne_empty accountId position.positionId "emergency-sl" nowMs, ?_⟩
      all_goals
        simp [InsertionDict.ofList, lookup_assign, getD_assign, inheritedQuantity,
          hasPositiveEmergencyQuantity, quantityKeys, PyVal.toFloat?, SlProducer.isWatcher]
  | multiTpShift newSlPrice triggeredLevel markPrice onSuccess =>
    cases h
    refine ⟨rfl, rfl, ?_, ?_, ?_, ?_, _,
      positionClientOrderId_ne_empty position.positionId "sl" nowMs, ?_⟩
    all_goals
      cases markPrice <;>
        simp [enqueueSlReplace, InsertionDict.ofList, lookup_assign, getD_assign,
          inheritedQuantity, hasPositiveEmergencyQuantity, quantityKeys, PyVal.toFloat?,
          SlProducer.isWatcher]
  | realtimePipeline newSlPrice reason =>
    simp only [SlProducer.task, dispatchReplaceSl] at h
    split at h
    · exact absurd h (by simp)
    · split at h
      · exact absurd h (by simp)
      · cases h
        refine ⟨rfl, rfl, ?_, ?_, ?_, ?_, _,
          managerClientOrderId_ne_empty accountId position.positionId "rt-sl" nowMs, ?_⟩
        all_goals
          simp [InsertionDict.ofList, lookup_assign, getD_assign, inheritedQuantity,
            hasPositiveEmergencyQuantity, quantityKeys, PyVal.toFloat?, SlProducer.isWatcher]
  | watcherTightenSl currentPrice atrValue offsetMultiplier indicator condition =>
    simp only [SlProducer.task, tightenSl] at h
    split at h
    · exact absurd h (by simp)
    · split at h
      · exact absurd h (by simp)
      · split at h
        · exact absurd h (by simp)
        · cases h
          refine ⟨rfl, rfl, ?_, ?_, ?_, ?_, _,
            positionClientOrderId_ne_empty position.positionId "watcher-sl" nowMs, ?_⟩
          all_goals
            simp [InsertionDict.ofList, lookup_assign, getD_assign, inheritedQuantity,
              hasPositiveEmergencyQuantity, quantityKeys, PyVal.toFloat?, SlProducer.isWatcher]

/-! ## The emergency task on the queue -/

namespace QueueState

open BinaryHeap

/-- The key of every emergency task of a position. -/
def emergencyKey (positionId : String) : TaskKey := ⟨positionId, .emergencyMarketClose, .bare⟩

/-- The actions that the cleanup of a closed position purges; no other caller purges. -/
def cleanupActions : List TaskAction := [.placeSl, .replaceSl, .placeTp, .replaceTp]

/-- A purge, if the label is one, is that of the cleanup. -/
def PurgesOrders : QueueStep → Prop
  | .purgePending _ actions => actions = cleanupActions
  | _ => True

instance : DecidablePred PurgesOrders := by
  intro a
  unfold PurgesOrders
  split <;> infer_instance

/-- What every step that purges no emergency preserves: a pending emergency is on the heap or
being executed, and no tombstone waits for it. -/
structure EmergencyInvariant (s : QueueState) : Prop where
  wf : WellFormed s
  waits : ∀ k id, (k, id) ∈ s.pending.entries → k.action = .emergencyMarketClose →
    id ∈ s.heap ∨ s.phase.held = some (id, k)
  no_tombstone : ∀ k ∈ s.tombstoned, k.action ≠ .emergencyMarketClose

theorem EmergencyInvariant.enqueue {s : QueueState} (hs : EmergencyInvariant s)
    (task : OrderTask) : EmergencyInvariant (s.enqueue task) := by
  have hwf := hs.wf.enqueue task
  rcases enqueue_cases hs.wf.keys_current task with ⟨k, id, -, h⟩ | ⟨-, h⟩
  · refine ⟨hwf, fun k' i hi hk' => ?_, fun k' hk' => hs.no_tombstone k' (h.tombstoned ▸ hk')⟩
    rw [h.heap, h.phase]
    rcases (h.pending k' i).mp hi with ⟨rfl, rfl⟩ | ⟨-, -, hi'⟩
    · -- only stop-loss tasks change their key
      have hk : k = task.key := by
        by_contra hne
        have haction : task.action = .emergencyMarketClose := hk'
        rw [h.rekeyed hne] at haction
        cases haction
      exact hs.waits task.key i (hk ▸ h.entry) hk'
    · exact hs.waits k' i hi' hk'
  · refine ⟨hwf, fun k' i hi hk' => ?_, fun k' hk' => hs.no_tombstone k' (h.tombstoned ▸ hk')⟩
    rw [h.heap.mem_iff, h.phase, List.mem_cons]
    rcases (h.pending k' i).mp hi with ⟨-, rfl⟩ | ⟨-, hi'⟩
    · exact Or.inl (Or.inl rfl)
    · exact (hs.waits k' i hi' hk').imp_left Or.inr

theorem EmergencyInvariant.step {s t : QueueState} {a : QueueStep} (hs : EmergencyInvariant s)
    (hpurge : PurgesOrders a) (h : step s a = some t) : EmergencyInvariant t := by
  have heffect := effect_of_step h
  have hwf := heffect.wellFormed hs.wf
  cases heffect with
  | enqueue task => exact hs.enqueue task
  | purge positionId actions =>
    refine ⟨hwf, fun k id hid hk => hs.waits k id (mem_pending_purgePending.mp hid).1 hk,
      fun k hk => ?_⟩
    simp only [purgePending, Finset.mem_union, List.mem_toFinset, List.mem_map] at hk
    rcases hk with hk | ⟨⟨k', id⟩, hmatch, rfl⟩
    · exact hs.no_tombstone k hk
    · obtain ⟨hentry, -, haction⟩ := mem_purgeMatches.mp hmatch
      rw [show actions = cleanupActions from hpurge] at haction
      intro hk'
      rw [show k' = (s.store id).key from hs.wf.keys_current k' id hentry] at hk'
      rw [show (s.store id).action = .emergencyMarketClose from hk'] at haction
      exact absurd haction (by decide)
  | move same held _ _ _ _ =>
    refine ⟨hwf, fun k id hid hk => ?_, fun k hk => hs.no_tombstone k (same.tombstoned ▸ hk)⟩
    rw [same.heap, held]
    exact hs.waits k id (same.pending ▸ hid) hk
  | take phase popped =>
    refine ⟨hwf, fun k i hi hk => ?_, hs.no_tombstone⟩
    rcases hs.waits k i hi hk with hheap | hheld
    · rcases (mem_of_pop _ popped).mp hheap with rfl | hrest
      · exact Or.inr (congrArg (fun key => some (i, key)) (hs.wf.keys_current k i hi).symm)
      · exact Or.inl hrest
    · rw [phase] at hheld
      exact absurd hheld (by simp [LoopPhase.held])
  | drop phase hit =>
    rename_i id key
    refine ⟨hwf, fun k i hi hk => ?_, fun k hk => hs.no_tombstone k (Finset.mem_of_mem_erase hk)⟩
    rcases hs.waits k i hi hk with hheap | hheld
    · exact Or.inl hheap
    · -- an emergency is not dropped, its key carries no tombstone
      rw [phase] at hheld
      simp only [LoopPhase.held, Option.some.injEq, Prod.mk.injEq] at hheld
      exact absurd (hheld.2 ▸ hk) (hs.no_tombstone key hit)
  | pass phase miss =>
    refine ⟨hwf, fun k i hi hk => ?_, hs.no_tombstone⟩
    have := hs.waits k i hi hk
    rw [phase] at this
    exact this
  | execute phase live defaultId =>
    rename_i id key
    obtain ⟨hheap, -, -, hpending, htomb, hheld, -, -, -⟩ :=
      beginExecution_spec s id key live defaultId
    refine ⟨hwf, fun k i hi hk => ?_, fun k hk => hs.no_tombstone k (htomb ▸ hk)⟩
    have := hs.waits k i (hpending ▸ hi) hk
    rw [phase] at this
    rw [hheap, hheld]
    exact this
  | putBack phase =>
    rename_i id key
    refine ⟨hwf, fun k i hi hk => Or.inl ((mem_push _).mpr ?_), hs.no_tombstone⟩
    have hheld : s.phase.held = some (id, key) := by
      rcases phase with h | h <;> rw [h] <;> rfl
    rcases hs.waits k i hi hk with hheap | hmine
    · exact Or.inr hheap
    · rw [hheld, Option.some_inj, Prod.mk.injEq] at hmine
      exact Or.inl hmine.1.symm
  | escalate phase escalated =>
    rename_i id key error emergency now
    have henq := hs.enqueue emergency
    have hphase : (s.enqueue emergency).phase = .escalating id key error :=
      (phase_enqueue hs.wf.keys_current emergency).trans phase
    refine ⟨hwf, fun k i hi hk => ?_, henq.no_tombstone⟩
    have := henq.waits k i hi hk
    rw [hphase] at this
    exact this
  | finish phase =>
    refine ⟨hwf, fun k i hi hk => ?_, hs.no_tombstone⟩
    obtain ⟨hne, hi'⟩ := InsertionDict.mem_remove.mp hi
    rcases hs.waits k i hi' hk with hheap | hheld
    · exact Or.inl hheap
    · rw [phase] at hheld
      simp only [LoopPhase.held, Option.some.injEq, Prod.mk.injEq] at hheld
      exact absurd hheld.2.symm hne

theorem emergencyInvariant_initial : EmergencyInvariant initial where
  wf := wellFormed_initial
  waits _ _ h := absurd h List.not_mem_nil
  no_tombstone _ h := absurd h (Finset.notMem_empty _)

theorem emergencyInvariant_of_run {s : QueueState} {as : List QueueStep}
    (hrun : run initial as = some s) (hpurges : ∀ a ∈ as, PurgesOrders a) :
    EmergencyInvariant s :=
  StepSystem.invariant_of_alongRun step (fun _ _ _ hI hP h => hI.step hP h)
    emergencyInvariant_initial (StepSystem.alongRun_of_forall step hpurges) hrun

/-! ## Failure and escalation -/

/-- The error ends the task for good: it is fatal, or the retries are used up. -/
def Escalates (task : OrderTask) : TaskError → Bool
  | .transient _ => task.maxRetries ≤ task.retryCount
  | .other _ => true
  | .wouldImmediatelyTrigger _ | .positionAlreadyFlat _ => false

/-- The label is a move of a caller and not of the loop. -/
def isCaller : QueueStep → Bool
  | .enqueue _ | .purgePending .. | .stop => true
  | _ => false

/-- An emergency close of the position waits to be executed and will reach `partial_close`. -/
def Armed (s : QueueState) (positionId : String) : Prop :=
  ∃ id ∈ s.heap, s.pending.get? (emergencyKey positionId) = some id ∧
    emergencyKey positionId ∉ s.tombstoned ∧
    (s.store id).action = .emergencyMarketClose ∧ ReachesPartialClose (s.store id).params

theorem phase_of_callers {s t : QueueState} {callers : List QueueStep} (hs : WellFormed s)
    (hcallers : ∀ a ∈ callers, isCaller a = true) (hrun : run s callers = some t) :
    t.phase = s.phase := by
  induction callers generalizing s with
  | nil => exact congrArg phase (Option.some_inj.mp hrun).symm
  | cons a callers ih =>
    obtain ⟨s', hstep, hrest⟩ := (StepSystem.run_cons_eq_some step).mp hrun
    have hphase : s'.phase = s.phase := by
      have ha := hcallers a (List.mem_cons_self ..)
      cases a with
      | enqueue task =>
        cases hstep
        exact phase_enqueue hs.keys_current task
      | purgePending positionId actions =>
        cases hstep
        rfl
      | stop =>
        cases hstep
        rfl
      | _ => exact absurd ha (by simp [isCaller])
    rw [ih ((effect_of_step hstep).wellFormed hs)
      (fun b hb => hcallers b (List.mem_cons_of_mem _ hb)) hrest, hphase]

theorem escalating_of_release {s t : QueueState} {id : TaskId} {key : TaskKey} {event : ℕ}
    {error : TaskError} (hphase : s.phase = .releasing id key event (some error))
    (hfails : Escalates (s.store id) error = true) (h : step s .release = some t) :
    t.phase = .escalating id key error := by
  simp only [step, hphase, Option.some.injEq] at h
  subst h
  cases error with
  | transient message =>
    have hretries : ¬(s.store id).retryCount < (s.store id).maxRetries := by
      simpa [Escalates] using hfails
    simp [routeOutcome, unmark, hretries]
  | other message => rfl
  | wouldImmediatelyTrigger code => exact absurd hfails (by simp [Escalates])
  | positionAlreadyFlat code => exact absurd hfails (by simp [Escalates])

theorem armed_enqueue_iff {s : QueueState} (hs : EmergencyInvariant s) {id : TaskId}
    {key : TaskKey} (hheld : s.phase.held = some (id, key))
    (hsl : (s.store id).action.isSl = true) {emergency : OrderTask}
    (haction : emergency.action = .emergencyMarketClose) :
    (s.enqueue emergency).Armed emergency.positionId ↔
      ReachesPartialClose emergency.params := by
  have hkey : emergency.key = emergencyKey emergency.positionId := by
    rw [OrderTask.key, haction]
    rfl
  have hclear := (hs.enqueue emergency).no_tombstone (emergencyKey emergency.positionId)
  have hfree : emergencyKey emergency.positionId ∉ (s.enqueue emergency).tombstoned :=
    fun h => hclear h rfl
  -- whichever object carries the task: it is on the heap with the new parameters
  obtain ⟨i, hheap, hentry, hparams, hact⟩ : ∃ i, i ∈ (s.enqueue emergency).heap ∧
      (emergencyKey emergency.positionId, i) ∈ (s.enqueue emergency).pending.entries ∧
      ((s.enqueue emergency).store i).params = emergency.params ∧
      ((s.enqueue emergency).store i).action = .emergencyMarketClose := by
    rcases enqueue_cases hs.wf.keys_current emergency with ⟨k, i, -, h⟩ | ⟨-, h⟩
    · obtain ⟨new, hstore, hparams, -, hact⟩ := h.store
      have hk : k = emergency.key := by
        by_contra hne
        rw [h.rekeyed hne] at haction
        cases haction
      refine ⟨i, ?_, hkey ▸ (h.pending _ _).mpr (Or.inl ⟨rfl, rfl⟩), ?_, ?_⟩
      · rw [h.heap]
        rcases hs.waits k i h.entry (by rw [hk, hkey]; rfl) with hheap | hmine
        · exact hheap
        · -- the task in the loop's hands is a stop-loss task
          rw [hheld, Option.some_inj, Prod.mk.injEq] at hmine
          rw [hmine.1, h.action, haction] at hsl
          exact absurd hsl (by simp [TaskAction.isSl])
      · rw [hstore, Function.update_self, hparams]
      · rw [hstore, Function.update_self, hact, haction]
    · refine ⟨s.fresh, h.heap.mem_iff.mpr (List.mem_cons_self ..),
        hkey ▸ (h.pending _ _).mpr (Or.inl ⟨rfl, rfl⟩), ?_, ?_⟩
      · rw [h.store, Function.update_self]
      · rw [h.store, Function.update_self, haction]
  have hget := InsertionDict.get?_eq_some_iff.mpr hentry
  constructor
  · rintro ⟨i', -, hget', -, -, hreach⟩
    obtain rfl : i = i' := Option.some_inj.mp (hget.symm.trans hget')
    rwa [hparams] at hreach
  · exact fun hreach => ⟨i, hheap, hget, hfree, hact, hparams ▸ hreach⟩

theorem escalationOf_eq {task : OrderTask} (error : TaskError) (now : ℚ)
    (hsl : task.action.isSl = true) (hquantity : task.params.hasPositiveEmergencyQuantity = true) :
    ∃ emergency reason, escalationOf task error now = some emergency ∧
      emergency.positionId = task.positionId ∧ emergency.action = .emergencyMarketClose ∧
      emergency.params = emergencyParams task.params reason := by
  have haux : ∀ reason, ∃ emergency reason', escalation task reason now = some emergency ∧
      emergency.positionId = task.positionId ∧ emergency.action = .emergencyMarketClose ∧
      emergency.params = emergencyParams task.params reason' := by
    intro reason
    refine ⟨_, reason, if_pos ⟨hsl, hquantity⟩, rfl, rfl, ?_⟩
    dsimp only
  cases error <;> exact haux _

/-- **A failed stop is followed by an emergency close that works** if and only if the producer of
the stop was not the watcher and the position has a symbol.

`s` is any reachable state in which the task of some producer has just failed for good, and
`callers` is what other coroutines do before the escalation reads the parameters. -/
theorem armed_iff {producer : SlProducer} {accountId : String} {position : PositionContext}
    {now : ℚ} {nowMs : ℕ} {task : OrderTask}
    (hproduced : producer.task accountId position now nowMs = some task)
    (hquantity : 0 < position.currentQuantity) {s : QueueState} {as : List QueueStep}
    (hrun : run initial as = some s) {id : TaskId} {key : TaskKey} {event : ℕ}
    {error : TaskError} (hphase : s.phase = .releasing id key event (some error))
    (hfails : Escalates (s.store id) error = true) {callers : List QueueStep}
    (hcallers : ∀ a ∈ callers, isCaller a = true) (hpurges : ∀ a ∈ as ++ callers, PurgesOrders a)
    {w : QueueState} (hrun' : run s (.release :: callers) = some w)
    (hparams : (w.store id).params = task.params) (haction : (w.store id).action = task.action)
    (hposition : (w.store id).positionId = task.positionId) (later : ℚ) :
    ∃ t, step w (.escalate later) = some t ∧
      (t.Armed position.positionId ↔ producer.isWatcher = false ∧ position.symbol ≠ "") := by
  have hsupplies := SlProducer.supplies hproduced
  obtain ⟨u, hrelease, hcallersRun⟩ := (StepSystem.run_cons_eq_some step).mp hrun'
  have hwfu : WellFormed u := (effect_of_step hrelease).wellFormed (wellFormed_of_run hrun)
  have hwphase : w.phase = .escalating id key error :=
    (phase_of_callers hwfu hcallers hcallersRun).trans
      (escalating_of_release hphase hfails hrelease)
  have hw : EmergencyInvariant w := by
    have hall : run initial (as ++ .release :: callers) = some w :=
      (StepSystem.run_append step initial as (.release :: callers)).trans
        (Option.bind_eq_some_iff.mpr ⟨s, hrun, hrun'⟩)
    refine emergencyInvariant_of_run hall fun a ha => ?_
    rcases List.mem_append.mp ha with ha | ha
    · exact hpurges a (List.mem_append_left _ ha)
    · rcases List.mem_cons.mp ha with rfl | ha
      · exact trivial
      · exact hpurges a (List.mem_append_right _ ha)
  have hsl : (w.store id).action.isSl = true := by rw [haction, hsupplies.isSl]
  obtain ⟨emergency, reason, hescalation, hepos, heact, heparams⟩ :=
    escalationOf_eq error later hsl (by rw [hparams, hsupplies.hasQuantity hquantity])
  obtain ⟨clientOrderId, hne, hclient⟩ := hsupplies.clientOrderId
  refine ⟨{ w.enqueue emergency with phase := .cleanup id key }, ?_, ?_⟩
  · simp only [step, hwphase, hescalation]
  · have hheld : w.phase.held = some (id, key) := by
      rw [hwphase]
      rfl
    have harmed := armed_enqueue_iff hw hheld hsl heact
    rw [hepos, hposition, hsupplies.positionId] at harmed
    refine harmed.trans ?_
    rw [heparams, hparams, reachesPartialClose_emergencyParams hsupplies.symbol hsupplies.side
      hsupplies.quantity hquantity hclient hne reason]
    cases producer.isWatcher <;> simp

/-! ## The watcher's stop -/

/-- A long position with a live stop. -/
def longPosition : PositionContext where
  positionId := "7"
  symbol := "BTCUSDT"
  side := .long
  entryPrice := 100
  originalQuantity := 1
  currentQuantity := 1
  currentSlPrice := 90
  slExchangeOrderId := some "sl-1"

/-- The realtime pipeline moves the stop, and the exchange rejects the order. -/
def realtimeStopRejected : List QueueStep :=
  [.startProcessing,
   .enqueue
    ((dispatchReplaceSl "1" longPosition 95 "trailing" 0 0).getD (initial.store 0)),
   .dequeue, .checkTombstone, .headroom, .execute .raised "",
   .adapterRaises (.other "rejected")]

/-- The watcher tightens the stop, and the exchange rejects the order. -/
def watcherStopRejected : List QueueStep :=
  [.startProcessing,
   .enqueue
    ((tightenSl longPosition 110 10 1 "ATR" "> 1" 0 0).getD (initial.store 0)),
   .dequeue, .checkTombstone, .headroom, .execute .raised "",
   .adapterRaises (.other "rejected")]

/-- Behind the rejection: the task is escalated, and its emergency task executed against a live
position. -/
def emergencyExecuted : List QueueStep :=
  [.release, .escalate 1, .cleanup, .dequeue, .checkTombstone, .headroom,
   .execute (.snapshot ⟨.long, 1, 110⟩) "", .release, .escalate 1, .cleanup]

theorem armed_realtimeStopRejected :
    ∃ s w t, run initial realtimeStopRejected = some s ∧ run s [.release] = some w ∧
      step w (.escalate 1) = some t ∧ t.Armed "7" := by
  have hend : (run initial realtimeStopRejected).map (fun s =>
      decide (s.phase = .releasing 0 (s.store 0).key 0 (some (.other "rejected")))) =
        some true := by
    decide +kernel
  obtain ⟨s, hs, hphase⟩ := Option.map_eq_some_iff.mp hend
  have hafter : ((run initial realtimeStopRejected).bind fun s => run s [.release]).map (fun w =>
      decide (dispatchReplaceSl "1" longPosition 95 "trailing" 0 0 = some (w.store 0))) =
        some true := by
    decide +kernel
  rw [hs] at hafter
  obtain ⟨w, hw, htask⟩ := Option.map_eq_some_iff.mp hafter
  have hproduced : SlProducer.task "1" longPosition 0 0 (.realtimePipeline 95 "trailing") =
      some (w.store 0) :=
    of_decide_eq_true htask
  have hcallers : ∀ a ∈ ([] : List QueueStep), isCaller a = true := by simp
  obtain ⟨t, ht, harmed⟩ := armed_iff hproduced (by decide +kernel) hs (of_decide_eq_true hphase)
    rfl hcallers (by decide +kernel) hw rfl rfl rfl 1
  exact ⟨s, w, t, hs, hw, ht, harmed.mpr (by decide)⟩

/-- **The watcher's stop leaves nothing behind**: its emergency task has no side, and when the
queue has come to rest the adapter has seen nothing but the rejected stop. -/
theorem tighten_sl_unprotected :
    (tightenSl longPosition 110 10 1 "ATR" "> 1" 0 0).isSome ∧
      (∃ t, run initial (watcherStopRejected ++ [.release, .escalate 1]) = some t ∧
        ¬t.Armed "7") ∧
      ∃ t, run initial (watcherStopRejected ++ emergencyExecuted) = some t ∧ t.heap = [] ∧
        t.phase = .polling ∧ t.history.handed.map Prod.fst = [0] := by
  refine ⟨by decide +kernel, ?_, ?_⟩
  · have hend : (run initial (watcherStopRejected ++ [.release, .escalate 1])).map (fun t =>
        decide (t.pending.get? (emergencyKey "7") = some 1 ∧
          executeTask .emergencyMarketClose (t.store 1).params (.snapshot ⟨.long, 1, 110⟩) "" =
            .error (.other "Missing order side parameter: side"))) = some true := by
      decide +kernel
    obtain ⟨t, ht, hstate⟩ := Option.map_eq_some_iff.mp hend
    obtain ⟨hget, hexec⟩ := of_decide_eq_true hstate
    refine ⟨t, ht, ?_⟩
    rintro ⟨id, -, hget', -, -, hreach⟩
    obtain rfl : 1 = id := Option.some_inj.mp (hget.symm.trans hget')
    obtain ⟨_, _, _, _, -, -, -, hcall⟩ := hreach ⟨.long, 1, 110⟩ ""
      (by norm_num [emergencyCloseDustEpsilon])
    rw [hexec] at hcall
    cases hcall
  · have hend : (run initial (watcherStopRejected ++ emergencyExecuted)).map (fun t =>
        decide (t.heap = [] ∧ t.phase = .polling ∧ t.history.handed.map Prod.fst = [0])) =
          some true := by
      decide +kernel
    obtain ⟨t, ht, hstate⟩ := Option.map_eq_some_iff.mp hend
    exact ⟨t, ht, of_decide_eq_true hstate⟩

end QueueState

end AdviserConstructor
