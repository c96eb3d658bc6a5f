import AdviserConstructor.Ws.TpEvents

/-!
# What the handlers do not read

The transition log and the stop-loss history of a position are written and never read, and the
state that a disconnect leaves behind is read by `SYNC_COMPLETE` only.  So two positions that
differ in nothing else stay so, whichever handler the two go through: the lifecycle handlers of
`app/services/ws/manager.py` are functions of the rest, which is the `bare` position.

* `bare_routeLifecycleEvent`, `bare_handlePositionUpdate`: what a handler does to a position, and
  the tasks that it enqueues, are determined by the bare one.
-/

namespace AdviserConstructor

/-- The position without its transition log, the state before a disconnect and the stop-loss
history. -/
def PositionContext.bare (position : PositionContext) : PositionContext :=
  { position with
    stateMachine := { state := position.stateMachine.state }
    slHistory := [] }

/-- A handler's outcome, as far as the bare position goes and apart from the reconciler. -/
def Handled.bare (handled : Handled) : Handled :=
  { handled with position := handled.position.bare, reconciler := none }

namespace PositionContext

/-- `_enqueue_initial_protection_orders`. -/
def enqueueInitialProtection (answers : Answers) (position : PositionContext) : List OrderTask :=
  (enqueueInitialProtectionSl answers.accountId position answers.now answers.nowMs).toList ++
    position.enqueueInitialProtectionTps answers

variable (p : PositionContext) (answers : Answers)

@[simp] theorem bare_bare : p.bare.bare = p.bare := rfl

@[simp] theorem bare_state : p.bare.state = p.state := rfl

@[simp] theorem bare_currentQuantity : p.bare.currentQuantity = p.currentQuantity := rfl

variable {trigger : TransitionTrigger}

theorem bare_machine_transition (hne : trigger ≠ .syncComplete) :
    (p.bare.stateMachine.transition trigger).map (fun moved => (moved.1, moved.2.state)) =
      (p.stateMachine.transition trigger).map fun moved => (moved.1, moved.2.state) := by
  have hpair : ∀ m : PositionStateMachine,
      (m.transition trigger).map (fun moved => (moved.1, moved.2.state)) =
        (validTransitions m.state trigger).map fun state => (state, state) := by
    intro m
    rw [← PositionStateMachine.transition_of_ne_syncComplete hne]
    cases h : m.transition trigger with
    | none => rfl
    | some moved =>
      simp [PositionStateMachine.transition_state h]
  rw [hpair, hpair]
  rfl

theorem bare_machine_cases (hne : trigger ≠ .syncComplete) :
    (p.stateMachine.transition trigger = none ∧ p.bare.stateMachine.transition trigger = none) ∨
      ∃ next m m', p.stateMachine.transition trigger = some (next, m) ∧
        p.bare.stateMachine.transition trigger = some (next, m') ∧ m.state = m'.state := by
  have h := bare_machine_transition p hne
  cases hp : p.stateMachine.transition trigger with
  | none =>
    rw [hp, Option.map_none, Option.map_eq_none_iff] at h
    exact Or.inl ⟨rfl, h⟩
  | some moved =>
    obtain ⟨next, m⟩ := moved
    rw [hp] at h
    obtain ⟨⟨next', m'⟩, hbare, hsame⟩ := Option.map_eq_some_iff.mp h
    obtain ⟨rfl, hstate⟩ := Prod.mk.inj hsame
    exact Or.inr ⟨next', m, m', rfl, hbare, hstate.symm⟩

theorem read_congr {α : Type} (read : PositionContext → α)
    (hread : ∀ position, read position.bare = read position) {p q : PositionContext}
    (h : p.bare = q.bare) : read p = read q := by
  rw [← hread p, ← hread q, h]

/-! ## Transitions and syncs -/

theorem bare_transition (hne : trigger ≠ .syncComplete) :
    (p.bare.transition trigger).bare = (p.transition trigger).bare := by
  unfold transition
  rcases bare_machine_cases p hne with ⟨hp, hb⟩ | ⟨next, m, m', hp, hb, hstate⟩
  · rw [hp, hb]
    rfl
  · rw [hp, hb]
    simp only [bare, hstate]

theorem bare_applySyncTransition (target : PositionState) (hne : trigger ≠ .syncComplete) :
    (p.bare.applySyncTransition trigger target).bare =
      (p.applySyncTransition trigger target).bare := by
  unfold applySyncTransition
  rcases bare_machine_cases p hne with ⟨hp, hb⟩ | ⟨next, m, m', hp, hb, hstate⟩
  · rw [hp, hb]
    rfl
  · rw [hp, hb]
    simp only [bare, hstate]

theorem bare_syncPosition :
    (p.bare.syncPosition answers false).1.bare = (p.syncPosition answers false).1.bare := by
  have hclosed :
      (applySyncTransition { p.bare with currentQuantity := 0 } .allClosed .closed).bare =
        (applySyncTransition { p with currentQuantity := 0 } .allClosed .closed).bare :=
    bare_applySyncTransition { p with currentQuantity := 0 } .closed (by simp)
  unfold syncPosition
  cases answers.sync with
  | raised => rfl
  | noPosition => exact hclosed
  | snapshot live =>
    dsimp only
    by_cases hzero : live.size = 0
    · rw [if_pos hzero, if_pos hzero]
      exact hclosed
    · simp only [hzero, Bool.false_eq_true, bare_state]
      by_cases hstate : p.state ∈ reopenedBySync
      · simp only [hstate]
        rfl
      · simp only [hstate]
        rfl

theorem bare_applyTransition (hne : trigger ≠ .syncComplete) :
    (p.bare.applyTransition answers trigger).1 = (p.applyTransition answers trigger).1 ∧
      (p.bare.applyTransition answers trigger).2.bare =
        (p.applyTransition answers trigger).2.bare := by
  unfold applyTransition
  rcases bare_machine_cases p hne with ⟨hp, hb⟩ | ⟨next, m, m', hp, hb, hstate⟩
  · rw [hp, hb]
    exact ⟨rfl, bare_syncPosition p answers⟩
  · rw [hp, hb]
    refine ⟨rfl, ?_⟩
    simp only [bare, hstate]

theorem applyTransition_congr {p q : PositionContext} (h : p.bare = q.bare)
    {trigger : TransitionTrigger} (hne : trigger ≠ .syncComplete) :
    (p.applyTransition answers trigger).1 = (q.applyTransition answers trigger).1 ∧
      (p.applyTransition answers trigger).2.bare = (q.applyTransition answers trigger).2.bare := by
  obtain ⟨hp, hp'⟩ := bare_applyTransition p answers hne
  obtain ⟨hq, hq'⟩ := bare_applyTransition q answers hne
  rw [← hp, ← hp', ← hq, ← hq', h]
  exact ⟨rfl, rfl⟩

theorem bare_canTransition (trigger : TransitionTrigger) :
    p.bare.stateMachine.canTransition trigger = p.stateMachine.canTransition trigger := rfl

theorem closePosition_congr {p q : PositionContext} (h : p.bare = q.bare)
    {trigger : TransitionTrigger} (hne : trigger ≠ .syncComplete) :
    (p.closePosition answers trigger).1 = (q.closePosition answers trigger).1 ∧
      (p.closePosition answers trigger).2.bare = (q.closePosition answers trigger).2.bare := by
  have hcan : p.stateMachine.canTransition trigger = q.stateMachine.canTransition trigger := by
    rw [← bare_canTransition p, ← bare_canTransition q, h]
  refine applyTransition_congr answers ?_ (by simp)
  rw [hcan]
  split
  · exact (applyTransition_congr answers h hne).2
  · exact h

theorem bare_cancelRemaining : (p.cancelRemaining answers).bare = p.bare.cancelRemaining answers :=
  rfl

theorem settled_congr {h h' : Handled} (hsame : h.bare = h'.bare) :
    (h.settled answers).bare = (h'.settled answers).bare := by
  have hposition : h.bare.position = h'.bare.position := by rw [hsame]
  have hcleanup : h.bare.cleanup = h'.bare.cleanup := by rw [hsame]
  have hleft : ∀ handled : Handled, (handled.settled answers).bare =
      if handled.bare.cleanup then handled.bare.position.cancelRemaining answers
      else handled.bare.position := by
    intro handled
    exact apply_ite bare _ _ _
  rw [hleft, hleft, hposition, hcleanup]

theorem tasks_congr {h h' : Handled} (hsame : h.bare = h'.bare) : h.tasks = h'.tasks := by
  have htasks : h.bare.tasks = h'.bare.tasks := by rw [hsame]
  exact htasks

/-! ## Handlers -/

/-- **A position update**. -/
theorem bare_handlePositionUpdate (size : ℚ) (reconciler reconciler' : Option ℚ) :
    (p.bare.handlePositionUpdate answers size reconciler).bare =
      (p.handlePositionUpdate answers size reconciler').bare := by
  unfold handlePositionUpdate
  by_cases hflat : |size| ≤ 0
  · rw [if_pos hflat, if_pos hflat]
    by_cases hopen : p.state ≠ .closed ∨ 0 < p.currentQuantity
    · have hbare : p.bare.state ≠ .closed ∨ 0 < p.bare.currentQuantity := hopen
      rw [if_pos hopen, if_pos hbare]
      have hclosed :
          (closePosition answers { p.bare with currentQuantity := 0 } .manualClose).2.bare =
            (closePosition answers { p with currentQuantity := 0 } .manualClose).2.bare :=
        (@closePosition_congr answers { p.bare with currentQuantity := 0 }
          { p with currentQuantity := 0 } rfl .manualClose (by simp)).2
      unfold Handled.bare
      rw [hclosed]
    · have hbare : ¬(p.bare.state ≠ .closed ∨ 0 < p.bare.currentQuantity) := hopen
      rw [if_neg hopen, if_neg hbare]
      rfl
  · rw [if_neg hflat, if_neg hflat]
    by_cases hsame : |size| = p.currentQuantity
    · have hbare : |size| = p.bare.currentQuantity := hsame
      rw [if_pos hsame, if_pos hbare]
      rfl
    · have hbare : ¬|size| = p.bare.currentQuantity := hsame
      rw [if_neg hsame, if_neg hbare]
      rfl

theorem transition_congr {p q : PositionContext} (h : p.bare = q.bare)
    (hne : trigger ≠ .syncComplete) :
    (p.transition trigger).bare = (q.transition trigger).bare := by
  rw [← bare_transition p hne, ← bare_transition q hne, h]

theorem can_congr {p q : PositionContext} (h : p.bare = q.bare) (trigger : TransitionTrigger) :
    MultiTp.can p trigger = MultiTp.can q trigger :=
  read_congr (fun position => MultiTp.can position trigger) (fun _ => rfl) h

theorem machine_state_congr {p q : PositionContext} (h : p.bare = q.bare) :
    p.stateMachine.state = q.stateMachine.state :=
  read_congr (fun position => position.stateMachine.state) (fun _ => rfl) h

theorem transitionAllClosed_congr {p q : PositionContext} (h : p.bare = q.bare) :
    (MultiTp.transitionAllClosed p).bare = (MultiTp.transitionAllClosed q).bare := by
  have htp : (p.transition .tpTriggered).bare = (q.transition .tpTriggered).bare :=
    transition_congr h (by simp)
  unfold MultiTp.transitionAllClosed
  dsimp only
  rw [can_congr h, can_congr htp, can_congr htp]
  split
  · exact transition_congr h (by simp)
  · split
    · exact transition_congr htp (by simp)
    · split
      · exact transition_congr (transition_congr htp (by simp)) (by simp)
      · exact htp

theorem transitionPartialClose_congr {p q : PositionContext} (h : p.bare = q.bare) :
    (MultiTp.transitionPartialClose p).bare = (MultiTp.transitionPartialClose q).bare := by
  have hclosing : (p.transition .partialClose).bare = (q.transition .partialClose).bare :=
    transition_congr h (by simp)
  unfold MultiTp.transitionPartialClose
  dsimp only
  rw [can_congr h, machine_state_congr hclosing]
  split
  · split
    · exact transition_congr hclosing (by simp)
    · exact hclosing
  · exact transition_congr (transition_congr h (by simp)) (by simp)

theorem closeOrContinue_congr {p q : PositionContext} (h : p.bare = q.bare) :
    (MultiTp.closeOrContinue p).bare = (MultiTp.closeOrContinue q).bare := by
  have hlevels : p.tpLevels = q.tpLevels := read_congr tpLevels (fun _ => rfl) h
  have hquantity : p.currentQuantity = q.currentQuantity :=
    read_congr currentQuantity (fun _ => rfl) h
  have hsync : ∀ {a b : PositionContext}, a.bare = b.bare → a.syncState.bare = b.syncState.bare :=
    fun hab => congrArg syncState hab
  unfold MultiTp.closeOrContinue
  rw [hlevels, hquantity]
  split
  · exact hsync (transitionAllClosed_congr h)
  · exact hsync (transitionPartialClose_congr h)

/-- **The engine**. -/
theorem bare_handleTpTriggered (level : ℕ) (triggerSource : String) (live : PositionReply)
    (now : ℚ) (nowMs : ℕ) :
    (MultiTp.handleTpTriggered p.bare level triggerSource live now nowMs).1.bare =
        (MultiTp.handleTpTriggered p level triggerSource live now nowMs).1.bare ∧
      (MultiTp.handleTpTriggered p.bare level triggerSource live now nowMs).2 =
        (MultiTp.handleTpTriggered p level triggerSource live now nowMs).2 := by
  unfold MultiTp.handleTpTriggered
  have hlevels : p.bare.tpLevels = p.tpLevels := rfl
  rw [hlevels]
  cases p.tpLevels[level]? with
  | none => exact ⟨rfl, rfl⟩
  | some found =>
    dsimp only
    by_cases halready : MultiTp.alreadyTriggered p level found = true
    · have hbare : MultiTp.alreadyTriggered p.bare level found = true := halready
      rw [if_pos halready, if_pos hbare]
      exact ⟨rfl, rfl⟩
    · have hbare : ¬MultiTp.alreadyTriggered p.bare level found = true := halready
      rw [if_neg halready, if_neg hbare]
      exact ⟨closeOrContinue_congr rfl, rfl⟩

/-! ## Order events -/

theorem bare_handleEntryFillEvent (event : OrderEvent) (reconciler reconciler' : Option ℚ) :
    (p.bare.handleEntryFillEvent answers event reconciler).map Handled.bare =
      (p.handleEntryFillEvent answers event reconciler').map Handled.bare := by
  have hfilled : ∀ {a b : PositionContext}, a.bare = b.bare →
      Handled.bare
          { position := (a.applyTransition answers .entryFilled).2
            reconciler := reconciler
            tasks :=
              if (a.applyTransition answers .entryFilled).1 = some .open then
                (a.applyTransition answers .entryFilled).2.enqueueInitialProtection answers
              else [] } =
        Handled.bare
          { position := (b.applyTransition answers .entryFilled).2
            reconciler := reconciler'
            tasks :=
              if (b.applyTransition answers .entryFilled).1 = some .open then
                (b.applyTransition answers .entryFilled).2.enqueueInitialProtection answers
              else [] } := by
    intro a b h
    obtain ⟨hnext, hposition⟩ := @applyTransition_congr answers a b h .entryFilled (by simp)
    have htasks := read_congr (fun position => position.enqueueInitialProtection answers)
      (fun _ => rfl) hposition
    unfold Handled.bare
    rw [hnext, htasks]
    rw [hposition]
  unfold handleEntryFillEvent
  rw [bare_state]
  split
  · rfl
  · exact congrArg some (hfilled rfl)

theorem bare_handleSlTriggeredEvent (event : OrderEvent) (reconciler reconciler' : Option ℚ) :
    (p.bare.handleSlTriggeredEvent answers event reconciler).map Handled.bare =
      (p.handleSlTriggeredEvent answers event reconciler').map Handled.bare := by
  have hevent : p.bare.isSlTriggerEvent event = p.isSlTriggerEvent event := rfl
  obtain ⟨hnext, hposition⟩ := @applyTransition_congr answers p.bare p rfl .slTriggered (by simp)
  unfold handleSlTriggeredEvent
  rw [hevent, bare_state, bare_currentQuantity]
  split
  · rfl
  · split
    · rfl
    · dsimp only
      rw [hnext]
      split
      · rw [Option.map_some, Option.map_some]
        unfold Handled.bare
        rw [hposition]
      · generalize hbooked : appendSlTriggerHistory event (conditionalReason _ event)
          { (p.bare.applyTransition answers .slTriggered).2 with currentQuantity := 0 } = booked
        generalize hbooked' : appendSlTriggerHistory event (conditionalReason _ event)
          { (p.applyTransition answers .slTriggered).2 with currentQuantity := 0 } = booked'
        have hsame : booked.bare = booked'.bare := by
          rw [← hbooked, ← hbooked']
          exact read_congr
            (fun position => (appendSlTriggerHistory event
              (conditionalReason "Stop loss triggered" event)
              { position with currentQuantity := 0 }).bare) (fun _ => rfl) hposition
        have hclosed := (@applyTransition_congr answers booked booked' hsame .allClosed (by simp)).2
        rw [Option.map_some, Option.map_some]
        unfold Handled.bare
        rw [hclosed]

theorem bare_handleTpTriggeredEvent (event : OrderEvent) (reconciler reconciler' : Option ℚ) :
    (p.bare.handleTpTriggeredEvent answers event reconciler).map Handled.bare =
      (p.handleTpTriggeredEvent answers event reconciler').map Handled.bare := by
  have hmulti : (p.bare.handleMultiTpEvent answers event reconciler).bare =
      (p.handleMultiTpEvent answers event reconciler').bare := by
    have htriggered :
        p.bare.eventMatchesTriggeredLevel event = p.eventMatchesTriggeredLevel event := rfl
    have hmatch : p.bare.matchTpLevel event = p.matchTpLevel event := rfl
    unfold handleMultiTpEvent
    rw [htriggered, hmatch]
    split
    · rfl
    · cases p.matchTpLevel event with
      | none => rfl
      | some matched =>
        obtain ⟨hposition, htask⟩ :=
          bare_handleTpTriggered p matched "multi_tp" answers.live answers.now answers.nowMs
        have hstate := read_congr PositionContext.state (fun _ => rfl) hposition
        have hquantity := read_congr currentQuantity (fun _ => rfl) hposition
        dsimp only [Handled.bare]
        rw [hposition, htask, hstate, hquantity]
  have hsingle : (p.bare.handleSingleTpEvent answers reconciler).bare =
      (p.handleSingleTpEvent answers reconciler').bare := by
    have hclosed : ∀ {a b : PositionContext}, a.bare = b.bare →
        Handled.bare
            { position := (closePosition answers a .tpTriggered).2
              reconciler := reconciler
              cleanup := (closePosition answers a .tpTriggered).1.isSome } =
          Handled.bare
            { position := (closePosition answers b .tpTriggered).2
              reconciler := reconciler'
              cleanup := (closePosition answers b .tpTriggered).1.isSome } := by
      intro a b h
      obtain ⟨hnext, hposition⟩ := @closePosition_congr answers a b h .tpTriggered (by simp)
      unfold Handled.bare
      rw [hnext]
      rw [hposition]
    unfold handleSingleTpEvent
    rw [bare_state, bare_currentQuantity]
    split
    · rfl
    · exact hclosed rfl
  have hevent : p.bare.isTpTriggerEvent event = p.isTpTriggerEvent event := rfl
  have hmode : p.bare.tpMode = p.tpMode := rfl
  have hlevels : p.bare.tpLevels = p.tpLevels := rfl
  unfold handleTpTriggeredEvent
  rw [hevent, hmode, hlevels]
  split
  · rfl
  · split
    · exact congrArg some hmulti
    · exact congrArg some hsingle

/-- **An order event**. -/
theorem bare_routeLifecycleEvent (event : OrderEvent) (reconciler reconciler' : Option ℚ) :
    (p.bare.routeLifecycleEvent answers event reconciler).bare =
      (p.routeLifecycleEvent answers event reconciler').bare := by
  have hmap : ∀ (handled : Option Handled) (position : PositionContext) (reconciler : Option ℚ),
      (handled.getD { position := position, reconciler := reconciler }).bare =
        (handled.map Handled.bare).getD { position := position.bare, reconciler := none } := by
    intro handled position reconciler
    cases handled <;> rfl
  have hor : ∀ a b c : Option Handled, (a.or (b.or c)).map Handled.bare =
      (a.map Handled.bare).or ((b.map Handled.bare).or (c.map Handled.bare)) := by
    intro a b c
    cases a <;> cases b <;> rfl
  unfold routeLifecycleEvent
  rw [hmap, hmap, hor, hor, bare_handleEntryFillEvent p answers event reconciler reconciler',
    bare_handleSlTriggeredEvent p answers event reconciler reconciler',
    bare_handleTpTriggeredEvent p answers event reconciler reconciler', bare_bare]

section Congr

variable {p q : PositionContext} (h : p.bare = q.bare)

include h

theorem routeLifecycleEvent_congr (event : OrderEvent) (reconciler reconciler' : Option ℚ) :
    (p.routeLifecycleEvent answers event reconciler).bare =
      (q.routeLifecycleEvent answers event reconciler').bare := by
  rw [← bare_routeLifecycleEvent p answers event reconciler,
    ← bare_routeLifecycleEvent q answers event reconciler, h]

theorem handlePositionUpdate_congr (size : ℚ) (reconciler reconciler' : Option ℚ) :
    (p.handlePositionUpdate answers size reconciler).bare =
      (q.handlePositionUpdate answers size reconciler').bare := by
  rw [← bare_handlePositionUpdate p answers size reconciler,
    ← bare_handlePositionUpdate q answers size reconciler, h]

theorem fillPosition_congr (level : ℕ) :
    (p.fillPosition level).bare = (q.fillPosition level).bare := by
  unfold fillPosition
  rw [← (bare_handleTpTriggered p level "" .raised 0 0).1,
    ← (bare_handleTpTriggered q level "" .raised 0 0).1, h]

end Congr

end PositionContext
end AdviserConstructor
