import AdviserConstructor.Ws.HandlerInvariants

/-!
# The two states of a position, and its log

The runtime is an event loop: contexts come to be tracked, events call the handlers, and the
handlers take turns at their awaits.  `WsRuntime.Reaches` says which loops there are.

* `states_agree_of_run`: at every await the two states of every context agree, and everything that
  is recorded stands in the table.

The table sends `SYNC_COMPLETE` to `OPEN`.  The machine goes back to the state that the last
disconnect has left, if it remembers one, and that is `OPEN` only because no handler leaves a
context in `ADJUSTING` or `CLOSING` at an await.  Such a state could come with a row; but what the
program writes into a row is a context at an await, or `OPEN`, or `CLOSED`, and `WrittenRow` lists
the writers.  For rows of any kind `agrees_of_run` says what is left: everything that is recorded is
allowed by the table, but for the way back from a reconnect.
-/

namespace AdviserConstructor

open PositionContext Coroutine StepSystem

/-! ## Transition logs -/

/-- The state that the last recorded disconnect has left. -/
def lastDisconnect (log : List TransitionLogEntry) : Option PositionState :=
  (log.reverse.find? fun entry => entry.trigger = .wsDisconnected).map TransitionLogEntry.fromState

namespace TransitionLogEntry

def InTable (entry : TransitionLogEntry) : Prop :=
  validTransitions entry.fromState entry.trigger = some entry.toState

instance (entry : TransitionLogEntry) : Decidable entry.InTable :=
  inferInstanceAs (Decidable (_ = _))

/-- A sync goes back to where the last disconnect came from. -/
def Returns (earlier : List TransitionLogEntry) (entry : TransitionLogEntry) : Prop :=
  entry.trigger = .syncComplete ∧ entry.fromState = .reconnecting ∧
    lastDisconnect earlier = some entry.toState

end TransitionLogEntry

/-- Every entry of a log stands in the table or is a way back. -/
def LogAllowed (log : List TransitionLogEntry) : Prop :=
  ∀ earlier entry later, log = earlier ++ entry :: later →
    entry.InTable ∨ entry.Returns earlier

theorem logAllowed_nil : LogAllowed [] := by
  intro earlier entry later hlog
  exact absurd hlog (by simp)

theorem LogAllowed.concat {log : List TransitionLogEntry} {entry : TransitionLogEntry}
    (hlog : LogAllowed log) (hentry : entry.InTable ∨ entry.Returns log) :
    LogAllowed (log ++ [entry]) := by
  intro earlier other later hsplit
  rcases List.append_eq_append_iff.mp hsplit with
    ⟨between, hearlier, hrest⟩ | ⟨between, hlog', hrest⟩
  · cases between with
    | nil =>
      rw [List.append_nil] at hearlier
      obtain ⟨rfl, -⟩ := List.cons_eq_cons.mp hrest
      exact hearlier ▸ hentry
    | cons b between => exact absurd (congrArg List.length hrest) (by simp)
  · cases between with
    | nil =>
      rw [List.append_nil] at hlog'
      obtain ⟨rfl, -⟩ := List.cons_eq_cons.mp hrest.symm
      exact hlog' ▸ hentry
    | cons b between =>
      obtain ⟨rfl, -⟩ := List.cons_eq_cons.mp hrest
      exact hlog earlier other between hlog'

theorem lastDisconnect_concat (log : List TransitionLogEntry) (entry : TransitionLogEntry) :
    lastDisconnect (log ++ [entry]) =
      if entry.trigger = .wsDisconnected then some entry.fromState else lastDisconnect log := by
  unfold lastDisconnect
  rw [List.reverse_append, List.reverse_singleton, List.singleton_append]
  by_cases htrigger : entry.trigger = .wsDisconnected
  · rw [List.find?_cons_of_pos (by simpa using htrigger), if_pos htrigger, Option.map_some]
  · rw [List.find?_cons_of_neg (by simpa using htrigger), if_neg htrigger]

/-! ## The machine -/

namespace PositionStateMachine

/-- The log is allowed, and the machine remembers the state of the last disconnect, if any. -/
structure Sound (m : PositionStateMachine) : Prop where
  allowed : LogAllowed m.transitionLog
  remembered : ∀ s, m.preReconnectState = some s → lastDisconnect m.transitionLog = some s

theorem Sound.transition {m m' : PositionStateMachine} {trigger : TransitionTrigger}
    {next : PositionState} (hm : m.Sound) (h : m.transition trigger = some (next, m')) :
    m'.Sound := by
  obtain ⟨target, htable, -, hlog, hcase⟩ := transition_cases h
  rcases hcase with ⟨rfl, hbefore, hforgotten⟩ | ⟨rfl, hkept⟩
  · constructor
    · rw [hlog]
      refine hm.allowed.concat (Or.inr ⟨rfl, ?_, hm.remembered next hbefore⟩)
      exact (validTransitions_syncComplete htable).1
    · intro s hs
      exact absurd (hforgotten.symm.trans hs) (by simp)
  · constructor
    · rw [hlog]
      exact hm.allowed.concat (Or.inl htable)
    · intro s hs
      rw [hkept] at hs
      rw [hlog, lastDisconnect_concat]
      by_cases hdisconnect : trigger = .wsDisconnected
      · rw [if_pos ((validTransitions_reconnecting htable).mpr hdisconnect)] at hs
        rw [if_pos hdisconnect]
        exact hs
      · rw [if_neg ((validTransitions_reconnecting htable).not.mpr hdisconnect)] at hs
        rw [if_neg hdisconnect]
        exact hm.remembered s hs

end PositionStateMachine

/-! ## The runtime -/

/-- A row whose log the runtime has recorded. -/
structure RecordedRow extends Row where
  recorded : LogAllowed transitionLog

namespace WsRuntime

/-- `_find_position_by_id`. -/
def findPositionById (runtime : WsRuntime) (positionId : String) : Option ℕ :=
  if positionId = "" then none
  else runtime.tracked.find? fun r => (runtime.contexts r).positionId = positionId

/-- The contexts that are tracked when `symbol` is not any more. -/
def othersThan (runtime : WsRuntime) (symbol : String) : List ℕ :=
  runtime.tracked.filter fun r => (runtime.contexts r).symbol ≠ symbol

end WsRuntime

/-- The context of a position that the service has opened: the entry is submitted and filled. -/
def PositionContext.entered (position : PositionContext) : PositionContext :=
  (({ position with state := .pending, stateMachine := { state := .pending } }.transition
    .entrySubmitted).syncState.transition .entryFilled).syncState

/-- What the runtime reacts to. -/
inductive WsEvent where
  | hydrated (row : RecordedRow)
  | opened (position : PositionContext)
  | untracked (symbol : String)
  | orderUpdate (r : ℕ) (event : OrderEvent)
  | positionUpdate (r : ℕ) (size : ℚ)
  /-- the delay of a partial-close reconciler is over -/
  | reconcilerDue (r : ℕ)
  | streamEnded
  /-- the order queue has executed a task for the context -/
  | taskSucceeded (r : ℕ) (result : ConditionalOrderResult) (callback : SuccessCallback)
  /-- the realtime adjuster takes over what the pipeline returned -/
  | slDecided (r : ℕ) (result : SLAdjustmentResult)

namespace WsHandler

/-- `track_position`, with a context object that is new.  A symbol has one spelling here. -/
def trackPosition (position : PositionContext) : WsHandler Unit :=
  modify fun runtime =>
    match runtime.findPositionById position.positionId with
    | some live => runtime.write live fun p => PositionContext.trackPosition (some p) position false
    | none =>
        { runtime.set runtime.built position with
          tracked := runtime.othersThan position.symbol ++ [runtime.built]
          built := runtime.built + 1 }

/-- What runs at an event.  Updates are for tracked positions, a callback is for the context that
it closes over. -/
def handle : WsEvent → WsHandler Unit
  | .hydrated row => trackPosition (fromDbRow row.toRow)
  | .opened position => trackPosition position.entered
  | .untracked symbol =>
      modify fun runtime => { runtime with tracked := runtime.othersThan symbol }
  | .orderUpdate r event => do
      let runtime ← get
      only (r ∈ runtime.tracked) (routeToPosition r event)
  | .positionUpdate r size => do
      let runtime ← get
      only (r ∈ runtime.tracked) (handlePositionUpdate r size)
  | .reconcilerDue r => do
      let runtime ← get
      match runtime.reconcilers r with
      | none => return
      | some deltaQty => reconcilePartialClose r deltaQty
  | .streamEnded => handleDisconnect
  | .taskSucceeded r result callback => do
      writePosition r fun p => p.applyCallback result callback
      persistPosition
  | .slDecided r result => writePosition r fun p => Adjuster.applyStateChanges p result

section Stable

variable {A : PositionContext → Prop}

theorem trackPosition_state (live position : PositionContext) :
    (PositionContext.trackPosition (some live) position false).state = live.state ∧
      (PositionContext.trackPosition (some live) position false).stateMachine =
        live.stateMachine :=
  ⟨rfl, rfl⟩

theorem applyStateChanges_state (p : PositionContext) (result : SLAdjustmentResult) :
    (Adjuster.applyStateChanges p result).state = p.state ∧
      (Adjuster.applyStateChanges p result).stateMachine = p.stateMachine := by
  have htracked : ∀ (updates : List TrackingUpdate) (q : PositionContext),
      (updates.foldl Adjuster.applyTracking q).state = q.state ∧
        (updates.foldl Adjuster.applyTracking q).stateMachine = q.stateMachine := by
    intro updates
    induction updates with
    | nil => exact fun q => ⟨rfl, rfl⟩
    | cons update updates ih =>
      intro q
      obtain ⟨hstate, hmachine⟩ := ih (Adjuster.applyTracking q update)
      rw [List.foldl_cons, hstate, hmachine]
      cases update <;> exact ⟨rfl, rfl⟩
  exact htracked result.updateTracking p

theorem invariant_applyCallback (hA : InvariantOfContext A) {p : PositionContext} (hp : A p)
    (result : ConditionalOrderResult) (callback : SuccessCallback) :
    A (p.applyCallback result callback) := by
  cases callback with
  | conditionalOrder source levelIndex =>
    refine hA.frame p _ hp ?_ ?_
    · cases source <;> cases levelIndex <;> rfl
    · cases source <;> cases levelIndex <;> rfl
  | slAdjustment reason triggerSource =>
    refine hA.fired _ .adjustmentComplete (by decide) ?_
    exact hA.frame p _ hp rfl rfl

theorem stable_trackPosition (hA : InvariantOfContext A) {position : PositionContext}
    (hnew : A position) : Stable (OfContexts A) (trackPosition position) := by
  refine Stable.modify fun runtime hs => ?_
  cases runtime.findPositionById position.positionId with
  | none =>
    have hset := hs.set runtime.built hnew
    exact hset
  | some live =>
    have hmerged := trackPosition_state (runtime.contexts live) position
    exact hs.set live (hA.frame _ _ (hs live) hmerged.1 hmerged.2)

/-- The contexts that an event brings have the property. -/
def Brings (A : PositionContext → Prop) : WsEvent → Prop
  | .hydrated row => A (fromDbRow row.toRow)
  | .opened position => A position.entered
  | _ => True

/-- **Every handler keeps what is kept by everything that is done to the states of a context.** -/
theorem stable_handle (hA : InvariantOfContext A) {event : WsEvent} (hnew : Brings A event) :
    Stable (OfContexts A) (handle event) := by
  cases event with
  | hydrated row => exact stable_trackPosition hA hnew
  | opened position => exact stable_trackPosition hA hnew
  | untracked symbol => exact Stable.modify fun _ hs => hs
  | orderUpdate r event =>
    exact Stable.get.bind fun runtime => Stable.only (stable_routeToPosition hA event)
  | positionUpdate r size =>
    exact Stable.get.bind fun runtime => Stable.only (stable_handlePositionUpdate hA size)
  | reconcilerDue r =>
    refine Stable.get.bind fun runtime => ?_
    cases runtime.reconcilers r with
    | none => exact Stable.pure ()
    | some deltaQty => exact stable_reconcilePartialClose hA deltaQty
  | streamEnded => exact stable_handleDisconnect hA
  | taskSucceeded r result callback =>
    refine Stable.bind (stable_writePosition fun p hp => ?_) fun _ => stable_persistPosition
    exact invariant_applyCallback hA hp result callback
  | slDecided r result =>
    refine stable_writePosition fun p hp => ?_
    obtain ⟨hstate, hmachine⟩ := applyStateChanges_state p result
    exact hA.frame p _ hp hstate hmachine

end Stable

end WsHandler

/-- A run of the runtime, from an empty one. -/
def WsRuntime.Reaches (turns : List (Turn WsEvent WsAnswer))
    (loop : EventLoop WsRuntime WsAnswer) : Prop :=
  run (EventLoop.step WsHandler.handle) ⟨{}, []⟩ turns = some loop

variable {loop : EventLoop WsRuntime WsAnswer} {turns : List (Turn WsEvent WsAnswer)}

theorem WsRuntime.Reaches.invariant {A : PositionContext → Prop} (hA : InvariantOfContext A)
    (hreach : WsRuntime.Reaches turns loop) (hdefault : A {})
    (hturns : ∀ event, .call event ∈ turns → WsHandler.Brings A event) : OfContexts A loop.shared :=
  EventLoop.stable_of_run WsHandler.handle (fun _ hnew => WsHandler.stable_handle hA hnew)
    (fun _ => hdefault) hturns hreach

/-! ## The states agree, and the log is allowed -/

namespace PositionContext

/-- The two states are the same, and what is recorded is allowed. -/
structure Agrees (position : PositionContext) : Prop where
  state : position.state = position.stateMachine.state
  sound : position.stateMachine.Sound

section Agrees

variable {p : PositionContext}

theorem sound_transition (hp : p.stateMachine.Sound) (trigger : TransitionTrigger) :
    (p.transition trigger).stateMachine.Sound := by
  unfold transition
  cases h : p.stateMachine.transition trigger with
  | none => exact hp
  | some moved => exact hp.transition h

theorem sound_transitionPartialClose (hp : p.stateMachine.Sound) :
    (MultiTp.transitionPartialClose p).stateMachine.Sound := by
  unfold MultiTp.transitionPartialClose
  dsimp only
  split
  · split
    · exact sound_transition (sound_transition hp _) _
    · exact sound_transition hp _
  · exact sound_transition (sound_transition hp _) _

theorem sound_transitionAllClosed (hp : p.stateMachine.Sound) :
    (MultiTp.transitionAllClosed p).stateMachine.Sound := by
  unfold MultiTp.transitionAllClosed
  dsimp only
  split
  · exact sound_transition hp _
  · split
    · exact sound_transition (sound_transition hp _) _
    · split
      · exact sound_transition (sound_transition (sound_transition hp _) _) _
      · exact sound_transition hp _

theorem agrees_invariant : InvariantOfContext Agrees where
  frame p q hp hstate hmachine := by
    refine ⟨?_, ?_⟩
    · rw [hstate, hmachine]
      exact hp.state
    · rw [hmachine]
      exact hp.sound
  fired p trigger _ hp := ⟨rfl, sound_transition hp.sound trigger⟩
  closed p trigger _ hp := ⟨rfl, sound_transition (sound_transition hp.sound trigger) _⟩
  forced p target _ hp := ⟨rfl, ⟨hp.sound.allowed, hp.sound.remembered⟩⟩
  continued p hp := ⟨rfl, sound_transitionPartialClose hp.sound⟩
  finished p hp := ⟨rfl, sound_transitionAllClosed hp.sound⟩

end Agrees

theorem agrees_new {position : PositionContext} {log : List TransitionLogEntry}
    (hstate : position.state = position.stateMachine.state)
    (hpre : position.stateMachine.preReconnectState = none)
    (hlog : position.stateMachine.transitionLog = log) (hallowed : LogAllowed log) :
    position.Agrees := by
  refine ⟨hstate, hlog ▸ hallowed, fun s hs => ?_⟩
  exact absurd (hpre.symm.trans hs) (by simp)

theorem agrees_entered (position : PositionContext) : position.entered.Agrees := by
  refine ⟨rfl, sound_transition ?_ _⟩
  refine sound_transition ?_ _
  exact ⟨logAllowed_nil, fun s hs => absurd hs (by simp)⟩

end PositionContext

/-! ## Contexts that never stop half-way -/

/-- The states that a machine passes on its way somewhere else. -/
def midwayStates : List PositionState := [.adjusting, .closing]

namespace PositionStateMachine

/-- The log is that of the table, and a disconnect that is remembered has left `OPEN`. -/
structure Clean (m : PositionStateMachine) : Prop where
  inTable : ∀ entry ∈ m.transitionLog, entry.InTable
  open_of_remembered : ∀ s, m.preReconnectState = some s → s = .open

theorem Clean.transition {m m' : PositionStateMachine} {trigger : TransitionTrigger}
    {next : PositionState} (hm : m.Clean)
    (hopen : trigger = .wsDisconnected → m.state ∉ midwayStates)
    (h : m.transition trigger = some (next, m')) : m'.Clean := by
  obtain ⟨target, htable, -, hlog, hcase⟩ := transition_cases h
  have hstep : (next = target → ∀ entry ∈ m'.transitionLog, entry.InTable) := by
    rintro rfl entry hentry
    rw [hlog, List.mem_append, List.mem_singleton] at hentry
    rcases hentry with hold | rfl
    · exact hm.inTable entry hold
    · exact htable
  rcases hcase with ⟨rfl, hbefore, hforgotten⟩ | ⟨hnext, hkept⟩
  · refine ⟨hstep ?_, fun s hs => absurd (hforgotten.symm.trans hs) (by simp)⟩
    rw [hm.open_of_remembered next hbefore, (validTransitions_syncComplete htable).2]
  · refine ⟨hstep hnext, fun s hs => ?_⟩
    rw [hkept] at hs
    by_cases hdisconnect : trigger = .wsDisconnected
    · rw [if_pos ((validTransitions_reconnecting htable).mpr hdisconnect)] at hs
      obtain rfl := Option.some.inj hs
      have hnotMidway := hopen hdisconnect
      subst hdisconnect
      cases hstate : m.state <;> simp_all [validTransitions, midwayStates]
    · rw [if_neg ((validTransitions_reconnecting htable).not.mpr hdisconnect)] at hs
      exact hm.open_of_remembered s hs

end PositionStateMachine

namespace PositionContext

/-- A context at rest: its machine is clean and not half-way. -/
structure AtRest (position : PositionContext) : Prop where
  state : position.state = position.stateMachine.state
  settled : position.stateMachine.state ∉ midwayStates
  clean : position.stateMachine.Clean

section AtRest

variable {p : PositionContext}

variable {trigger : TransitionTrigger}

theorem clean_transition (hp : p.stateMachine.Clean)
    (hopen : trigger = .wsDisconnected → p.stateMachine.state ∉ midwayStates) :
    (p.transition trigger).stateMachine.Clean := by
  unfold transition
  cases h : p.stateMachine.transition trigger with
  | none => exact hp
  | some moved => exact hp.transition hopen h

theorem transition_state_eq (p : PositionContext) (trigger : TransitionTrigger)
    (hne : trigger ≠ .syncComplete) :
    (p.transition trigger).stateMachine.state =
      (validTransitions p.stateMachine.state trigger).getD p.stateMachine.state := by
  have htable := PositionStateMachine.transition_of_ne_syncComplete (m := p.stateMachine) hne
  unfold transition
  cases h : p.stateMachine.transition trigger with
  | none =>
    rw [h, Option.map_none] at htable
    rw [← htable, Option.getD_none]
  | some moved =>
    rw [h] at htable
    rw [← htable]
    exact PositionStateMachine.transition_state h

theorem settled_fired (hp : p.AtRest) (ht : trigger ∈ loneTriggers) :
    (p.transition trigger).stateMachine.state ∉ midwayStates := by
  have hsettled := hp.settled
  by_cases hsync : trigger = .syncComplete
  · subst hsync
    unfold transition
    cases h : p.stateMachine.transition .syncComplete with
    | none => exact hsettled
    | some moved =>
      obtain ⟨target, htable, hstate, -, hcase⟩ := PositionStateMachine.transition_cases h
      obtain ⟨-, rfl⟩ := PositionStateMachine.validTransitions_syncComplete htable
      rw [hstate]
      rcases hcase with ⟨-, hbefore, -⟩ | ⟨hnext, -⟩
      · rw [hp.clean.open_of_remembered _ hbefore]
        decide
      · rw [hnext]
        decide
  · rw [transition_state_eq p trigger hsync]
    simp only [loneTriggers, List.mem_cons, List.not_mem_nil, or_false] at ht
    generalize p.stateMachine.state = state at hsettled ⊢
    revert hsettled
    rcases ht with rfl | rfl | rfl | rfl | rfl <;> cases state <;> decide

theorem settled_closed (hp : p.AtRest) (ht : trigger ∈ closingTriggers) :
    ((p.transition trigger).transition .allClosed).stateMachine.state ∉ midwayStates := by
  have hsettled := hp.settled
  have hne : trigger ≠ .syncComplete := by
    rintro rfl
    exact absurd ht (by decide)
  rw [transition_state_eq _ .allClosed (by decide), transition_state_eq p trigger hne]
  simp only [closingTriggers, List.mem_cons, List.not_mem_nil, or_false] at ht
  generalize p.stateMachine.state = state at hsettled ⊢
  revert hsettled
  rcases ht with rfl | rfl | rfl <;> cases state <;> decide

theorem settled_continued (hp : p.AtRest) :
    (MultiTp.transitionPartialClose p).stateMachine.state ∉ midwayStates := by
  have hsettled := hp.settled
  have hpartial := fun q => transition_state_eq q .partialClose (by decide)
  have htp := fun q => transition_state_eq q .tpTriggered (by decide)
  unfold MultiTp.transitionPartialClose MultiTp.can PositionStateMachine.canTransition
  cases hstate : p.stateMachine.state <;>
    simp_all [validTransitions, midwayStates]

theorem settled_finished (hp : p.AtRest) :
    (MultiTp.transitionAllClosed p).stateMachine.state ∉ midwayStates := by
  have hsettled := hp.settled
  have hall := fun q => transition_state_eq q .allClosed (by decide)
  have htp := fun q => transition_state_eq q .tpTriggered (by decide)
  unfold MultiTp.transitionAllClosed MultiTp.can PositionStateMachine.canTransition
  cases hstate : p.stateMachine.state <;>
    simp_all [validTransitions, midwayStates]

theorem clean_continued (hp : p.stateMachine.Clean) :
    (MultiTp.transitionPartialClose p).stateMachine.Clean := by
  unfold MultiTp.transitionPartialClose
  dsimp only
  split
  · split
    · exact clean_transition (clean_transition hp (by simp)) (by simp)
    · exact clean_transition hp (by simp)
  · exact clean_transition (clean_transition hp (by simp)) (by simp)

theorem clean_finished (hp : p.stateMachine.Clean) :
    (MultiTp.transitionAllClosed p).stateMachine.Clean := by
  unfold MultiTp.transitionAllClosed
  dsimp only
  split
  · exact clean_transition hp (by simp)
  · split
    · exact clean_transition (clean_transition hp (by simp)) (by simp)
    · split
      · exact clean_transition (clean_transition (clean_transition hp (by simp)) (by simp))
          (by simp)
      · exact clean_transition hp (by simp)

theorem atRest_invariant : InvariantOfContext AtRest where
  frame p q hp hstate hmachine := by
    refine ⟨?_, ?_, ?_⟩
    · rw [hstate, hmachine]
      exact hp.state
    · rw [hmachine]
      exact hp.settled
    · rw [hmachine]
      exact hp.clean
  fired p trigger htrigger hp :=
    ⟨rfl, settled_fired hp htrigger, clean_transition hp.clean fun _ => hp.settled⟩
  closed p trigger htrigger hp := by
    refine ⟨rfl, settled_closed hp htrigger, ?_⟩
    exact clean_transition (clean_transition hp.clean fun _ => hp.settled) (by simp)
  forced p target htarget hp := by
    refine ⟨rfl, ?_, hp.clean.inTable, hp.clean.open_of_remembered⟩
    simp only [List.mem_cons, List.not_mem_nil, or_false] at htarget
    rcases htarget with rfl | rfl <;> simp [PositionContext.force, midwayStates]
  continued p hp := ⟨rfl, settled_continued hp, clean_continued hp.clean⟩
  finished p hp := ⟨rfl, settled_finished hp, clean_finished hp.clean⟩

end AtRest

end PositionContext

/-! ## Rows -/

/-- A row at rest: its state is not half-way, and its log is that of the table. -/
def Row.AtRest (row : Row) : Prop :=
  row.state ∉ midwayStates ∧ ∀ entry ∈ row.transitionLog, entry.InTable

theorem atRest_fromDbRow {row : Row} (h : row.AtRest) : (fromDbRow row).AtRest :=
  ⟨rfl, h.1, h.2, fun s hs => absurd hs (by simp [fromDbRow])⟩

theorem Row.atRest_mergePositionContext (row : Row) {position : PositionContext}
    (h : position.AtRest) : (row.mergePositionContext position).AtRest := by
  refine ⟨?_, h.clean.inTable⟩
  change position.state ∉ midwayStates
  rw [h.state]
  exact h.settled

theorem atRest_default : AtRest {} :=
  ⟨rfl, by decide, fun entry hentry => absurd hentry (by simp), fun s hs => absurd hs (by simp)⟩

theorem atRest_entered (position : PositionContext) : position.entered.AtRest := by
  have hopen : position.entered.stateMachine.state = .open := rfl
  have hlog : position.entered.stateMachine.transitionLog =
      [⟨.pending, .entering, .entrySubmitted⟩, ⟨.entering, .open, .entryFilled⟩] := rfl
  have hforgotten : position.entered.stateMachine.preReconnectState = none := rfl
  refine ⟨rfl, ?_, ?_, fun s hs => absurd (hforgotten.symm.trans hs) (by simp)⟩
  · rw [hopen]
    decide
  · rw [hlog]
    decide

/-- A context comes from another by what is done to its states between two awaits. -/
def PositionContext.Leads (p q : PositionContext) : Prop :=
  ∀ A : PositionContext → Prop, InvariantOfContext A → A p → A q

/-- A row that the program has written: who writes its state or its log, and what. -/
inductive WrittenRow : Row → Prop
  | opened (row : Row) (position : PositionContext) :
      WrittenRow (row.mergePositionContext position.entered)
  /-- the sync takes over a position of the exchange; also the migration that adds the columns -/
  | adopted {row : Row} (hstate : row.state = .open) (hlog : row.transitionLog = []) :
      WrittenRow row
  /-- an exit or a sync writes the state; whoever else writes to the row leaves state and log -/
  | marked {row marked : Row} (h : WrittenRow row)
      (hstate : marked.state ∈ [row.state, .open, .closed])
      (hlog : marked.transitionLog = row.transitionLog) : WrittenRow marked
  /-- the runtime persists a context, into whatever row it loads -/
  | persisted {turns : List (Turn WsEvent WsAnswer)} {loop : EventLoop WsRuntime WsAnswer}
      (hrows : ∀ row, .call (.hydrated row) ∈ turns → WrittenRow row.toRow)
      (hreach : WsRuntime.Reaches turns loop) (row : Row) (r : ℕ) :
      WrittenRow (row.mergePositionContext (loop.shared.contexts r))
  /-- the REST path builds a context of a row, drives it, and merges it into the row again -/
  | reconciled {row : Row} (h : WrittenRow row) {position : PositionContext}
      (hdriven : (fromDbRow row).Leads position) (target : Row) :
      WrittenRow (target.mergePositionContext position)

theorem atRest_of_run (hreach : WsRuntime.Reaches turns loop)
    (hrows : ∀ row, .call (.hydrated row) ∈ turns → row.toRow.AtRest) :
    OfContexts AtRest loop.shared := by
  refine hreach.invariant atRest_invariant atRest_default ?_
  intro event hevent
  cases event with
  | hydrated row => exact atRest_fromDbRow (hrows row hevent)
  | opened position => exact atRest_entered position
  | _ => trivial

/-- **The program writes no row half-way**, over any number of restarts. -/
theorem WrittenRow.atRest {row : Row} (h : WrittenRow row) : row.AtRest := by
  induction h with
  | opened row position => exact row.atRest_mergePositionContext (atRest_entered position)
  | @adopted row hstate hlog =>
    refine ⟨?_, fun entry hentry => ?_⟩
    · rw [hstate]
      decide
    · rw [hlog] at hentry
      cases hentry
  | marked h hstate hlog ih =>
    refine ⟨?_, hlog ▸ ih.2⟩
    simp only [List.mem_cons, List.not_mem_nil, or_false] at hstate
    rcases hstate with hkept | hopen | hclosed
    · exact hkept ▸ ih.1
    · rw [hopen]
      decide
    · rw [hclosed]
      decide
  | persisted hrows hreach row r ih =>
    exact row.atRest_mergePositionContext (atRest_of_run hreach ih r)
  | reconciled h hdriven target ih =>
    exact target.atRest_mergePositionContext (hdriven _ atRest_invariant (atRest_fromDbRow ih))

/-! ## Runs -/

/-- The two states of a context agree along a run, with rows of any kind. -/
theorem agrees_of_run (hreach : WsRuntime.Reaches turns loop) : OfContexts Agrees loop.shared := by
  refine hreach.invariant agrees_invariant (agrees_new rfl rfl rfl logAllowed_nil) ?_
  intro event _
  cases event with
  | hydrated row => exact agrees_new rfl rfl rfl row.recorded
  | opened position => exact agrees_entered position
  | _ => trivial

/-- **The two states of a position agree at every await**, for every interleaving of the handlers,
and every recorded transition is one of the table. -/
theorem states_agree_of_run {turns : List (Turn WsEvent WsAnswer)}
    {loop : EventLoop WsRuntime WsAnswer} (hreach : WsRuntime.Reaches turns loop)
    (hrows : ∀ row, .call (.hydrated row) ∈ turns → WrittenRow row.toRow) (r : ℕ) :
    (loop.shared.contexts r).state = (loop.shared.contexts r).stateMachine.state ∧
      ∀ entry ∈ (loop.shared.contexts r).stateMachine.transitionLog, entry.InTable := by
  have hrest := atRest_of_run hreach (fun row hrow => (hrows row hrow).atRest) r
  exact ⟨hrest.state, hrest.clean.inTable⟩

/-- A long position that the sync has taken over. -/
def adoptedLong : RecordedRow where
  positionId := "7"
  symbol := "BTCUSDT"
  state := .open
  entryPrice := 100
  quantity := 1
  slPrice := 90
  originalQuantity := some 1
  currentQuantity := some 1
  slExchangeOrderId := some "sl-1"
  recorded := logAllowed_nil

/-- The exchange still has the position, and its stop. -/
def stillLive : WsAnswer where
  sync := .snapshot { side := .long, size := 1, markPrice := 100 }
  openOrders := some [("sl-1", .stopLoss)]

/-- The stream ends; the reconnect that follows succeeds and syncs the position. -/
def reconnectOfAdopted : List (Turn WsEvent WsAnswer) :=
  [.call (.hydrated adoptedLong), .call .streamEnded] ++ List.replicate 7 (.resume 1 stillLive)

theorem log_reconnectOfAdopted :
    (run (EventLoop.step WsHandler.handle) ⟨{}, []⟩ reconnectOfAdopted).map (fun loop =>
        (loop.shared.contexts 0).stateMachine.transitionLog) =
      some [⟨.open, .reconnecting, .wsDisconnected⟩, ⟨.reconnecting, .open, .syncComplete⟩] := by
  decide +kernel

/-- A position that was open is synced back to open, as the table has it. -/
theorem states_agree_reconnectOfAdopted :
    ∃ loop, WsRuntime.Reaches reconnectOfAdopted loop ∧
      (loop.shared.contexts 0).stateMachine.transitionLog ≠ [] ∧
      (loop.shared.contexts 0).state = (loop.shared.contexts 0).stateMachine.state ∧
      ∀ entry ∈ (loop.shared.contexts 0).stateMachine.transitionLog, entry.InTable := by
  obtain ⟨loop, hreach, hlog⟩ := Option.map_eq_some_iff.mp log_reconnectOfAdopted
  refine ⟨loop, hreach, ?_, states_agree_of_run hreach (fun row hrow => ?_) 0⟩
  · rw [hlog]
    exact List.cons_ne_nil _ _
  · simp only [reconnectOfAdopted, List.mem_append, List.mem_cons, List.not_mem_nil, or_false,
      List.mem_replicate, reduceCtorEq, and_false, Turn.call.injEq, WsEvent.hydrated.injEq] at hrow
    rw [hrow]
    exact WrittenRow.adopted rfl rfl

end AdviserConstructor
