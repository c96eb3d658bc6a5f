import Mathlib.Data.Finset.Basic

/-!
# The position state machine

`app/services/position/state_machine.py`: the lifecycle states of a position, the triggers,
the transition table and the per-position machine.  The machine remembers the state it was
in when the stream dropped, and `SYNC_COMPLETE` goes back there instead of to the table's
target.

The transition log keeps the two states and the trigger of every transition.  Its time stamp,
reason text and metadata are written for the user interface and read by no function here.
-/

namespace AdviserConstructor

/-- `PositionState`. -/
inductive PositionState where
  | pending | entering | «open» | adjusting | closing | closed | cancelled | failed
  | reconnecting | errorRecovery
  deriving DecidableEq, Repr

/-- `TransitionTrigger`. -/
inductive TransitionTrigger where
  | entrySubmitted | entryFilled | entryRejected | entryTimeout | entryCancelled
  | indicatorTrigger | trailingTick | breakevenReached | volatilityShift
  | adjustmentComplete | adjustmentFailed
  | slTriggered | tpTriggered | partialClose | manualClose | allClosed | closeFailed
  | wsDisconnected | wsReconnected | syncComplete | emergencySlPlaced | emergencyClose
  deriving DecidableEq, Repr

/-- `VALID_TRANSITIONS`: the target of a trigger in a state, if the table has one. -/
def validTransitions : PositionState → TransitionTrigger → Option PositionState
  | .pending, .entrySubmitted => some .entering
  | .pending, .entryCancelled => some .cancelled
  | .entering, .entryFilled => some .open
  | .entering, .entryRejected => some .failed
  | .entering, .entryTimeout => some .failed
  | .entering, .entryCancelled => some .cancelled
  | .open, .indicatorTrigger => some .adjusting
  | .open, .trailingTick => some .adjusting
  | .open, .breakevenReached => some .adjusting
  | .open, .volatilityShift => some .adjusting
  | .open, .slTriggered => some .closing
  | .open, .tpTriggered => some .closing
  | .open, .partialClose => some .closing
  | .open, .manualClose => some .closing
  | .open, .wsDisconnected => some .reconnecting
  | .adjusting, .adjustmentComplete => some .open
  | .adjusting, .adjustmentFailed => some .errorRecovery
  | .adjusting, .slTriggered => some .closing
  | .adjusting, .tpTriggered => some .closing
  | .adjusting, .manualClose => some .closing
  | .adjusting, .wsDisconnected => some .reconnecting
  | .closing, .allClosed => some .closed
  | .closing, .closeFailed => some .errorRecovery
  | .closing, .partialClose => some .open
  | .closing, .wsDisconnected => some .reconnecting
  | .reconnecting, .wsReconnected => some .open
  | .reconnecting, .syncComplete => some .open
  | .reconnecting, .allClosed => some .closed
  | .errorRecovery, .emergencySlPlaced => some .open
  | .errorRecovery, .emergencyClose => some .closed
  | _, _ => none

/-- One entry of the transition log. -/
structure TransitionLogEntry where
  fromState : PositionState
  toState : PositionState
  trigger : TransitionTrigger
  deriving DecidableEq, Repr

/-- `PositionStateMachine`. -/
structure PositionStateMachine where
  state : PositionState
  preReconnectState : Option PositionState := none
  transitionLog : List TransitionLogEntry := []
  deriving DecidableEq, Repr

namespace PositionStateMachine

/-- `can_transition`. -/
def canTransition (m : PositionStateMachine) (trigger : TransitionTrigger) : Bool :=
  (validTransitions m.state trigger).isSome

/-- `transition`; `none` is the `InvalidTransitionError`, raised before anything is written. -/
def transition (m : PositionStateMachine) (trigger : TransitionTrigger) :
    Option (PositionState × PositionStateMachine) :=
  match validTransitions m.state trigger with
  | none => none
  | some target =>
      let remembered :=
        if target = .reconnecting then some m.state else m.preReconnectState
      let (newState, remembered) :=
        match trigger, remembered with
        | .syncComplete, some before => (before, none)
        | _, _ => (target, remembered)
      some (newState,
        { state := newState
          preReconnectState := remembered
          transitionLog := m.transitionLog ++ [⟨m.state, newState, trigger⟩] })

variable {m : PositionStateMachine} {trigger : TransitionTrigger}

theorem canTransition_iff :
    m.canTransition trigger = true ↔ ∃ r, m.transition trigger = some r := by
  unfold canTransition transition
  cases validTransitions m.state trigger with
  | none => simp
  | some target => simp

theorem transition_of_ne_syncComplete (h : trigger ≠ .syncComplete) :
    (m.transition trigger).map Prod.fst = validTransitions m.state trigger := by
  unfold transition
  cases validTransitions m.state trigger with
  | none => rfl
  | some target => cases trigger <;> first | rfl | exact absurd rfl h

theorem transition_state {m' : PositionStateMachine} {s : PositionState}
    (h : m.transition trigger = some (s, m')) : m'.state = s := by
  unfold transition at h
  cases hv : validTransitions m.state trigger with
  | none => simp [hv] at h
  | some target =>
    simp only [hv, Option.some.injEq, Prod.mk.injEq] at h
    obtain ⟨hs, hm⟩ := h
    rw [← hm, ← hs]

theorem validTransitions_reconnecting {state target : PositionState}
    (h : validTransitions state trigger = some target) :
    target = .reconnecting ↔ trigger = .wsDisconnected := by
  cases state <;> cases trigger <;> simp_all [validTransitions] <;> subst h <;> decide

theorem validTransitions_syncComplete {state target : PositionState}
    (h : validTransitions state .syncComplete = some target) :
    state = .reconnecting ∧ target = .open := by
  cases state <;> simp_all [validTransitions]

theorem transition_cases {m' : PositionStateMachine} {next : PositionState}
    (h : m.transition trigger = some (next, m')) :
    ∃ target, validTransitions m.state trigger = some target ∧ m'.state = next ∧
      m'.transitionLog = m.transitionLog ++ [⟨m.state, next, trigger⟩] ∧
      ((trigger = .syncComplete ∧ m.preReconnectState = some next ∧ m'.preReconnectState = none) ∨
        (next = target ∧ m'.preReconnectState =
          if target = .reconnecting then some m.state else m.preReconnectState)) := by
  have hstate := transition_state h
  unfold transition at h
  cases htable : validTransitions m.state trigger with
  | none => simp [htable] at h
  | some target =>
    refine ⟨target, rfl, hstate, ?_⟩
    by_cases hsync : trigger = .syncComplete
    · subst hsync
      obtain ⟨-, rfl⟩ := validTransitions_syncComplete htable
      rw [htable] at h
      cases hpre : m.preReconnectState with
      | none =>
        simp only [hpre, reduceCtorEq, Option.some.injEq, Prod.mk.injEq] at h
        obtain ⟨rfl, rfl⟩ := h
        exact ⟨rfl, Or.inr ⟨rfl, rfl⟩⟩
      | some before =>
        simp only [hpre, reduceCtorEq, Option.some.injEq, Prod.mk.injEq] at h
        obtain ⟨rfl, rfl⟩ := h
        exact ⟨rfl, Or.inl ⟨rfl, rfl, rfl⟩⟩
    · rw [htable] at h
      cases trigger <;> first
        | exact absurd rfl hsync
        | simp only [Option.some.injEq] at h
          obtain ⟨rfl, rfl⟩ := h
          exact ⟨rfl, Or.inr ⟨rfl, rfl⟩⟩

end PositionStateMachine

end AdviserConstructor
