import Mathlib.Data.List.Induction
import Mathlib.Data.List.Infix
import AdviserConstructor.Library.StepSystem

/-!
# The user-data stream and its reconnect

`start` and `_handle_disconnect` of `app/services/ws/manager.py`, the stream task of the two
adapters (`subscribe_user_data`, `_run_user_data_stream`), and the restart that
`_ensure_ws_manager_tracked` of `app/services/auto_trade/service.py` makes of a manager that is not
connected.  An event is what happens between two awaits: a phase of `_handle_disconnect` is over or
has raised, a call of `start` comes back, the stream task ends by itself.

A stream task that ends calls `on_disconnect`, which is `_handle_disconnect`, in its own
`finally`; the two are one event.  The call returns at once while another `_handle_disconnect` is
running.  A task that `subscribe_user_data` cancels does not call it.  The handler runs in the task
whose stream has ended, and the cancellation that this task sends itself from there is swallowed
by `_cancel_task`.

The clocks that `start` resets (warm-up, heartbeat) gate the order events and the health check,
and the check has no caller; they are left out, as is the work of the phases on the positions.

## The lost signal

`start` only launches the stream.  A connection that fails reports itself later, while the handler
that launched it is still syncing, and there the guard against re-entry drops the report.  What
the manager then says is decided by what the handler does next: another attempt launches another
stream, but a handler that returns leaves `_connected` as `start` has set it.

* `Forgotten`: no handler is running, the last stream has ended by itself, `is_connected()` is
  true, and no sequence of events contains another attempt.
* `notForgotten_iff`: a run never comes there exactly if every stream that a handler has launched
  outlives the handler, or the same handler launches another one (`EndsUnheard` says when not).
-/

namespace AdviserConstructor

open StepSystem

/-! ## The connection -/

/-- The stream task that `subscribe_user_data` has started last. -/
inductive UserDataTask where
  | absent
  | running
  /-- it ended by itself and has called `on_disconnect` -/
  | ended
  | cancelled
  deriving DecidableEq, Repr

/-- `_cancel_task`, on the stream task. -/
def UserDataTask.cancel : UserDataTask → UserDataTask
  | .running => .cancelled
  | task => task

/-- What `_handle_disconnect` is awaiting. -/
inductive DisconnectPhase where
  /-- no `_handle_disconnect` is running -/
  | idle
  /-- the disconnect transition of every live position, with its persist -/
  | transitions
  | backoff
  | start
  | fullStateSync
  | restorePipelines
  | emergencyCloseAll
  deriving DecidableEq, Repr

/-- The part of `WebSocketManager` that the reconnect reads and writes, with the stream task of
its adapter. -/
structure WsConnection where
  connected : Bool := false
  reconnecting : Bool := false
  reconnectAttempts : ℕ := 0
  userDataTask : UserDataTask := .absent
  phase : DisconnectPhase := .idle
  /-- `_ensure_ws_manager_tracked` is awaiting `start` -/
  serviceStarting : Bool := false
  deriving DecidableEq, Repr

/-- `_max_reconnect_attempts`. -/
def maxReconnectAttempts : ℕ := 50

/-- What happens between two awaits. -/
inductive ConnectionEvent where
  /-- `_ensure_ws_manager_tracked` calls `start` -/
  | serviceStart
  /-- its `start` returns -/
  | serviceSubscribed
  | serviceStartFails
  /-- the stream task ends without being cancelled -/
  | streamEnds
  | transitionsOver
  | transitionsRaise
  | backoffOver
  /-- the `start` of `_handle_disconnect` returns -/
  | reconnected
  | synced
  | restored
  /-- `start`, the sync or the restore raises -/
  | attemptFails
  /-- `_emergency_close_all` is over, in whichever way -/
  | closedAll
  deriving DecidableEq, Repr

namespace WsConnection

def loopTest (c : WsConnection) : WsConnection :=
  { c with
    phase :=
      if c.reconnectAttempts < maxReconnectAttempts then .backoff else .emergencyCloseAll }

/-- `_handle_disconnect` is left. -/
def leaveHandler (c : WsConnection) : WsConnection :=
  { c with reconnecting := false, phase := .idle }

/-- `_handle_disconnect` up to its first await. -/
def handleDisconnect (c : WsConnection) : WsConnection :=
  if c.reconnecting then c
  else { c with reconnecting := true, connected := false, phase := .transitions }

def Enabled (c : WsConnection) : ConnectionEvent → Prop
  | .serviceStart =>
      c.connected = false ∧ c.reconnecting = false ∧ c.serviceStarting = false
  | .serviceSubscribed | .serviceStartFails => c.serviceStarting = true
  | .streamEnds => c.userDataTask = .running
  | .transitionsOver | .transitionsRaise => c.phase = .transitions
  | .backoffOver => c.phase = .backoff
  | .reconnected => c.phase = .start
  | .synced => c.phase = .fullStateSync
  | .restored => c.phase = .restorePipelines
  | .attemptFails =>
      c.phase = .start ∨ c.phase = .fullStateSync ∨ c.phase = .restorePipelines
  | .closedAll => c.phase = .emergencyCloseAll

instance (c : WsConnection) (event : ConnectionEvent) : Decidable (c.Enabled event) :=
  match event with
  | .serviceStart =>
      inferInstanceAs (Decidable
        (c.connected = false ∧ c.reconnecting = false ∧ c.serviceStarting = false))
  | .serviceSubscribed | .serviceStartFails =>
      inferInstanceAs (Decidable (c.serviceStarting = true))
  | .streamEnds => inferInstanceAs (Decidable (c.userDataTask = .running))
  | .transitionsOver | .transitionsRaise =>
      inferInstanceAs (Decidable (c.phase = .transitions))
  | .backoffOver => inferInstanceAs (Decidable (c.phase = .backoff))
  | .reconnected => inferInstanceAs (Decidable (c.phase = .start))
  | .synced => inferInstanceAs (Decidable (c.phase = .fullStateSync))
  | .restored => inferInstanceAs (Decidable (c.phase = .restorePipelines))
  | .attemptFails =>
      inferInstanceAs (Decidable
        (c.phase = .start ∨ c.phase = .fullStateSync ∨ c.phase = .restorePipelines))
  | .closedAll => inferInstanceAs (Decidable (c.phase = .emergencyCloseAll))

def after (c : WsConnection) : ConnectionEvent → WsConnection
  | .serviceStart =>
      { c with
        serviceStarting := true
        reconnectAttempts := 0
        userDataTask := c.userDataTask.cancel }
  | .serviceSubscribed =>
      { c with serviceStarting := false, userDataTask := .running, connected := true }
  | .serviceStartFails => { c with serviceStarting := false }
  | .streamEnds => { c with userDataTask := .ended }.handleDisconnect
  | .transitionsOver | .attemptFails => c.loopTest
  | .transitionsRaise | .closedAll => c.leaveHandler
  | .backoffOver =>
      { c with
        reconnectAttempts := c.reconnectAttempts + 1
        userDataTask := c.userDataTask.cancel
        phase := .start }
  | .reconnected => { c with userDataTask := .running, connected := true, phase := .fullStateSync }
  | .synced => { c with phase := .restorePipelines }
  | .restored => { c with reconnectAttempts := 0 }.leaveHandler

def step (c : WsConnection) (event : ConnectionEvent) : Option WsConnection :=
  if c.Enabled event then some (c.after event) else none

theorem step_eq_some_iff {c c' : WsConnection} {event : ConnectionEvent} :
    c.step event = some c' ↔ c.Enabled event ∧ c.after event = c' := by
  unfold step
  by_cases henabled : c.Enabled event
  · rw [if_pos henabled, Option.some.injEq, and_iff_right henabled]
  · rw [if_neg henabled]
    exact iff_of_false (fun h => by cases h) fun h => henabled h.1

end WsConnection

namespace ConnectionEvent

/-- The event is a phase of `_handle_disconnect` that ends. -/
def OfHandler : ConnectionEvent → Prop
  | .serviceStart | .serviceSubscribed | .serviceStartFails | .streamEnds => False
  | _ => True

/-- A call of `start`. -/
def IsAttempt (event : ConnectionEvent) : Prop := event = .serviceStart ∨ event = .backoffOver

/-- `_handle_disconnect` returns or raises. -/
def IsReturn (event : ConnectionEvent) : Prop :=
  event = .transitionsRaise ∨ event = .restored ∨ event = .closedAll

/-- Neither a handler returns nor its `start`. -/
def IsQuiet (event : ConnectionEvent) : Prop := ¬event.IsReturn ∧ event ≠ .reconnected

instance (event : ConnectionEvent) : Decidable event.IsReturn :=
  inferInstanceAs (Decidable (event = .transitionsRaise ∨ event = .restored ∨ event = .closedAll))

instance (event : ConnectionEvent) : Decidable event.IsQuiet :=
  inferInstanceAs (Decidable (¬event.IsReturn ∧ event ≠ .reconnected))

end ConnectionEvent

/-- No handler is running and the last stream has ended by itself, but the manager says that it is
connected, and there will be no other attempt. -/
def Forgotten (c : WsConnection) : Prop :=
  c.phase = .idle ∧ c.userDataTask = .ended ∧ c.connected = true ∧
    ∀ events c', run WsConnection.step c events = some c' → ∀ event ∈ events, ¬event.IsAttempt

/-- A stream that a handler has launched ends before the handler returns, and the handler launches
no other one. -/
def EndsUnheard (events : List ConnectionEvent) : Prop :=
  ∃ before between after last rest,
    events = before ++ .reconnected :: between ++ .streamEnds :: after ++ last :: rest ∧
      (∀ event ∈ between ++ after, event.IsQuiet) ∧ last.IsReturn

/-! ## What holds in every state -/

/-- The flags and the phases agree. -/
structure WsConnection.Consistent (c : WsConnection) : Prop where
  reconnecting_iff : c.reconnecting = true ↔ c.phase ≠ .idle
  starting_idle : c.serviceStarting = true → c.phase = .idle
  starting_disconnected : c.serviceStarting = true → c.connected = false
  starting_stopped : c.serviceStarting = true → c.userDataTask ≠ .running
  transitions_disconnected : c.phase = .transitions → c.connected = false

namespace WsConnection

variable {c c' : WsConnection} {event : ConnectionEvent}

theorem consistent_initial : Consistent {} where
  reconnecting_iff := by simp
  starting_idle := by simp
  starting_disconnected := by simp
  starting_stopped := by simp
  transitions_disconnected := by simp

theorem cancel_ne_running (task : UserDataTask) : task.cancel ≠ .running := by
  cases task <;> simp [UserDataTask.cancel]

theorem cancel_eq_ended {task : UserDataTask} : task.cancel = .ended ↔ task = .ended := by
  cases task <;> simp [UserDataTask.cancel]

theorem loopTest_phase (c : WsConnection) :
    c.loopTest.phase ≠ .idle ∧ c.loopTest.phase ≠ .transitions := by
  unfold loopTest
  split <;> simp

theorem Enabled.ne_idle (h : c.Enabled event) (hhandler : event.OfHandler) :
    c.phase ≠ .idle := by
  intro hidle
  cases event <;> simp_all [Enabled, ConnectionEvent.OfHandler]

theorem Consistent.not_starting (h : c.Consistent) (hphase : c.phase ≠ .idle) :
    c.serviceStarting = false := by
  cases hstart : c.serviceStarting with
  | false => rfl
  | true => exact absurd (h.starting_idle hstart) hphase

theorem Consistent.move (h : c.Consistent) (hphase : c.phase ≠ .idle)
    (hreconnecting : c'.reconnecting = c.reconnecting)
    (hstarting : c'.serviceStarting = c.serviceStarting) (hidle : c'.phase ≠ .idle)
    (htransitions : c'.phase ≠ .transitions) : c'.Consistent := by
  have hfalse : c'.serviceStarting ≠ true := by
    rw [hstarting, h.not_starting hphase]
    exact Bool.false_ne_true
  refine ⟨?_, fun hs => absurd hs hfalse, fun hs => absurd hs hfalse, fun hs => absurd hs hfalse,
    fun ht => absurd ht htransitions⟩
  rw [hreconnecting, h.reconnecting_iff]
  exact ⟨fun _ => hidle, fun _ => hphase⟩

theorem Consistent.leaveHandler (h : c.Consistent) (hphase : c.phase ≠ .idle) :
    c.leaveHandler.Consistent := by
  have hfalse : c.serviceStarting ≠ true := by
    rw [h.not_starting hphase]
    exact Bool.false_ne_true
  exact ⟨by simp [WsConnection.leaveHandler], fun hs => absurd hs hfalse,
    fun hs => absurd hs hfalse, fun hs => absurd hs hfalse,
    fun ht => by simp [WsConnection.leaveHandler] at ht⟩

theorem Consistent.step (h : c.Consistent) (hstep : c.step event = some c') : c'.Consistent := by
  obtain ⟨henabled, rfl⟩ := step_eq_some_iff.mp hstep
  cases event with
  | serviceStart =>
    obtain ⟨hconnected, hreconnecting, -⟩ := henabled
    have hidle : c.phase = .idle := by
      by_contra hne
      rw [h.reconnecting_iff.mpr hne] at hreconnecting
      cases hreconnecting
    exact ⟨h.reconnecting_iff, fun _ => hidle, fun _ => hconnected, fun _ => cancel_ne_running _,
      h.transitions_disconnected⟩
  | serviceSubscribed =>
    have hidle := h.starting_idle henabled
    refine ⟨h.reconnecting_iff, by simp [after], by simp [after], by simp [after], fun ht => ?_⟩
    exact absurd (hidle.symm.trans ht) (by simp)
  | serviceStartFails =>
    exact ⟨h.reconnecting_iff, by simp [after], by simp [after], by simp [after],
      h.transitions_disconnected⟩
  | streamEnds =>
    have hfalse : c.serviceStarting ≠ true := fun hs => h.starting_stopped hs henabled
    unfold after handleDisconnect
    dsimp only
    split
    · exact ⟨h.reconnecting_iff, fun hs => absurd hs hfalse, fun hs => absurd hs hfalse,
        fun hs => absurd hs hfalse, h.transitions_disconnected⟩
    · exact ⟨by simp, fun hs => absurd hs hfalse, fun _ => rfl, fun hs => absurd hs hfalse,
        fun _ => rfl⟩
  | transitionsOver =>
    exact h.move (henabled.ne_idle trivial) rfl rfl (loopTest_phase c).1 (loopTest_phase c).2
  | transitionsRaise => exact h.leaveHandler (henabled.ne_idle trivial)
  | backoffOver =>
    exact h.move (henabled.ne_idle trivial) rfl rfl (by simp [after]) (by simp [after])
  | reconnected =>
    exact h.move (henabled.ne_idle trivial) rfl rfl (by simp [after]) (by simp [after])
  | synced =>
    exact h.move (henabled.ne_idle trivial) rfl rfl (by simp [after]) (by simp [after])
  | restored =>
    have hphase : c.phase = .restorePipelines := henabled
    have hlive := henabled.ne_idle trivial
    have hreset : Consistent { c with reconnectAttempts := 0 } :=
      h.move hlive rfl rfl hlive (by rw [hphase]; simp)
    exact hreset.leaveHandler hlive
  | attemptFails =>
    exact h.move (henabled.ne_idle trivial) rfl rfl (loopTest_phase c).1 (loopTest_phase c).2
  | closedAll => exact h.leaveHandler (henabled.ne_idle trivial)

theorem consistent_of_run {events : List ConnectionEvent}
    (hrun : run WsConnection.step {} events = some c) : c.Consistent :=
  run_invariant WsConnection.step (fun _ _ _ h hs => h.step hs) consistent_initial hrun

end WsConnection

/-! ## Inside a handler that has launched a stream -/

namespace WsConnection

variable {c c' : WsConnection} {event : ConnectionEvent} {events : List ConnectionEvent}

/-- A handler is running, and its `start` has returned. -/
structure Launched (c : WsConnection) : Prop where
  consistent : c.Consistent
  handling : c.phase ≠ .idle
  connected : c.connected = true

theorem Launched.step (h : c.Launched) (hquiet : event.IsQuiet)
    (hstep : c.step event = some c') :
    c'.Launched ∧ (c.userDataTask = .ended ∨ event = .streamEnds ↔ c'.userDataTask = .ended) := by
  have hconsistent := h.consistent.step hstep
  have hreconnecting := h.consistent.reconnecting_iff.mpr h.handling
  obtain ⟨henabled, rfl⟩ := step_eq_some_iff.mp hstep
  obtain ⟨hreturn, hlaunch⟩ := hquiet
  unfold ConnectionEvent.IsReturn at hreturn
  cases event with
  | serviceStart =>
    have hconnected := henabled.1
    rw [h.connected] at hconnected
    cases hconnected
  | serviceSubscribed => exact absurd (h.consistent.starting_idle henabled) h.handling
  | serviceStartFails => exact absurd (h.consistent.starting_idle henabled) h.handling
  | streamEnds =>
    have hafter : c.after .streamEnds = { c with userDataTask := .ended } := by
      unfold after handleDisconnect
      rw [if_pos hreconnecting]
    rw [hafter] at hconsistent ⊢
    exact ⟨⟨hconsistent, h.handling, h.connected⟩, by simp⟩
  | transitionsOver =>
    have hconnected := h.consistent.transitions_disconnected henabled
    rw [h.connected] at hconnected
    cases hconnected
  | transitionsRaise => simp at hreturn
  | backoffOver =>
    refine ⟨⟨hconsistent, by simp [after], h.connected⟩, ?_⟩
    rw [or_iff_left (by simp)]
    exact cancel_eq_ended.symm
  | reconnected => exact absurd rfl hlaunch
  | synced => exact ⟨⟨hconsistent, by simp [after], h.connected⟩, or_iff_left (by simp)⟩
  | restored => simp at hreturn
  | attemptFails =>
    exact ⟨⟨hconsistent, (loopTest_phase c).1, h.connected⟩, or_iff_left (by simp)⟩
  | closedAll => simp at hreturn

theorem Launched.run (h : c.Launched) (hquiet : ∀ event ∈ events, event.IsQuiet)
    (hrun : run WsConnection.step c events = some c') :
    c'.Launched ∧ (c.userDataTask = .ended → c'.userDataTask = .ended) := by
  refine invariant_of_alongRun WsConnection.step
    (P := fun _ event => event.IsQuiet)
    (I := fun s => s.Launched ∧ (c.userDataTask = .ended → s.userDataTask = .ended))
    (fun s event s' hs hquiet hstep => ?_) ⟨h, id⟩
    (alongRun_of_forall WsConnection.step hquiet) hrun
  obtain ⟨hlaunched, hended⟩ := hs.1.step hquiet hstep
  exact ⟨hlaunched, fun hfirst => hended.mp (Or.inl (hs.2 hfirst))⟩

theorem Consistent.launched (h : c.Consistent) (hstep : c.step .reconnected = some c') :
    c'.Launched ∧ c'.userDataTask = .running := by
  have hconsistent := h.step hstep
  obtain ⟨-, rfl⟩ := step_eq_some_iff.mp hstep
  exact ⟨⟨hconsistent, by simp [after], rfl⟩, rfl⟩

theorem Launched.before (h : c.Consistent) (hstep : c.step event = some c')
    (hlaunch : event ≠ .reconnected) (hphase : c'.phase ≠ .idle)
    (hconnected : c'.connected = true) :
    c.Launched ∧ event.IsQuiet := by
  obtain ⟨henabled, rfl⟩ := step_eq_some_iff.mp hstep
  cases event with
  | serviceStart =>
    have hidle : c.phase ≠ .idle := hphase
    rw [← h.reconnecting_iff, henabled.2.1] at hidle
    cases hidle
  | serviceSubscribed => exact absurd (h.starting_idle henabled) hphase
  | serviceStartFails => exact absurd (h.starting_idle henabled) hphase
  | streamEnds =>
    unfold after handleDisconnect at hphase hconnected
    dsimp only at hphase hconnected
    split at hphase
    · rename_i hreconnecting
      rw [if_pos hreconnecting] at hconnected
      exact ⟨⟨h, hphase, hconnected⟩, by decide⟩
    · rename_i hfree
      rw [if_neg hfree] at hconnected
      cases hconnected
  | transitionsOver =>
    have hfalse := h.transitions_disconnected henabled
    rw [show c.connected = true from hconnected] at hfalse
    cases hfalse
  | transitionsRaise => exact absurd rfl hphase
  | backoffOver => exact ⟨⟨h, henabled.ne_idle trivial, hconnected⟩, by decide⟩
  | reconnected => exact absurd rfl hlaunch
  | synced => exact ⟨⟨h, henabled.ne_idle trivial, hconnected⟩, by decide⟩
  | restored => exact absurd rfl hphase
  | attemptFails => exact ⟨⟨h, henabled.ne_idle trivial, hconnected⟩, by decide⟩
  | closedAll => exact absurd rfl hphase

theorem launched_of_run (hrun : run WsConnection.step {} events = some c) (hphase : c.phase ≠ .idle)
    (hconnected : c.connected = true) :
    ∃ before since, events = before ++ .reconnected :: since ∧
      (∀ event ∈ since, event.IsQuiet) ∧ (c.userDataTask = .ended → .streamEnds ∈ since) := by
  induction events using List.reverseRecOn generalizing c with
  | nil =>
    obtain rfl := Option.some.inj hrun
    cases hconnected
  | append_singleton events event ih =>
    obtain ⟨s, hs, hstep⟩ := (run_concat_eq_some WsConnection.step).mp hrun
    have hconsistent := consistent_of_run hs
    by_cases hlaunch : event = .reconnected
    · subst hlaunch
      refine ⟨events, [], rfl, by simp, fun hended => ?_⟩
      rw [(hconsistent.launched hstep).2] at hended
      cases hended
    · obtain ⟨hlaunched, hquietEvent⟩ :=
        Launched.before hconsistent hstep hlaunch hphase hconnected
      obtain ⟨before, since, rfl, hquiet, hended⟩ := ih hs hlaunched.handling hlaunched.connected
      refine ⟨before, since ++ [event], by simp, ?_, fun hafterEnded => ?_⟩
      · intro e he
        rcases List.mem_append.mp he with hold | hnew
        · exact hquiet e hold
        · rw [List.mem_singleton.mp hnew]
          exact hquietEvent
      · rcases (hlaunched.step hquietEvent hstep).2.mpr hafterEnded with hfirst | hnow
        · exact List.mem_append_left _ (hended hfirst)
        · exact List.mem_append_right _ (List.mem_singleton.mpr hnow.symm)

end WsConnection

/-! ## Forgotten streams -/

section Forgotten

variable {c c' : WsConnection} {events : List ConnectionEvent}

theorem forgotten_of_ended (h : c.Consistent) (hphase : c.phase = .idle)
    (hended : c.userDataTask = .ended) (hconnected : c.connected = true) : Forgotten c := by
  refine ⟨hphase, hended, hconnected, fun events c' hrun => ?_⟩
  cases events with
  | nil => simp
  | cons event events =>
    obtain ⟨s, hstep, -⟩ := (run_cons_eq_some WsConnection.step).mp hrun
    obtain ⟨henabled, -⟩ := WsConnection.step_eq_some_iff.mp hstep
    have hnot : c.serviceStarting ≠ true := fun hs => by
      have hfalse := h.starting_disconnected hs
      rw [hconnected] at hfalse
      cases hfalse
    cases event <;> simp_all [WsConnection.Enabled]

theorem endsUnheard_of_forgotten (hrun : run WsConnection.step {} events = some c)
    (h : Forgotten c) : EndsUnheard events := by
  obtain ⟨hidle, hended, hconnected, -⟩ := h
  rcases List.eq_nil_or_concat events with rfl | ⟨front, last, rfl⟩
  · obtain rfl := Option.some.inj hrun
    cases hconnected
  · rw [List.concat_eq_append] at hrun ⊢
    obtain ⟨s, hs, hstep⟩ := (run_concat_eq_some WsConnection.step).mp hrun
    have hconsistent := WsConnection.consistent_of_run hs
    obtain ⟨henabled, rfl⟩ := WsConnection.step_eq_some_iff.mp hstep
    have hreturn : last.IsReturn ∧ s.phase ≠ .idle ∧ s.connected = true ∧
        s.userDataTask = .ended := by
      cases last with
      | serviceStart =>
        have hfalse := henabled.1
        rw [show s.connected = true from hconnected] at hfalse
        cases hfalse
      | serviceSubscribed => cases hended
      | serviceStartFails =>
        have hfalse := hconsistent.starting_disconnected henabled
        rw [show s.connected = true from hconnected] at hfalse
        cases hfalse
      | streamEnds =>
        unfold WsConnection.after WsConnection.handleDisconnect at hidle
        dsimp only at hidle
        split at hidle
        · rename_i hreconnecting
          exact absurd hidle (hconsistent.reconnecting_iff.mp hreconnecting)
        · cases hidle
      | transitionsOver => exact absurd hidle (WsConnection.loopTest_phase s).1
      | transitionsRaise =>
        have hfalse := hconsistent.transitions_disconnected henabled
        rw [show s.connected = true from hconnected] at hfalse
        cases hfalse
      | backoffOver => cases hidle
      | reconnected => cases hended
      | synced => cases hidle
      | restored =>
        exact ⟨Or.inr (Or.inl rfl), henabled.ne_idle trivial, hconnected, hended⟩
      | attemptFails => exact absurd hidle (WsConnection.loopTest_phase s).1
      | closedAll => exact ⟨Or.inr (Or.inr rfl), henabled.ne_idle trivial, hconnected, hended⟩
    obtain ⟨hlastReturn, hhandling, hlaunched, hdead⟩ := hreturn
    obtain ⟨before, since, rfl, hquiet, hheard⟩ :=
      WsConnection.launched_of_run hs hhandling hlaunched
    obtain ⟨between, after, rfl⟩ := List.append_of_mem (hheard hdead)
    refine ⟨before, between, after, last, [], by simp, fun event hevent => ?_, hlastReturn⟩
    refine hquiet event ?_
    rcases List.mem_append.mp hevent with hleft | hright
    · exact List.mem_append_left _ hleft
    · exact List.mem_append_right _ (List.mem_cons_of_mem _ hright)

theorem forgotten_of_endsUnheard (hrun : run WsConnection.step {} events = some c)
    (h : EndsUnheard events) :
    ∃ before c', before <+: events ∧ run WsConnection.step {} before = some c' ∧ Forgotten c' := by
  obtain ⟨before, between, after, last, rest, rfl, hquiet, hreturn⟩ := h
  have hsplit : before ++ .reconnected :: between ++ .streamEnds :: after ++ last :: rest =
      before ++ [.reconnected] ++ between ++ [.streamEnds] ++ after ++ [last] ++ rest := by
    simp
  rw [hsplit, run_append, Option.bind_eq_some_iff] at hrun
  obtain ⟨t, ht, -⟩ := hrun
  refine ⟨_, t, hsplit ▸ List.prefix_append _ rest, ht, ?_⟩
  have hconsistent := WsConnection.consistent_of_run ht
  obtain ⟨s₃, hs₃, hlast⟩ := (run_concat_eq_some WsConnection.step).mp ht
  rw [run_append, Option.bind_eq_some_iff] at hs₃
  obtain ⟨s₂, hs₂, hafter⟩ := hs₃
  obtain ⟨s₁, hs₁, hends⟩ := (run_concat_eq_some WsConnection.step).mp hs₂
  rw [run_append, Option.bind_eq_some_iff] at hs₁
  obtain ⟨s₀, hs₀, hbetween⟩ := hs₁
  obtain ⟨s, hs, hlaunch⟩ := (run_concat_eq_some WsConnection.step).mp hs₀
  have hlaunched₀ := ((WsConnection.consistent_of_run hs).launched hlaunch).1
  have hlaunched₁ :=
    (hlaunched₀.run (fun e he => hquiet e (List.mem_append_left _ he)) hbetween).1
  obtain ⟨hlaunched₂, hended₂⟩ := hlaunched₁.step (by decide) hends
  obtain ⟨hlaunched₃, hended₃⟩ :=
    hlaunched₂.run (fun e he => hquiet e (List.mem_append_right _ he)) hafter
  have hended := hended₃ (hended₂.mp (Or.inr rfl))
  obtain ⟨henabled, rfl⟩ := WsConnection.step_eq_some_iff.mp hlast
  rcases hreturn with rfl | rfl | rfl
  · have hfalse := hlaunched₃.consistent.transitions_disconnected henabled
    rw [hlaunched₃.connected] at hfalse
    cases hfalse
  · exact forgotten_of_ended hconsistent rfl hended hlaunched₃.connected
  · exact forgotten_of_ended hconsistent rfl hended hlaunched₃.connected

theorem EndsUnheard.of_prefix {before : List ConnectionEvent} (hinit : before <+: events)
    (h : EndsUnheard before) : EndsUnheard events := by
  obtain ⟨tail, rfl⟩ := hinit
  obtain ⟨first, between, after, last, rest, rfl, hquiet, hreturn⟩ := h
  exact ⟨first, between, after, last, rest ++ tail, by simp, hquiet, hreturn⟩

/-- **When a dead stream is forgotten**: a run of the connection comes to such a state exactly if
some handler returns after the last stream it has launched has ended. -/
theorem notForgotten_iff (hrun : run WsConnection.step {} events = some c) :
    (∀ before c', before <+: events → run WsConnection.step {} before = some c' →
      ¬Forgotten c') ↔ ¬EndsUnheard events := by
  constructor
  · intro hnever hends
    obtain ⟨before, c', hinit, hbefore, hforgotten⟩ := forgotten_of_endsUnheard hrun hends
    exact hnever before c' hinit hbefore hforgotten
  · intro hheard before c' hinit hbefore hforgotten
    exact hheard (EndsUnheard.of_prefix hinit (endsUnheard_of_forgotten hbefore hforgotten))

end Forgotten

/-- The first connection of a manager, the end of its stream, and a reconnect that comes to its
sync. -/
def reconnectingRun : List ConnectionEvent :=
  [.serviceStart, .serviceSubscribed, .streamEnds, .transitionsOver, .backoffOver, .reconnected]

/-- The new stream ends under the sync, the sync fails, and another attempt succeeds. -/
def failedSyncRun : List ConnectionEvent :=
  reconnectingRun ++
    [.streamEnds, .attemptFails, .backoffOver, .reconnected, .synced, .restored]

theorem heard_failedSync : ¬EndsUnheard failedSyncRun := by
  refine (notForgotten_iff (c := { connected := true, userDataTask := .running })
    (by decide)).mp fun before c' hinit hbefore hforgotten => ?_
  have hnever : ∀ before ∈ failedSyncRun.inits, (run WsConnection.step {} before).all fun c =>
      !(c.phase = .idle && c.userDataTask = .ended && c.connected) := by decide
  have hhere := hnever before ((List.mem_inits _ _).mpr hinit)
  obtain ⟨hidle, hended, hconnected, -⟩ := hforgotten
  simp [hbefore, hidle, hended, hconnected] at hhere

/-- **A stream that ends under the sync is forgotten** when the sync then succeeds. -/
theorem streamEnds_while_syncing_forgotten :
    ∃ c, run WsConnection.step {} (reconnectingRun ++ [.streamEnds, .synced, .restored]) = some c ∧
      Forgotten c := by
  have hrun : run WsConnection.step {} (reconnectingRun ++ [.streamEnds, .synced, .restored]) =
      some { connected := true, userDataTask := .ended } := by decide
  exact ⟨_, hrun, forgotten_of_ended (WsConnection.consistent_of_run hrun) rfl rfl rfl⟩

end AdviserConstructor
