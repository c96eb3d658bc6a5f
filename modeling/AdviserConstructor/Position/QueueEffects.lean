import AdviserConstructor.Position.OrderQueue

/-!
# What a step of the queue can do

Seventeen labels, but only nine kinds of effect on the heap, the pending map, the tombstones and
the task in the loop's hands.  `Effect` lists them and `effect_of_step` says that there are no
others; the invariants of the queue are case analyses of `Effect` and never unfold `step`.

Most labels only move the loop from one phase to the next.  They are the constructor `move`:
nothing changes hands, and of the task objects only the retry counter may change.
-/

namespace AdviserConstructor
namespace QueueState

open BinaryHeap

/-- The same heap, maps and history, and the same task objects up to their retry counters. -/
structure SameQueue (s t : QueueState) : Prop where
  heap : t.heap = s.heap
  fresh : t.fresh = s.fresh
  pending : t.pending = s.pending
  tombstoned : t.tombstoned = s.tombstoned
  history : t.history = s.history
  store : ∀ id, ∃ n, t.store id = { s.store id with retryCount := n }

/-- The effects of a step. -/
inductive Effect (s : QueueState) : QueueStep → QueueState → Prop where
  | enqueue (task : OrderTask) : Effect s (.enqueue task) (s.enqueue task)
  | purge (positionId : String) (actions : List TaskAction) :
      Effect s (.purgePending positionId actions) (s.purgePending positionId actions)
  | move {a : QueueStep} {t : QueueState} (same : SameQueue s t)
      (held : t.phase.held = s.phase.held)
      (started : s.phase.callStarted = false → t.phase.callStarted = false)
      (backoff : t.phase.inBackoff = false → s.phase.inBackoff = false)
      (unchecked : ∀ id key, t.phase = .dequeued id key ↔ s.phase = .dequeued id key)
      (landing : ∀ id, t.phase.landing = some id → s.phase.landing = some id) : Effect s a t
  | take {id : TaskId} {rest : List TaskId} (phase : s.phase = .polling)
      (popped : pop s.taskLt s.heap = some (id, rest)) :
      Effect s .dequeue { s with heap := rest, phase := .dequeued id (s.store id).key }
  | drop {id : TaskId} {key : TaskKey} (phase : s.phase = .dequeued id key)
      (hit : key ∈ s.tombstoned) :
      Effect s .checkTombstone
        { s with
          tombstoned := s.tombstoned.erase key
          phase := .polling
          history := { s.history with dropped := s.history.dropped ++ [id] } }
  | pass {id : TaskId} {key : TaskKey} (phase : s.phase = .dequeued id key)
      (miss : key ∉ s.tombstoned) : Effect s .checkTombstone { s with phase := .waiting id key }
  | execute {id : TaskId} {key : TaskKey} (phase : s.phase = .admitted id key)
      (live : PositionReply) (defaultId : String) :
      Effect s (.execute live defaultId) (s.beginExecution id key live defaultId)
  | putBack {a : QueueStep} {id : TaskId} {key : TaskKey}
      (phase : s.phase = .waiting id key ∨ s.phase = .backoff id key) :
      Effect s a { s.putHeap id with phase := .polling }
  | escalate {id : TaskId} {key : TaskKey} {error : TaskError} {emergency : OrderTask} {now : ℚ}
      (phase : s.phase = .escalating id key error)
      (escalated : escalationOf (s.store id) error now = some emergency) :
      Effect s (.escalate now) { s.enqueue emergency with phase := .cleanup id key }
  | finish {id : TaskId} {key : TaskKey} (phase : s.phase = .cleanup id key) :
      Effect s .cleanup { s with pending := s.pending.remove key, phase := .polling }

theorem SameQueue.of_phase (s : QueueState) (p : LoopPhase) : SameQueue s { s with phase := p } :=
  ⟨rfl, rfl, rfl, rfl, rfl, fun id => ⟨(s.store id).retryCount, rfl⟩⟩

theorem Effect.of_phase {s : QueueState} {a : QueueStep} (p : LoopPhase)
    (held : p.held = s.phase.held)
    (started : s.phase.callStarted = false → p.callStarted = false)
    (backoff : p.inBackoff = false → s.phase.inBackoff = false)
    (unchecked : ∀ id key, p = .dequeued id key ↔ s.phase = .dequeued id key)
    (landing : ∀ id, p.landing = some id → s.phase.landing = some id) :
    Effect s a { s with phase := p } :=
  .move (SameQueue.of_phase s p) held started backoff unchecked landing

theorem Effect.of_called {s : QueueState} {a : QueueStep} (p : LoopPhase)
    (called : s.phase.callStarted = true) (held : p.held = s.phase.held)
    (checked : ∀ id key, p ≠ .dequeued id key) (landed : p.landing = none) :
    Effect s a { s with phase := p } := by
  refine .of_phase p held (fun h => absurd (called.symm.trans h) (by simp)) (fun _ => ?_)
    (fun id key => iff_of_false (checked id key) ?_)
    (fun id h => absurd (landed.symm.trans h) (by simp))
  · cases hp : s.phase <;>
      first | rfl | exact absurd (hp ▸ called) (by simp [LoopPhase.callStarted])
  · intro hp
    exact absurd (hp ▸ called) (by simp [LoopPhase.callStarted])

theorem effect_routeOutcome {s : QueueState} {id : TaskId} {key : TaskKey} {event : ℕ}
    {outcome : Option TaskError} (hphase : s.phase = .releasing id key event outcome) :
    Effect s .release ((s.unmark key event).routeOutcome id key outcome) := by
  have hmove : ∀ (p : LoopPhase) (store : TaskId → OrderTask), p.held = some (id, key) →
      (∀ i k, p ≠ .dequeued i k) → p.landing = none →
      (∀ i, ∃ n, store i = { s.store i with retryCount := n }) →
      Effect s .release { s.unmark key event with phase := p, store := store } := by
    intro p store hp hchecked hlanded hstore
    refine .move ⟨rfl, rfl, rfl, rfl, rfl, hstore⟩ ?_ ?_ ?_ ?_
      (fun i h => absurd (hlanded.symm.trans h) (by simp))
    · rw [hp, hphase]
      rfl
    · intro h
      rw [hphase] at h
      exact absurd h (by simp [LoopPhase.callStarted])
    · intro _
      rw [hphase]
      rfl
    · intro i k
      rw [hphase]
      exact iff_of_false (hchecked i k) (by simp)
  have hkeep : ∀ i, ∃ n, s.store i = { s.store i with retryCount := n } :=
    fun i => ⟨(s.store i).retryCount, rfl⟩
  match outcome with
  | none => exact hmove (.cleanup id key) s.store rfl (by simp) rfl hkeep
  | some (.wouldImmediatelyTrigger _) =>
    exact hmove (.cleanup id key) s.store rfl (by simp) rfl hkeep
  | some (.positionAlreadyFlat _) =>
    exact hmove (.cleanup id key) s.store rfl (by simp) rfl hkeep
  | some (.other message) =>
    exact hmove (.escalating id key (.other message)) s.store rfl (by simp) rfl hkeep
  | some (.transient message) =>
    simp only [routeOutcome]
    split
    · -- another attempt: the retry counter is the only thing written
      refine hmove (.backoff id key) _ rfl (by simp) rfl fun i => ?_
      by_cases hi : i = id
      · subst hi
        exact ⟨(s.store i).retryCount + 1, by simp [unmark]⟩
      · exact ⟨(s.store i).retryCount, by simp [Function.update_of_ne hi, unmark]⟩
    · exact hmove (.escalating id key (.transient message)) s.store rfl (by simp) rfl hkeep

theorem escalationOf_action {task emergency : OrderTask} {error : TaskError} {now : ℚ}
    (h : escalationOf task error now = some emergency) :
    emergency.action = .emergencyMarketClose := by
  have hescalation : ∀ reason, escalation task reason now = some emergency →
      emergency.action = .emergencyMarketClose := by
    intro reason h
    unfold escalation at h
    split at h
    · rw [← Option.some.inj h]
    · cases h
  cases error with
  | transient message => exact hescalation _ h
  | wouldImmediatelyTrigger code => exact hescalation _ h
  | positionAlreadyFlat code => exact hescalation _ h
  | other message => exact hescalation _ h

/-- **A step has one of the listed effects.** -/
theorem effect_of_step {s t : QueueState} {a : QueueStep} (h : step s a = some t) :
    Effect s a t := by
  cases a with
  | enqueue task =>
    cases h
    exact .enqueue task
  | purgePending positionId actions =>
    cases h
    exact .purge positionId actions
  | stop =>
    cases h
    exact .move ⟨rfl, rfl, rfl, rfl, rfl, fun id => ⟨(s.store id).retryCount, rfl⟩⟩ rfl id id
      (fun _ _ => Iff.rfl) fun _ h => h
  | startProcessing =>
    simp only [step] at h
    split at h
    · next hp =>
      cases h
      refine .move ⟨rfl, rfl, rfl, rfl, rfl, fun id => ⟨(s.store id).retryCount, rfl⟩⟩
        ?_ ?_ ?_ ?_ ?_
      all_goals
        simp [hp, LoopPhase.held, LoopPhase.callStarted, LoopPhase.inBackoff, LoopPhase.landing]
    · cases h
  | leave =>
    simp only [step] at h
    split at h
    · next hp =>
      split at h
      · cases h
      · cases h
        exact .of_phase .stopped (by rw [hp]; rfl) (fun _ => rfl) (fun _ => by rw [hp]; rfl)
          (by simp [hp]) (by simp [LoopPhase.landing])
    · cases h
  | dequeue =>
    simp only [step] at h
    split at h
    · next hp =>
      obtain ⟨⟨id, rest⟩, hpop, rfl⟩ := Option.map_eq_some_iff.mp h
      exact .take hp hpop
    · cases h
  | checkTombstone =>
    simp only [step] at h
    split at h
    · next id key hp =>
      split at h
      · next hit =>
        cases h
        exact .drop hp hit
      · next miss =>
        cases h
        exact .pass hp miss
    · cases h
  | headroom =>
    simp only [step] at h
    split at h
    · next id key hp =>
      split at h
      · cases h
        exact .of_phase (.admitted id key) (by rw [hp]; rfl) (fun _ => rfl)
          (fun _ => by rw [hp]; rfl) (by simp [hp]) (fun i hi => by rw [hp]; exact hi)
      · cases h
    · cases h
  | headroomLost =>
    simp only [step] at h
    split at h
    · next id key hp =>
      split at h
      · cases h
      · cases h
        exact .putBack (Or.inl hp)
    · cases h
  | execute live defaultId =>
    simp only [step] at h
    split at h
    · next id key hp =>
      cases h
      exact .execute hp live defaultId
    · cases h
  | adapterReturns =>
    simp only [step] at h
    split at h
    · next id key event hp =>
      cases h
      refine .of_called _ (by rw [hp]; rfl) ?_ ?_ ?_
      · rw [hp]
        split <;> rfl
      · intro i k
        split <;> simp
      · split <;> rfl
    · cases h
  | adapterRaises error =>
    simp only [step] at h
    split at h
    · next id key event hp =>
      cases h
      exact .of_called _ (by rw [hp]; rfl) (by rw [hp]; rfl) (by simp) rfl
    · cases h
  | callbackReturns =>
    simp only [step] at h
    split at h
    · next id key event hp =>
      cases h
      exact .of_called _ (by rw [hp]; rfl) (by rw [hp]; rfl) (by simp) rfl
    · cases h
  | callbackRaises error =>
    simp only [step] at h
    split at h
    · next id key event hp =>
      cases h
      exact .of_called _ (by rw [hp]; rfl) (by rw [hp]; rfl) (by simp) rfl
    · cases h
  | release =>
    simp only [step] at h
    split at h
    · next id key event outcome hp =>
      cases h
      exact effect_routeOutcome hp
    · cases h
  | backoffElapsed =>
    simp only [step] at h
    split at h
    · next id key hp =>
      cases h
      exact .putBack (Or.inr hp)
    · cases h
  | escalate now =>
    simp only [step] at h
    split at h
    · next id key error hp =>
      split at h
      · next emergency he =>
        cases h
        exact .escalate hp he
      · cases h
        exact .of_called _ (by rw [hp]; rfl) (by rw [hp]; rfl) (by simp) rfl
    · cases h
  | cleanup =>
    simp only [step] at h
    split at h
    · next id key hp =>
      cases h
      exact .finish hp
    · cases h

end QueueState
end AdviserConstructor
