import AdviserConstructor.Library.LoopTurns
import AdviserConstructor.Ws.Outage
import AdviserConstructor.Ws.RuntimeStates

/-!
# Entries that are pending while the stream drops

A disconnect moves every position that is not over to `RECONNECTING`, but the table accepts this
from three states only.  From any other state, those before the entry among them, the transition is
refused, the position is synced at once, and a sync closes what the exchange holds nothing of.  An
entry that is still working has no position on the exchange, so that the first query that is
answered ends it; the sync behind the reconnect does the same.

A cycle is a disconnect and the syncs that follow.  What the exchange knows and the manager does not
is whether the entry has filled by then (`CycleStep.filled`).

* `tracked_of_run`: what the positions of the runtime have, whatever the handlers do.
* `state_syncPosition_flat`: what the exchange holds nothing of is closed by a sync.
* `keepsPendingEntry_iff`: at any point of a run of the runtime, a cycle leaves a pending entry
  alone exactly if no query that is made before the entry has filled is answered.
-/

namespace AdviserConstructor

open LoopTurns PositionContext OutageRun Coroutine StepSystem

/-! ## Cycles -/

/-- A step of a cycle: what the services answer, and whether the entry has filled by then. -/
structure CycleStep where
  answers : Answers
  filled : Bool

/-- The exchange says that it holds nothing of the position. -/
def PositionReply.Flat : PositionReply → Prop
  | .raised => False
  | .noPosition => True
  | .snapshot live => live.size = 0

/-- The exchange says that it holds something of the position. -/
def PositionReply.Held : PositionReply → Prop
  | .raised => False
  | .noPosition => False
  | .snapshot live => live.size ≠ 0

/-- The part of `_full_state_sync` that is about a position. -/
def syncTurn (position : PositionContext) (s : CycleStep) : PositionContext :=
  (position.syncPosition s.answers true).1

/-- The position behind a disconnect and the syncs of the attempts that follow. -/
def reconnectCycle (position : PositionContext) (lost : CycleStep) (syncs : List CycleStep) :
    PositionContext :=
  syncs.foldl syncTurn (position.disconnected lost.answers)

/-- What a step has done to the position. -/
structure CycleMove where
  before : PositionContext
  cause : CycleStep
  after : PositionContext

def cycleMoves (position : PositionContext) (lost : CycleStep) (syncs : List CycleStep) :
    List CycleMove :=
  ⟨position, lost, position.disconnected lost.answers⟩ ::
    (turns syncTurn (position.disconnected lost.answers) syncs).map fun v =>
      ⟨v.1, v.2, syncTurn v.1 v.2⟩

/-- The machine is in the state of the position, and remembers none that is closed. -/
structure Tracked (position : PositionContext) : Prop where
  machine : position.stateMachine.state = position.state
  remembered : position.stateMachine.preReconnectState ≠ some .closed

/-- The exchange tells the truth: a position behind its entry has filled, what has filled stays
filled, and nothing is held before. -/
structure TruthfulCycle (position : PositionContext) (lost : CycleStep) (syncs : List CycleStep) :
    Prop where
  entered : position.state ∉ beforeEntry → lost.filled = true
  lasting : (lost :: syncs).Pairwise fun s s' => s.filled = true → s'.filled = true
  held : ∀ s ∈ lost :: syncs, s.answers.sync.Held → s.filled = true

/-- A cycle closes a position only if the exchange says that it is flat, and it has been filled; an
entry that is still working is entering behind the cycle, or open if the last answer is that the
exchange holds something. -/
structure KeepsPendingEntry (position : PositionContext) (lost : CycleStep)
    (syncs : List CycleStep) : Prop where
  closes : ∀ move ∈ cycleMoves position lost syncs, move.before.state ≠ .closed →
    move.after.state = .closed → move.cause.answers.sync.Flat ∧ move.cause.filled = true
  working : position.state = .entering → (∀ s ∈ lost :: syncs, s.filled = false) →
    (reconnectCycle position lost syncs).state = .entering
  opened : position.state = .entering →
    (∀ s ∈ (lost :: syncs).getLast?, s.answers.sync.Held) →
      (reconnectCycle position lost syncs).state = .open

theorem tracked_of_agrees {position : PositionContext} (h : position.Agrees) :
    Tracked position := by
  refine ⟨h.state.symm, fun hclosed => ?_⟩
  -- the table has no disconnect that leaves `CLOSED`, so that none is in the log
  have hlast := h.sound.remembered _ hclosed
  obtain ⟨entry, hfind, hfrom⟩ := Option.map_eq_some_iff.mp hlast
  have htrigger : entry.trigger = .wsDisconnected := by simpa using List.find?_some hfind
  have hmem := List.mem_reverse.mp (List.mem_of_find?_eq_some hfind)
  obtain ⟨earlier, later, hlog⟩ := List.append_of_mem hmem
  rcases h.sound.allowed earlier entry later hlog with htable | ⟨hsync, -⟩
  · unfold TransitionLogEntry.InTable at htable
    rw [hfrom] at htable
    exact absurd htable (by simp [validTransitions])
  · rw [htrigger] at hsync
    cases hsync

/-- **Every position of the runtime is tracked so**, for every interleaving of the handlers. -/
theorem tracked_of_run {turns : List (Turn WsEvent WsAnswer)}
    {loop : EventLoop WsRuntime WsAnswer} (hreach : WsRuntime.Reaches turns loop) (r : ℕ) :
    Tracked (loop.shared.contexts r) := tracked_of_agrees (agrees_of_run hreach r)

/-! ## Syncs -/

section

variable {position : PositionContext} {answers : Answers} {reconnectSync : Bool}
  {lost : CycleStep} {syncs : List CycleStep}

theorem applySyncTransition_allClosed (p : PositionContext) :
    (p.applySyncTransition .allClosed .closed).state = .closed ∧
      (p.applySyncTransition .allClosed .closed).stateMachine.state = .closed ∧
      (p.applySyncTransition .allClosed .closed).stateMachine.preReconnectState =
        p.stateMachine.preReconnectState := by
  unfold applySyncTransition
  cases hmove : p.stateMachine.transition .allClosed with
  | none => exact ⟨rfl, rfl, rfl⟩
  | some moved =>
    obtain ⟨next, machine⟩ := moved
    obtain ⟨target, htable, hmachine, -, hnext⟩ := PositionStateMachine.transition_cases hmove
    have htarget : target = .closed := by
      cases hstate : p.stateMachine.state <;> rw [hstate] at htable <;>
        simp only [validTransitions, Option.some.injEq, reduceCtorEq] at htable <;>
        exact htable.symm
    rcases hnext with ⟨hsync, -⟩ | ⟨rfl, hremembered⟩
    · cases hsync
    · subst htarget
      exact ⟨rfl, hmachine, hremembered⟩

theorem syncPosition_raised (h : answers.sync = .raised) :
    position.syncPosition answers reconnectSync = (position, []) := by
  rw [syncPosition, h]

theorem syncPosition_flat (h : answers.sync.Flat) :
    (position.syncPosition answers reconnectSync).1 =
      applySyncTransition { position with currentQuantity := 0 } .allClosed .closed := by
  rw [syncPosition]
  cases hsync : answers.sync with
  | raised =>
    rw [hsync] at h
    exact h.elim
  | noPosition => rfl
  | snapshot live =>
    rw [hsync] at h
    dsimp only
    rw [if_pos (show live.size = 0 from h)]

/-- **A sync closes** what the exchange holds nothing of. -/
theorem state_syncPosition_flat (h : answers.sync.Flat) :
    (position.syncPosition answers reconnectSync).1.state = .closed := by
  rw [syncPosition_flat h]
  exact (applySyncTransition_allClosed _).1

theorem raised_or_flat_or_held (reply : PositionReply) :
    reply = .raised ∨ reply.Flat ∨ reply.Held := by
  cases reply with
  | raised => exact .inl rfl
  | noPosition => exact .inr (.inl trivial)
  | snapshot live => exact .inr (em (live.size = 0))

/-- A position that the exchange holds, with its quantity, and open if a sync forces it to be. -/
def reopened (position : PositionContext) (quantity : ℚ) : PositionContext :=
  if position.state ∈ reopenedBySync then
    { position with
      currentQuantity := quantity
      stateMachine := { position.stateMachine with state := .open }
      state := .open }
  else { position with currentQuantity := quantity }

theorem state_reopened (quantity : ℚ) :
    (reopened position quantity).state =
      if position.state ∈ reopenedBySync then .open else position.state := by
  unfold reopened
  split <;> rfl

theorem tracked_reopened (h : Tracked position) (quantity : ℚ) :
    Tracked (reopened position quantity) ∧ (reopened position quantity).state ≠ .closed := by
  unfold reopened
  split
  · exact ⟨⟨rfl, h.remembered⟩, by simp⟩
  · next hkept =>
    refine ⟨⟨h.machine, h.remembered⟩, fun hclosed => hkept ?_⟩
    rw [show position.state = .closed from hclosed]
    simp [reopenedBySync]

theorem syncPosition_held (h : answers.sync.Held) :
    ∃ quantity, (position.syncPosition answers reconnectSync).1 =
      if reconnectSync then ((reopened position quantity).syncReconnected answers).1
      else reopened position quantity := by
  rw [syncPosition]
  cases hsync : answers.sync with
  | raised =>
    rw [hsync] at h
    exact h.elim
  | noPosition =>
    rw [hsync] at h
    exact h.elim
  | snapshot live =>
    rw [hsync] at h
    refine ⟨|live.size|, ?_⟩
    dsimp only
    rw [if_neg (show ¬live.size = 0 from h)]
    split <;> rfl

theorem syncReconnected_of_ne (h : position.state ≠ .reconnecting) :
    (position.syncReconnected answers).1 = position := by
  unfold syncReconnected
  split
  · rfl
  · rw [if_neg h]

theorem tracked_syncReconnected (h : Tracked position) (hstate : position.state ≠ .closed) :
    Tracked (position.syncReconnected answers).1 ∧
      (position.syncReconnected answers).1.state ≠ .closed := by
  by_cases hreconnecting : position.state = .reconnecting
  · unfold syncReconnected
    split
    · exact ⟨h, hstate⟩
    · rw [if_pos hreconnecting]
      unfold applySyncTransition
      cases hmove : position.stateMachine.transition .syncComplete with
      | none => exact ⟨⟨rfl, h.remembered⟩, by simp⟩
      | some moved =>
        obtain ⟨next, machine⟩ := moved
        obtain ⟨target, htable, hmachine, -, hnext⟩ := PositionStateMachine.transition_cases hmove
        obtain ⟨-, rfl⟩ := PositionStateMachine.validTransitions_syncComplete htable
        rcases hnext with ⟨-, hbefore, hforgotten⟩ | ⟨rfl, hremembered⟩
        · refine ⟨⟨hmachine, by rw [hforgotten]; simp⟩, fun hclosed => h.remembered ?_⟩
          rw [hbefore, show next = .closed from hclosed]
        · exact ⟨⟨hmachine, hremembered ▸ h.remembered⟩, by simp⟩
  · rw [syncReconnected_of_ne hreconnecting]
    exact ⟨h, hstate⟩

theorem tracked_syncPosition (h : Tracked position) :
    Tracked (position.syncPosition answers reconnectSync).1 ∧
      ((position.syncPosition answers reconnectSync).1.state = .closed →
        position.state = .closed ∨ answers.sync.Flat) := by
  rcases raised_or_flat_or_held answers.sync with hraised | hflat | hheld
  · rw [syncPosition_raised hraised]
    exact ⟨h, .inl⟩
  · refine ⟨?_, fun _ => .inr hflat⟩
    obtain ⟨hstate, hmachine, hremembered⟩ :=
      applySyncTransition_allClosed { position with currentQuantity := 0 }
    rw [syncPosition_flat hflat]
    exact ⟨hmachine.trans hstate.symm, hremembered ▸ h.remembered⟩
  · obtain ⟨quantity, hsynced⟩ :=
      @syncPosition_held position answers reconnectSync hheld
    obtain ⟨hreopened, hopen⟩ := tracked_reopened h quantity
    rw [hsynced]
    split
    · obtain ⟨htracked, hstate⟩ := @tracked_syncReconnected _ answers hreopened hopen
      exact ⟨htracked, fun hclosed => absurd hclosed hstate⟩
    · exact ⟨hreopened, fun hclosed => absurd hclosed hopen⟩

theorem state_syncPosition_held (h : answers.sync.Held) (hstate : position.state ≠ .reconnecting) :
    (position.syncPosition answers reconnectSync).1.state =
      if position.state ∈ reopenedBySync then .open else position.state := by
  obtain ⟨quantity, hsynced⟩ := @syncPosition_held position answers reconnectSync h
  have hkept : (reopened position quantity).state ≠ .reconnecting := by
    rw [state_reopened]
    split
    · simp
    · exact hstate
  rw [hsynced, syncReconnected_of_ne hkept, ite_self, state_reopened]

end

/-! ## Cycles, step by step -/

section

variable {position : PositionContext} {answers : Answers} {lost : CycleStep}
  {syncs : List CycleStep}

theorem disconnected_beforeEntry (htracked : Tracked position)
    (hstate : position.state ∈ beforeEntry) :
    position.disconnected answers = (position.syncPosition answers false).1 := by
  have hlive : position.state ∉ terminalStates := by
    intro hterminal
    simp only [beforeEntry, terminalStates, List.mem_cons, List.not_mem_nil, or_false]
      at hstate hterminal
    rcases hstate with h | h <;> rw [h] at hterminal <;> simp at hterminal
  have hrefused : position.stateMachine.transition .wsDisconnected = none := by
    unfold PositionStateMachine.transition
    rw [htracked.machine]
    simp only [beforeEntry, List.mem_cons, List.not_mem_nil, or_false] at hstate
    rcases hstate with h | h <;> rw [h] <;> rfl
  rw [disconnected, if_neg hlive, applyTransition, hrefused]

theorem tracked_disconnected (h : Tracked position) (hne : position.state ≠ .closed) :
    Tracked (position.disconnected answers) ∧
      ((position.disconnected answers).state = .closed → answers.sync.Flat) := by
  unfold disconnected
  split
  · exact ⟨h, fun hclosed => absurd hclosed hne⟩
  · unfold applyTransition
    cases hmove : position.stateMachine.transition .wsDisconnected with
    | none =>
      obtain ⟨htracked, hcloses⟩ := @tracked_syncPosition position answers false h
      exact ⟨htracked, fun hclosed => (hcloses hclosed).resolve_left hne⟩
    | some moved =>
      obtain ⟨next, machine⟩ := moved
      obtain ⟨target, htable, hmachine, -, hnext⟩ := PositionStateMachine.transition_cases hmove
      obtain rfl : target = .reconnecting :=
        (PositionStateMachine.validTransitions_reconnecting htable).mpr rfl
      rcases hnext with ⟨hsync, -⟩ | ⟨rfl, hremembered⟩
      · cases hsync
      · rw [h.machine] at hremembered
        refine ⟨⟨hmachine, ?_⟩, by simp⟩
        rw [hremembered]
        exact fun hclosed => hne (Option.some.inj hclosed)

theorem forall_cycleMoves {P : CycleMove → Prop} :
    (∀ move ∈ cycleMoves position lost syncs, P move) ↔
      P ⟨position, lost, position.disconnected lost.answers⟩ ∧
        ∀ v ∈ turns syncTurn (position.disconnected lost.answers) syncs,
          P ⟨v.1, v.2, syncTurn v.1 v.2⟩ := by
  unfold cycleMoves
  rw [List.forall_mem_cons, List.forall_mem_map]

theorem raised_of_turns (hstate : position.state ≠ .closed)
    (hlasting : syncs.Pairwise fun s s' => s.filled = true → s'.filled = true)
    (hheld : ∀ s ∈ syncs, s.answers.sync.Held → s.filled = true)
    (hcloses : ∀ v ∈ turns syncTurn position syncs, v.1.state ≠ .closed →
      (syncTurn v.1 v.2).state = .closed → v.2.filled = true) :
    ∀ s ∈ syncs, s.filled = false → s.answers.sync = .raised := by
  induction syncs with
  | nil => exact fun s hs => absurd hs List.not_mem_nil
  | cons s syncs ih =>
    rw [List.pairwise_cons] at hlasting
    have hfirst := hcloses (position, s) List.mem_cons_self hstate
    cases hfilled : s.filled with
    | true =>
      intro s' hs' hunfilled
      rcases List.mem_cons.mp hs' with rfl | hs'
      · rw [hfilled] at hunfilled
        cases hunfilled
      · rw [hlasting.1 s' hs' hfilled] at hunfilled
        cases hunfilled
    | false =>
      have hraised : s.answers.sync = .raised := by
        rcases raised_or_flat_or_held s.answers.sync with h | h | h
        · exact h
        · have hclosed := hfirst (state_syncPosition_flat h)
          rw [hfilled] at hclosed
          cases hclosed
        · have hclosed := hheld s List.mem_cons_self h
          rw [hfilled] at hclosed
          cases hclosed
      have hsame : syncTurn position s = position := by
        unfold syncTurn
        rw [syncPosition_raised hraised]
      have hrest : ∀ s' ∈ syncs, s'.filled = false → s'.answers.sync = .raised := by
        refine ih hlasting.2 (fun s' hs' => hheld s' (List.mem_cons_of_mem _ hs')) fun v hv => ?_
        refine hcloses v (List.mem_cons_of_mem _ ?_)
        rw [hsame]
        exact hv
      exact List.forall_mem_cons.mpr ⟨fun _ => hraised, hrest⟩

theorem foldl_syncTurn_of_raised (h : ∀ s ∈ syncs, s.answers.sync = .raised) :
    syncs.foldl syncTurn position = position := by
  induction syncs with
  | nil => rfl
  | cons s syncs ih =>
    rw [List.forall_mem_cons] at h
    rw [List.foldl_cons]
    unfold syncTurn at ih ⊢
    rw [syncPosition_raised h.1]
    exact ih h.2

/-- The states of an entry in a cycle: the disconnect does not make it reconnecting. -/
def entryStates : List PositionState := [.entering, .open, .closed]

theorem entryStates_syncPosition {reconnectSync : Bool} (h : position.state ∈ entryStates) :
    (position.syncPosition answers reconnectSync).1.state ∈ entryStates ∧
      (answers.sync.Held → (position.syncPosition answers reconnectSync).1.state = .open) := by
  have hstates :
      position.state = .entering ∨ position.state = .open ∨ position.state = .closed := by
    simpa [entryStates] using h
  rcases raised_or_flat_or_held answers.sync with hraised | hflat | hheld
  · rw [syncPosition_raised hraised, hraised]
    exact ⟨h, fun hheld => hheld.elim⟩
  · rw [state_syncPosition_flat hflat]
    refine ⟨by simp [entryStates], fun hheld => ?_⟩
    cases hreply : answers.sync with
    | raised => rw [hreply] at hflat; exact hflat.elim
    | noPosition => rw [hreply] at hheld; exact hheld.elim
    | snapshot live =>
      rw [hreply] at hflat hheld
      exact absurd (show live.size = 0 from hflat) hheld
  · have hopen : (position.syncPosition answers reconnectSync).1.state = .open := by
      rcases hstates with hstate | hstate | hstate <;>
        rw [state_syncPosition_held hheld (by rw [hstate]; simp), hstate] <;> rfl
    exact ⟨by rw [hopen]; simp [entryStates], fun _ => hopen⟩

theorem opened_of_held (htracked : Tracked position) (hstate : position.state = .entering)
    (hlast : ∀ s ∈ (lost :: syncs).getLast?, s.answers.sync.Held) :
    (reconnectCycle position lost syncs).state = .open := by
  have hfirst : position.disconnected lost.answers =
      (position.syncPosition lost.answers false).1 :=
    disconnected_beforeEntry htracked (by rw [hstate]; simp [beforeEntry])
  have hentry : position.state ∈ entryStates := by
    rw [hstate]
    simp [entryStates]
  obtain ⟨hsynced, hheld⟩ := @entryStates_syncPosition position lost.answers false hentry
  unfold reconnectCycle
  rw [hfirst]
  -- the last sync decides, and the disconnect when there is none
  rcases List.eq_nil_or_concat syncs with rfl | ⟨before, last, hsyncs⟩
  · exact hheld (hlast lost (by simp))
  · rw [List.concat_eq_append] at hsyncs
    rw [hsyncs, List.foldl_concat]
    refine (entryStates_syncPosition ?_).2 (hlast last ?_)
    · refine forall_scanl_of_turns (Q := fun p : PositionContext => p.state ∈ entryStates) hsynced
        (fun v _ hv => (entryStates_syncPosition hv).1) _ foldl_mem_scanl
    · rw [hsyncs, ← List.cons_append, List.getLast?_concat]
      rfl

end

/-! ## The condition -/

/-- An answer before the entry has filled can only be that the exchange holds nothing, and the sync
takes it for the end of the position. -/
theorem keepsPendingEntry_of_tracked {position : PositionContext} {lost : CycleStep}
    {syncs : List CycleStep} (htracked : Tracked position) (hlive : position.state ∉ terminalStates)
    (htrue : TruthfulCycle position lost syncs) :
    KeepsPendingEntry position lost syncs ↔
      ∀ s ∈ lost :: syncs, s.filled = false → s.answers.sync = .raised := by
  have hne : position.state ≠ .closed := by
    intro h
    exact hlive (by rw [h]; simp [terminalStates])
  obtain ⟨hfirst, hrest⟩ := List.pairwise_cons.mp htrue.lasting
  constructor
  · intro h
    obtain ⟨hlost, hturns⟩ := forall_cycleMoves.mp h.closes
    cases hfilled : lost.filled with
    | true =>
      refine List.forall_mem_cons.mpr ⟨fun h => ?_, fun s hs h => ?_⟩
      · rw [hfilled] at h
        cases h
      · rw [hfirst s hs hfilled] at h
        cases h
    | false =>
      have hpending : position.state ∈ beforeEntry := by
        by_contra hentered
        rw [htrue.entered hentered] at hfilled
        cases hfilled
      have hsync : position.disconnected lost.answers =
          (position.syncPosition lost.answers false).1 :=
        disconnected_beforeEntry htracked hpending
      have hraised : lost.answers.sync = .raised := by
        rcases raised_or_flat_or_held lost.answers.sync with h | h | h
        · exact h
        · have hclosed := (hlost hne (by rw [hsync]; exact state_syncPosition_flat h)).2
          exact absurd (hclosed.symm.trans hfilled) (by simp)
        · have hclosed := htrue.held lost List.mem_cons_self h
          exact absurd (hclosed.symm.trans hfilled) (by simp)
      rw [syncPosition_raised hraised] at hsync
      rw [hsync] at hturns
      refine List.forall_mem_cons.mpr ⟨fun _ => hraised, ?_⟩
      exact raised_of_turns hne hrest (fun s hs => htrue.held s (List.mem_cons_of_mem _ hs))
        fun v hv hopen hclosed => (hturns v hv hopen hclosed).2
  · intro h
    -- what is flat has been answered, and so has filled
    have hfilled : ∀ s ∈ lost :: syncs, s.answers.sync.Flat → s.filled = true := by
      intro s hs hflat
      cases hs' : s.filled with
      | true => rfl
      | false =>
        rw [h s hs hs'] at hflat
        exact hflat.elim
    obtain ⟨htracked', hdisconnect⟩ := @tracked_disconnected position lost.answers htracked hne
    refine ⟨forall_cycleMoves.mpr ⟨fun _ hclosed => ?_, fun v hv hopen hclosed => ?_⟩, ?_,
      opened_of_held htracked⟩
    · exact ⟨hdisconnect hclosed, hfilled lost List.mem_cons_self (hdisconnect hclosed)⟩
    · have hbefore : Tracked v.1 :=
        forall_scanl_of_turns htracked' (fun v _ hv => (tracked_syncPosition hv).1) _
          (mem_scanl_of_mem_turns hv)
      have hflat := ((tracked_syncPosition hbefore).2 hclosed).resolve_left hopen
      exact ⟨hflat, hfilled v.2 (List.mem_cons_of_mem _ (item_mem_of_mem_turns hv)) hflat⟩
    · intro hstate hworking
      have hraised : ∀ s ∈ lost :: syncs, s.answers.sync = .raised :=
        fun s hs => h s hs (hworking s hs)
      obtain ⟨hlost, hsyncs⟩ := List.forall_mem_cons.mp hraised
      unfold reconnectCycle
      rw [disconnected_beforeEntry htracked (by rw [hstate]; simp [beforeEntry]),
        syncPosition_raised hlost, foldl_syncTurn_of_raised hsyncs]
      exact hstate

/-- **A disconnect leaves a pending entry alone** exactly if no query that is made before the entry
has filled is answered.  This is so of every position whose machine is in its state, and so of
every context that the runtime has at any point of a run. -/
theorem keepsPendingEntry_iff {lost : CycleStep} {syncs : List CycleStep} :
    (∀ {position : PositionContext},
      Tracked position → position.state ∉ terminalStates → TruthfulCycle position lost syncs →
        (KeepsPendingEntry position lost syncs ↔
          ∀ s ∈ lost :: syncs, s.filled = false → s.answers.sync = .raised)) ∧
    ∀ {turns : List (Turn WsEvent WsAnswer)} {loop : EventLoop WsRuntime WsAnswer},
      WsRuntime.Reaches turns loop → ∀ r : ℕ,
        (loop.shared.contexts r).state ∉ terminalStates →
          TruthfulCycle (loop.shared.contexts r) lost syncs →
            (KeepsPendingEntry (loop.shared.contexts r) lost syncs ↔
              ∀ s ∈ lost :: syncs, s.filled = false → s.answers.sync = .raised) :=
  ⟨keepsPendingEntry_of_tracked,
    fun hreach r => keepsPendingEntry_of_tracked (tracked_of_run hreach r)⟩

/-- An entry that has been submitted. -/
def submittedEntry : PositionContext where
  state := .entering
  stateMachine := { state := .entering }

/-- The exchange cannot be asked while the stream drops, and the first attempt fails; the entry has
filled when the second one succeeds. -/
def filledBetween : List CycleStep :=
  [{ answers := {}, filled := false }, { answers := answered 1, filled := true }]

theorem keepsPendingEntry_filledBetween :
    KeepsPendingEntry submittedEntry { answers := {}, filled := false } filledBetween := by
  refine (keepsPendingEntry_iff.1 ⟨rfl, by simp [submittedEntry]⟩ (by decide)
    ⟨?_, ?_, ?_⟩).mpr ?_
  · exact fun h => absurd h (by decide)
  · simp [filledBetween]
  · refine List.forall_mem_cons.mpr ⟨fun h => h.elim, ?_⟩
    exact List.forall_mem_cons.mpr ⟨fun h => h.elim, by simp⟩
  · simp [filledBetween]

/-- An entry is working at the exchange, which holds no position yet. -/
def stillWorking : CycleStep where
  answers := { sync := .noPosition, openOrders := some [] }
  filled := false

/-- **An entry that is working does not survive a reconnect**: the disconnect closes it. -/
theorem not_keepsPendingEntry_working :
    TruthfulCycle submittedEntry stillWorking [stillWorking] ∧
      ¬KeepsPendingEntry submittedEntry stillWorking [stillWorking] := by
  refine ⟨⟨fun h => absurd h (by decide), by simp [stillWorking], ?_⟩, fun h => ?_⟩
  · intro s hs hheld
    have hworking : s = stillWorking := by simpa using hs
    rw [hworking] at hheld
    exact hheld.elim
  · have hentering := h.working rfl (by simp [stillWorking])
    exact absurd hentering (by decide)

end AdviserConstructor
