import AdviserConstructor.Position.QueueInvariants

/-!
# No stop-loss intent is lost, and where one is

An accepted stop-loss task is an intent.  Coalescing may replace its parameters by those of a
later one, and that is the design: the latest intent wins.  What must not happen is that
neither reaches the adapter.

`ClearToCoalesce` is the condition under which the queue keeps this promise.  When the loop has
taken a task off the heap, its `key` is fixed and its parameters are about to be read, but the
pending map still shows the task to `enqueue`.  From the start of the adapter call on,
parameters written into the task are never read; and a quick-fire coalescing that changes the
key of a task in the loop's hands leaves an entry under the new key that the final cleanup, which
removes the old one, does not find.  Every later intent with that key is then folded into a task
that nobody will execute.

* `slIntents_of_run`: in every run without a purge whose stop-loss enqueues are clear, every
  intent is handed to the adapter, or still waiting, or superseded by a later one that is; and
  every pending entry is a live task.
* `quickfire_loses_intent`: two multi-TP moves in one window, the second during the adapter call
  of the first.
-/

namespace AdviserConstructor

/-- The parameters of a stop-loss task pass the validation of `_execute_task`. -/
def OrderTask.Executable (task : OrderTask) : Prop :=
  match executeTask task.action task.params .raised "" with
  | .ok (some _) => True
  | _ => False

instance (task : OrderTask) : Decidable task.Executable := by
  unfold OrderTask.Executable
  split <;> infer_instance

theorem OrderTask.Executable.exists_call {task : OrderTask} (h : task.Executable)
    (hsl : task.action.isSl = true) :
    ∃ call, ∀ live defaultId,
      executeTask task.action task.params live defaultId = .ok (some call) := by
  unfold OrderTask.Executable at h
  split at h
  · next call hcall =>
    exact ⟨call, fun live defaultId => (executeTask_of_isSl hsl _ _ _ _ _).trans hcall⟩
  · exact h.elim

def QueueStep.enqueued? : QueueStep → Option OrderTask
  | .enqueue task => some task
  | _ => none

def QueueStep.isPurge : QueueStep → Bool
  | .purgePending .. => true
  | _ => false

namespace QueueState

open BinaryHeap

/-! ## Intents -/

/-- The task is on the heap or in the loop's hands. -/
def InHand (s : QueueState) (id : TaskId) : Prop :=
  id ∈ s.heap ∨ ∃ key, s.phase.held = some (id, key)

/-- The task is on the heap, or in the loop's hands with its adapter call still to come. -/
def Awaiting (s : QueueState) (id : TaskId) : Prop :=
  id ∈ s.heap ∨ (∃ key, s.phase.held = some (id, key)) ∧ s.phase.callStarted = false

/-- Every pending entry is a task that is on the heap or in the loop's hands. -/
def PendingLive (s : QueueState) : Prop := ∀ k id, (k, id) ∈ s.pending.entries → s.InHand id

/-- The adapter was called with the parameters of intent `i`. -/
def Handed (s : QueueState) (i : ℕ) : Prop :=
  ∃ t call, s.history.accepted[i]? = some t ∧ (i, call) ∈ s.history.handed ∧
    ∀ live defaultId, executeTask t.action t.params live defaultId = .ok (some call)

/-- `u`, accepted as intent `j`, is intent `i` itself or a later stop-loss task of the same
position. -/
def Supersedes (s : QueueState) (i : ℕ) (t : OrderTask) (j : ℕ) : Prop :=
  i ≤ j ∧ ∃ u, s.history.accepted[j]? = some u ∧ u.action.isSl = true ∧
    u.positionId = t.positionId

/-- Every accepted stop-loss task, or a later one of its position, has been handed to the
adapter or is waiting to be. -/
def NoIntentLost (s : QueueState) : Prop :=
  ∀ i t, s.history.accepted[i]? = some t → t.action.isSl = true →
    ∃ j, s.Supersedes i t j ∧ (s.Handed j ∨ ∃ id, s.Awaiting id ∧ s.history.intent id = j)

/-- Every accepted stop-loss task, or a later one of its position, has been handed to the
adapter. -/
def IntentsServed (s : QueueState) : Prop :=
  ∀ i t, s.history.accepted[i]? = some t → t.action.isSl = true →
    ∃ j, s.Supersedes i t j ∧ s.Handed j

/-- The loop has nothing in its hands and nothing is queued. -/
def Quiescent (s : QueueState) : Prop := s.heap = [] ∧ s.phase.held = none

variable {s : QueueState}

theorem NoIntentLost.served (h : s.NoIntentLost) (hq : s.Quiescent) : s.IntentsServed := by
  intro i t ht hsl
  obtain ⟨j, hj, hhanded | ⟨id, hwait, -⟩⟩ := h i t ht hsl
  · exact ⟨j, hj, hhanded⟩
  · rcases hwait with hheap | ⟨⟨key, hheld⟩, -⟩
    · rw [hq.1] at hheap
      cases hheap
    · rw [hq.2] at hheld
      cases hheld

/-- The condition on a step: a stop-loss task that is enqueued has valid parameters, and if it
is folded into the task in the loop's hands, then that task's adapter call has not started, and
either it is sleeping before it is put back or its key stays what it was. -/
def ClearToCoalesce (s : QueueState) (a : QueueStep) : Prop :=
  ∀ task ∈ a.enqueued?, task.action.isSl = true →
    task.Executable ∧
      ∀ held ∈ s.phase.held, s.coalesceTarget task = some held.1 →
        s.phase.callStarted = false ∧ (s.phase.inBackoff = true ∨ task.key = held.2)

instance (s : QueueState) (a : QueueStep) : Decidable (s.ClearToCoalesce a) :=
  inferInstanceAs (Decidable (∀ task ∈ a.enqueued?, task.action.isSl = true →
    task.Executable ∧
      ∀ held ∈ s.phase.held, s.coalesceTarget task = some held.1 →
        s.phase.callStarted = false ∧ (s.phase.inBackoff = true ∨ task.key = held.2)))

/-! ## The invariant -/

/-- What every step that is clear to coalesce preserves. -/
structure SlInvariant (s : QueueState) : Prop where
  wf : WellFormed s
  no_tombstone : s.tombstoned = ∅
  live : s.PendingLive
  held_key : ∀ id key, s.phase.held = some (id, key) → s.phase.inBackoff = false →
    key = (s.store id).key
  kept : s.NoIntentLost
  valid : ∀ t ∈ s.history.accepted, t.action.isSl = true → t.Executable

variable {task : OrderTask}

theorem Supersedes.mono {t : QueueState} {i j : ℕ} (haccepted : ∀ (n : ℕ) (u : OrderTask),
      s.history.accepted[n]? = some u → t.history.accepted[n]? = some u)
    (h : s.Supersedes i task j) :
    t.Supersedes i task j := by
  obtain ⟨hij, u, hu, hrest⟩ := h
  exact ⟨hij, u, haccepted j u hu, hrest⟩

theorem Handed.mono {t : QueueState} {i : ℕ} (haccepted : ∀ (n : ℕ) (u : OrderTask),
      s.history.accepted[n]? = some u → t.history.accepted[n]? = some u)
    (hhanded : ∀ p ∈ s.history.handed, p ∈ t.history.handed) (h : s.Handed i) : t.Handed i := by
  obtain ⟨u, call, hu, hmem, hcall⟩ := h
  exact ⟨u, call, haccepted i u hu, hhanded _ hmem, hcall⟩

theorem NoIntentLost.of_awaiting {t : QueueState} (h : s.NoIntentLost)
    (hhistory : t.history = s.history) (hwait : ∀ id, s.Awaiting id → t.Awaiting id) :
    t.NoIntentLost := by
  intro i u hu hsl
  rw [hhistory] at hu
  obtain ⟨j, hj, hhanded | ⟨id, hid, hintent⟩⟩ := h i u hu hsl
  · refine ⟨j, hj.mono fun n v hv => hhistory ▸ hv, Or.inl (hhanded.mono ?_ ?_)⟩
    · exact fun n v hv => hhistory ▸ hv
    · exact fun p hp => hhistory ▸ hp
  · exact ⟨j, hj.mono fun n v hv => hhistory ▸ hv, Or.inr ⟨id, hwait id hid, hhistory ▸ hintent⟩⟩

theorem noIntentLost_of_accept {t : QueueState} {id : TaskId} (hs : s.NoIntentLost)
    (hhistory : t.history =
      { s.history with
        accepted := s.history.accepted ++ [task]
        intent := Function.update s.history.intent id s.history.accepted.length })
    (hwait : ∀ i, s.Awaiting i → t.Awaiting i) (hid : task.action.isSl = true → t.Awaiting id)
    (hold : ∀ j u, s.Awaiting id → s.history.intent id = j → s.history.accepted[j]? = some u →
      u.action.isSl = true → task.action.isSl = true ∧ task.positionId = u.positionId) :
    t.NoIntentLost := by
  have haccepted : ∀ (n : ℕ) (u : OrderTask),
      s.history.accepted[n]? = some u → t.history.accepted[n]? = some u := by
    intro n u hu
    rw [hhistory]
    exact getElem?_concat_of_eq_some hu
  have hlast : t.history.accepted[s.history.accepted.length]? = some task := by
    rw [hhistory]
    exact List.getElem?_concat_length
  have hintent : t.history.intent id = s.history.accepted.length := by
    rw [hhistory]
    exact Function.update_self ..
  intro i u hu hsl
  by_cases hi : i < s.history.accepted.length
  · have hu' : s.history.accepted[i]? = some u := by
      rw [hhistory] at hu
      rwa [List.getElem?_append_left hi] at hu
    obtain ⟨j, hj, hhanded | ⟨i', hi', hcarry⟩⟩ := hs i u hu' hsl
    · refine ⟨j, hj.mono haccepted, Or.inl (hhanded.mono haccepted ?_)⟩
      rw [hhistory]
      exact fun p hp => hp
    · by_cases hsame : i' = id
      · -- the waiting task is the one written into: the new intent supersedes the old one
        subst hsame
        obtain ⟨hij, v, hv, hvsl, hvpos⟩ := hj
        obtain ⟨htask, hpos⟩ := hold j v hi' hcarry hv hvsl
        exact ⟨s.history.accepted.length, ⟨hi.le, task, hlast, htask, hpos.trans hvpos⟩,
          Or.inr ⟨i', hid htask, hintent⟩⟩
      · refine ⟨j, hj.mono haccepted, Or.inr ⟨i', hwait i' hi', ?_⟩⟩
        rw [hhistory]
        exact (Function.update_of_ne hsame ..).trans hcarry
  · have hlt : i < (s.history.accepted ++ [task]).length := by
      rw [hhistory] at hu
      exact (List.getElem?_eq_some_iff.mp hu).1
    have hieq : i = s.history.accepted.length := by
      rw [List.length_append, List.length_singleton] at hlt
      omega
    subst hieq
    have hut : u = task := Option.some_inj.mp (hu.symm.trans hlast)
    subst hut
    exact ⟨_, ⟨le_rfl, u, hlast, hsl, rfl⟩, Or.inr ⟨id, hid hsl, hintent⟩⟩

/-! ## Steps -/

theorem valid_concat (hs : ∀ t ∈ s.history.accepted, t.action.isSl = true → t.Executable)
    (htask : task.action.isSl = true → task.Executable) :
    ∀ t ∈ s.history.accepted ++ [task], t.action.isSl = true → t.Executable := by
  intro t ht
  rcases List.mem_append.mp ht with ht | ht
  · exact hs t ht
  · rw [List.mem_singleton] at ht
    exact ht ▸ htask

theorem SlInvariant.coalesced {t : QueueState} {k : TaskKey} {id : TaskId} (hs : SlInvariant s)
    (h : Coalesced s task k id t) (hexec : task.action.isSl = true → task.Executable)
    (hclear : task.action.isSl = true → ∀ key, s.phase.held = some (id, key) →
      s.phase.callStarted = false ∧ (s.phase.inBackoff = true ∨ task.key = key)) :
    SlInvariant t := by
  have hwait : ∀ i, s.Awaiting i → t.Awaiting i := by
    intro i hi
    rw [Awaiting, h.heap, h.phase]
    exact hi
  have hactive : s.InHand id := hs.live k id h.entry
  refine ⟨h.wellFormed hs.wf, h.tombstoned.trans hs.no_tombstone, ?_, ?_, ?_, ?_⟩
  · intro k' i hi
    rw [InHand, h.heap, h.phase]
    rcases (h.pending k' i).mp hi with ⟨-, rfl⟩ | ⟨-, -, hi'⟩
    · exact hactive
    · exact hs.live k' i hi'
  · intro i key hi hback
    rw [h.phase] at hi hback
    obtain ⟨new, hstore, hparams, hposition, haction⟩ := h.store
    rw [hstore]
    by_cases hid : i = id
    · subst hid
      rw [Function.update_self]
      have hnew : new.key = task.key := by
        rw [OrderTask.key, OrderTask.key, hparams, hposition, haction]
      rw [hnew]
      by_cases hk : k = task.key
      · -- the key of the held task did not change
        rw [hs.held_key i key hi hback, ← hk]
        exact (hs.wf.keys_current k i h.entry).symm
      · -- a quick-fire coalescing that changed the key: excluded outside the backoff sleep
        have hsl : task.action.isSl = true := by rw [h.rekeyed hk]; rfl
        rcases (hclear hsl key hi).2 with hb | hkey
        · rw [hb] at hback
          cases hback
        · exact hkey.symm
    · rw [Function.update_of_ne hid]
      exact hs.held_key i key hi hback
  · refine noIntentLost_of_accept hs.kept h.history hwait ?_ ?_
    · intro hsl
      refine hwait id ?_
      rcases hactive with hheap | ⟨key, hheld⟩
      · exact Or.inl hheap
      · exact Or.inr ⟨⟨key, hheld⟩, (hclear hsl key hheld).1⟩
    · intro j u _ hj hu hsl
      obtain ⟨v, hv, hpos, hact, -⟩ := hs.wf.carries id (hs.wf.pending_fresh k id h.entry)
      have huv : u = v := by
        rw [hj] at hv
        exact Option.some_inj.mp (hu.symm.trans hv)
      subst huv
      rw [← h.action, ← h.position, ← hact, ← hpos]
      exact ⟨hsl, rfl⟩
  · rw [h.history]
    exact valid_concat hs.valid hexec

theorem SlInvariant.queued {t : QueueState} (hs : SlInvariant s) (h : Queued s task t)
    (hexec : task.action.isSl = true → task.Executable) : SlInvariant t := by
  have hwait : ∀ i, s.Awaiting i → t.Awaiting i := by
    intro i hi
    rw [Awaiting, h.heap.mem_iff, h.phase, List.mem_cons]
    exact hi.imp_left Or.inr
  have hnew : s.fresh ∈ t.heap := h.heap.mem_iff.mpr (List.mem_cons_self ..)
  refine ⟨h.wellFormed hs.wf, h.tombstoned.trans hs.no_tombstone, ?_, ?_, ?_, ?_⟩
  · intro k i hi
    rcases (h.pending k i).mp hi with ⟨-, rfl⟩ | ⟨-, hi'⟩
    · exact Or.inl hnew
    · rw [InHand, h.heap.mem_iff, h.phase, List.mem_cons]
      exact (hs.live k i hi').imp_left Or.inr
  · intro i key hi hback
    rw [h.phase] at hi hback
    have hne : i ≠ s.fresh := (hs.wf.held_fresh i key hi).ne
    rw [h.store, Function.update_of_ne hne]
    exact hs.held_key i key hi hback
  · refine noIntentLost_of_accept hs.kept h.history hwait (fun _ => Or.inl hnew) ?_
    intro j u hi _ _ _
    -- no task waits under an unused identity
    rcases hi with hheap | ⟨⟨key, hheld⟩, -⟩
    · exact absurd (hs.wf.heap_fresh _ hheap) (lt_irrefl _)
    · exact absurd (hs.wf.held_fresh _ key hheld) (lt_irrefl _)
  · rw [h.history]
    exact valid_concat hs.valid hexec

theorem SlInvariant.enqueue (hs : SlInvariant s) (hclear : s.ClearToCoalesce (.enqueue task)) :
    SlInvariant (s.enqueue task) := by
  have hexec : task.action.isSl = true → task.Executable := fun hsl => (hclear task rfl hsl).1
  rcases enqueue_cases hs.wf.keys_current task with ⟨k, id, htarget, h⟩ | ⟨-, h⟩
  · exact hs.coalesced h hexec fun hsl key hheld =>
      (hclear task rfl hsl).2 (id, key) hheld htarget
  · exact hs.queued h hexec

theorem SlInvariant.move {t : QueueState} (hs : SlInvariant s) (same : SameQueue s t)
    (held : t.phase.held = s.phase.held)
    (started : s.phase.callStarted = false → t.phase.callStarted = false)
    (backoff : t.phase.inBackoff = false → s.phase.inBackoff = false) : SlInvariant t where
  wf := hs.wf.of_same same held
  no_tombstone := same.tombstoned.trans hs.no_tombstone
  live k id hid := by
    rw [InHand, same.heap, held]
    exact hs.live k id (same.pending ▸ hid)
  held_key id key hid hback := by
    rw [same.key]
    exact hs.held_key id key (held ▸ hid) (backoff hback)
  kept := by
    refine hs.kept.of_awaiting same.history fun id hid => ?_
    rw [Awaiting, same.heap, held]
    exact hid.imp_right fun hw => ⟨hw.1, started hw.2⟩
  valid := by
    rw [same.history]
    exact hs.valid

theorem SlInvariant.execute {s : QueueState} {id : TaskId} {key : TaskKey} (hs : SlInvariant s)
    (hphase : s.phase = .admitted id key) (live : PositionReply) (defaultId : String) :
    SlInvariant (s.beginExecution id key live defaultId) := by
  obtain ⟨hheap, hfresh, hstore, hpending, htomb, hheld, hstarted, hacc, hint⟩ :=
    beginExecution_spec s id key live defaultId
  have hheld' : (s.beginExecution id key live defaultId).phase.held = s.phase.held := by
    rw [hheld, hphase]
    rfl
  have haccepted : ∀ (n : ℕ) (u : OrderTask), s.history.accepted[n]? = some u →
      (s.beginExecution id key live defaultId).history.accepted[n]? = some u :=
    fun n u hu => by rw [hacc]; exact hu
  have hhanded : ∀ p ∈ s.history.handed,
      p ∈ (s.beginExecution id key live defaultId).history.handed := by
    intro p hp
    unfold beginExecution
    dsimp only
    split
    · exact hp
    · split <;> exact hp
    · exact List.mem_append_left _ hp
  refine ⟨?_, htomb.trans hs.no_tombstone, ?_, ?_, ?_, ?_⟩
  · exact (Effect.execute hphase live defaultId).wellFormed hs.wf
  · intro k i hi
    rw [InHand, hheap, hheld']
    exact hs.live k i (hpending ▸ hi)
  · intro i k hi _
    rw [hstore]
    exact hs.held_key i k (hheld' ▸ hi) (by rw [hphase]; rfl)
  · intro i u hu hsl
    rw [hacc] at hu
    obtain ⟨j, hj, hdone | ⟨i', hwait, hcarry⟩⟩ := hs.kept i u hu hsl
    · exact ⟨j, hj.mono haccepted, Or.inl (hdone.mono haccepted hhanded)⟩
    · rcases hwait with hqueued | ⟨⟨key', hmine⟩, -⟩
      · refine ⟨j, hj.mono haccepted, Or.inr ⟨i', Or.inl (hheap ▸ hqueued), ?_⟩⟩
        rw [hint]
        exact hcarry
      · -- the intent of the held task: its parameters are valid, so the adapter is called
        rw [hphase] at hmine
        obtain ⟨rfl, rfl⟩ := hmine
        have hlt : id < s.fresh := hs.wf.held_fresh id key (by rw [hphase]; rfl)
        obtain ⟨v, hv, -, hact, hpar⟩ := hs.wf.carries id hlt
        obtain ⟨hij, w, hw, hwsl, hwpos⟩ := hj
        have hvw : w = v := by
          rw [hcarry] at hv
          exact Option.some_inj.mp (hw.symm.trans hv)
        subst hvw
        have hvalid : w.Executable := hs.valid w (List.mem_of_getElem? hw) hwsl
        obtain ⟨call, hcall⟩ := hvalid.exists_call hwsl
        have hrun : executeTask (s.store id).action (s.store id).params live defaultId =
            .ok (some call) := by
          rw [← hact, ← hpar]
          exact hcall live defaultId
        refine ⟨j, ⟨hij, w, haccepted j w hw, hwsl, hwpos⟩, Or.inl ⟨w, call, haccepted j w hw, ?_,
          hcall⟩⟩
        unfold beginExecution
        simp only [hrun, List.mem_append, List.mem_singleton, hcarry]
        exact Or.inr trivial
  · rw [hacc]
    exact hs.valid

/-- **One step keeps the invariant**, if it is clear to coalesce and no purge. -/
theorem SlInvariant.step {t : QueueState} {a : QueueStep} (hs : SlInvariant s)
    (hclear : s.ClearToCoalesce a ∧ a.isPurge = false) (h : step s a = some t) : SlInvariant t := by
  have heffect := effect_of_step h
  have hwf := heffect.wellFormed hs.wf
  cases heffect with
  | enqueue task => exact hs.enqueue hclear.1
  | purge positionId actions => exact absurd hclear.2 (by simp [QueueStep.isPurge])
  | move same held started backoff _ _ => exact hs.move same held started backoff
  | take phase popped =>
    refine ⟨hwf, hs.no_tombstone, ?_, ?_, ?_, hs.valid⟩
    · intro k i hi
      rcases hs.live k i hi with hheap | ⟨key, hheld⟩
      · rcases (mem_of_pop _ popped).mp hheap with rfl | hrest
        · exact Or.inr ⟨_, rfl⟩
        · exact Or.inl hrest
      · rw [phase] at hheld
        exact absurd hheld (by simp [LoopPhase.held])
    · intro i key hi _
      obtain ⟨rfl, rfl⟩ := hi
      rfl
    · refine hs.kept.of_awaiting rfl fun i hi => ?_
      rcases hi with hheap | ⟨⟨key, hheld⟩, -⟩
      · rcases (mem_of_pop _ popped).mp hheap with rfl | hrest
        · exact Or.inr ⟨⟨_, rfl⟩, rfl⟩
        · exact Or.inl hrest
      · rw [phase] at hheld
        exact absurd hheld (by simp [LoopPhase.held])
  | drop phase hit =>
    rw [hs.no_tombstone] at hit
    exact absurd hit (Finset.notMem_empty _)
  | pass phase miss =>
    exact hs.move (SameQueue.of_phase s _) (by rw [phase]; rfl) (fun _ => rfl)
      (fun _ => by rw [phase]; rfl)
  | execute phase live defaultId => exact hs.execute phase live defaultId
  | putBack phase =>
    rename_i id key
    have hheld : s.phase.held = some (id, key) := by
      rcases phase with h | h <;> rw [h] <;> rfl
    -- whatever was in the loop's hands is on the heap again
    have hback : ∀ i k, s.phase.held = some (i, k) → i ∈ (s.putHeap id).heap := by
      intro i k hi
      rw [hheld, Option.some_inj, Prod.mk.injEq] at hi
      exact (mem_push _).mpr (Or.inl hi.1.symm)
    refine ⟨hwf, hs.no_tombstone, ?_, ?_, ?_, hs.valid⟩
    · intro k i hi
      rcases hs.live k i hi with hheap | ⟨key', hheld'⟩
      · exact Or.inl ((mem_push _).mpr (Or.inr hheap))
      · exact Or.inl (hback i key' hheld')
    · exact fun i k hi => absurd hi (by simp [LoopPhase.held])
    · refine hs.kept.of_awaiting rfl fun i hi => ?_
      rcases hi with hheap | ⟨⟨key', hheld'⟩, -⟩
      · exact Or.inl ((mem_push _).mpr (Or.inr hheap))
      · exact Or.inl (hback i key' hheld')
  | escalate phase escalated =>
    rename_i id key error emergency now
    have hsl : emergency.action.isSl = false := by
      rw [escalationOf_action escalated]
      rfl
    have henq : SlInvariant (s.enqueue emergency) := by
      refine hs.enqueue fun task htask htasksl => ?_
      rw [← Option.some_inj.mp htask, hsl] at htasksl
      cases htasksl
    have hphase : (s.enqueue emergency).phase = .escalating id key error := by
      rcases enqueue_cases hs.wf.keys_current emergency with ⟨k, i, -, h'⟩ | ⟨-, h'⟩
      · exact h'.phase.trans phase
      · exact h'.phase.trans phase
    exact henq.move (SameQueue.of_phase _ _) (by rw [hphase]; rfl)
      (fun hst => by rw [hphase] at hst; exact absurd hst (by simp [LoopPhase.callStarted]))
      (fun _ => by rw [hphase]; rfl)
  | finish phase =>
    rename_i id key
    have hkey : key = (s.store id).key :=
      hs.held_key id key (by rw [phase]; rfl) (by rw [phase]; rfl)
    refine ⟨hwf, hs.no_tombstone, ?_, ?_, ?_, hs.valid⟩
    · intro k i hi
      obtain ⟨hne, hi'⟩ := InsertionDict.mem_remove.mp hi
      rcases hs.live k i hi' with hheap | ⟨key', hheld⟩
      · exact Or.inl hheap
      · -- the finished task has no entry under another key
        rw [phase] at hheld
        obtain ⟨rfl, rfl⟩ := hheld
        exact absurd ((hs.wf.keys_current k id hi').trans hkey.symm) hne
    · exact fun i k hi => absurd hi (by simp [LoopPhase.held])
    · refine hs.kept.of_awaiting rfl fun i hi => ?_
      rcases hi with hheap | ⟨-, hst⟩
      · exact Or.inl hheap
      · rw [phase] at hst
        exact absurd hst (by simp [LoopPhase.callStarted])

theorem slInvariant_initial : SlInvariant initial where
  wf := wellFormed_initial
  no_tombstone := rfl
  live _ _ h := absurd h List.not_mem_nil
  held_key _ _ h := absurd h (by simp [initial, LoopPhase.held])
  kept _ _ h := absurd h (by simp [initial])
  valid _ h := absurd h List.not_mem_nil

/-- **No stop-loss intent is lost.**  In every run without a purge whose stop-loss enqueues are
clear to coalesce, every pending entry is a live task and every intent, or a later one of its
position, has been handed to the adapter or waits to be; when the queue has come to rest, it
has been handed over. -/
theorem slIntents_of_run {s : QueueState} {as : List QueueStep} (hrun : run initial as = some s)
    (hpurge : ∀ a ∈ as, a.isPurge = false)
    (hclear : StepSystem.AlongRun step ClearToCoalesce initial as) :
    s.PendingLive ∧ s.NoIntentLost ∧ (s.Quiescent → s.IntentsServed) := by
  have hguard := hclear.and step (StepSystem.alongRun_of_forall step hpurge)
  have hs : SlInvariant s :=
    StepSystem.invariant_of_alongRun step (fun _ _ _ hI hP h => hI.step hP h)
      slInvariant_initial hguard hrun
  exact ⟨hs.live, hs.kept, hs.kept.served⟩

/-! ## Two moves in one window -/

/-- A move of the stop by a take-profit fill, as the multi-TP engine enqueues it. -/
def multiTpMove (createdAt price : ℚ) : OrderTask where
  priority := .slAdjustment
  createdAt := createdAt
  positionId := "7"
  action := .replaceSl
  params := .ofList
    [("symbol", .str "BTCUSDT"),
     ("existing_order_id", .str "sl-1"),
     ("new_trigger_price", .float price),
     ("new_quantity", .float 1),
     ("client_order_id", .str "pos_7_sl"),
     ("reason", .str "tp1_sl_adjustment")]

/-- The first move is queued, coalesced with the second while it waits, and executed. -/
def coalescedInTime : List QueueStep :=
  [.startProcessing, .enqueue (multiTpMove 0 100), .enqueue (multiTpMove (1 / 5) 105), .dequeue,
   .checkTombstone, .headroom, .execute .raised "", .adapterReturns, .release, .cleanup]

/-- The second move arrives while the adapter call of the first is in progress. -/
def coalescedTooLate : List QueueStep :=
  [.startProcessing, .enqueue (multiTpMove 0 100), .dequeue, .checkTombstone, .headroom,
   .execute .raised "", .enqueue (multiTpMove (1 / 5) 105), .adapterReturns, .release, .cleanup]

theorem slIntents_coalescedInTime :
    ∃ s, run initial coalescedInTime = some s ∧
      s.PendingLive ∧ s.NoIntentLost ∧ (s.Quiescent → s.IntentsServed) := by
  obtain ⟨s, hs⟩ : ∃ s, run initial coalescedInTime = some s :=
    Option.isSome_iff_exists.mp (by decide +kernel)
  exact ⟨s, hs, slIntents_of_run hs (by decide +kernel) (by decide +kernel)⟩

/-- **The late move is lost**: the queue has come to rest, the adapter has seen the first move
only, and the pending map is left with an entry that no task will ever clear. -/
theorem quickfire_loses_intent :
    ∃ s, run initial coalescedTooLate = some s ∧ (∀ a ∈ coalescedTooLate, a.isPurge = false) ∧
      ¬s.PendingLive ∧ ¬s.NoIntentLost ∧ s.Quiescent ∧ ¬s.IntentsServed := by
  have hend : (run initial coalescedTooLate).map (fun s =>
      decide (s.heap = [] ∧ s.phase.held = none ∧ s.pending.entries.map Prod.snd = [0] ∧
        s.history.accepted = [multiTpMove 0 100, multiTpMove (1 / 5) 105] ∧
        s.history.handed.map Prod.fst = [0])) = some true := by
    decide +kernel
  obtain ⟨s, hs, hstate⟩ := Option.map_eq_some_iff.mp hend
  obtain ⟨hheap, hheld, hpending, haccepted, hhanded⟩ := of_decide_eq_true hstate
  have hquiet : s.Quiescent := ⟨hheap, hheld⟩
  have hserved : ¬s.IntentsServed := by
    intro h
    obtain ⟨j, ⟨hj, -⟩, -, call, -, hmem, -⟩ := h 1 (multiTpMove (1 / 5) 105)
      (by rw [haccepted]; rfl) rfl
    have hzero : j ∈ s.history.handed.map Prod.fst := List.mem_map_of_mem hmem
    rw [hhanded, List.mem_singleton] at hzero
    omega
  refine ⟨s, hs, by decide +kernel, ?_, fun h => hserved (h.served hquiet), hquiet, hserved⟩
  intro hlive
  obtain ⟨⟨k, id⟩, hentry⟩ : ∃ e, e ∈ s.pending.entries := by
    refine List.exists_mem_of_ne_nil _ fun hnil => ?_
    rw [hnil] at hpending
    cases hpending
  rcases hlive k id hentry with hmem | ⟨key, hmine⟩
  · rw [hheap] at hmem
    cases hmem
  · rw [hheld] at hmine
    cases hmine

end QueueState
end AdviserConstructor
