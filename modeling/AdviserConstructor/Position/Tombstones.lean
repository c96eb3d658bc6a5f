import AdviserConstructor.Position.QueueInvariants

/-!
# When purging is exact

`purge_pending` cannot take a task off the heap.  It removes the pending entry and leaves a
tombstone, and the loop drops the next task it finds under a tombstoned key.  A tombstone is a
key and not a task, so this is exact only while the key points at the purged task.

`PurgesExactly` is the condition on a step.  A purge may take out what waits on the heap, or
what the loop has taken off it and not yet checked, if the key has no tombstone already; and no
task may overtake a purged one that waits under the same key.  The purge of a task in execution
fails it, because its tombstone waits for a heap entry that does not exist.

* `purgeExact_of_run`: in every run whose steps all meet the condition, only purged tasks are
  dropped, no purged task is executed, and the tombstones are the keys of the purged tasks that
  wait, one for each.
* `purge_while_executing_drops_successor`: a stop-loss task is purged while it executes, and the
  next task with its key is dropped in its place.
-/

namespace AdviserConstructor
namespace QueueState

open BinaryHeap

/-! ## Exactness -/

/-- The task waits under `k` for its tombstone check: on the heap, or just taken off it. -/
def Unchecked (s : QueueState) (id : TaskId) (k : TaskKey) : Prop :=
  (id ∈ s.heap ∧ (s.store id).key = k) ∨ s.phase = .dequeued id k

/-- Purging has been exact so far. -/
structure PurgeExact (s : QueueState) : Prop where
  /-- no purged task was executed after its purge -/
  never_executed : s.history.executedAfterPurge = []
  /-- the tombstone check dropped purged tasks only -/
  only_purged_dropped : ∀ id ∈ s.history.dropped, id ∈ s.history.purged
  /-- the tombstones are the keys of the purged tasks that wait -/
  tombstoned_iff : ∀ k, k ∈ s.tombstoned ↔ ∃ id ∈ s.history.purged, s.Unchecked id k
  one_each : ∀ k, ∀ id ∈ s.history.purged, ∀ id' ∈ s.history.purged,
    s.Unchecked id k → s.Unchecked id' k → id = id'

/-- The purge of the entry of `id` under `k` leaves a tombstone that `id` will meet. -/
def PurgeMeets (s : QueueState) (k : TaskKey) (id : TaskId) : Prop :=
  k ∉ s.tombstoned ∧
    match s.phase with
    | .dequeued id' k' => if k' = k then id' = id else id ∈ s.heap
    | _ => id ∈ s.heap

instance (s : QueueState) (k : TaskKey) (id : TaskId) : Decidable (s.PurgeMeets k id) := by
  unfold PurgeMeets
  split <;> infer_instance

/-- The task taken off the heap next leaves no purged task with its key behind. -/
def NoOvertaking (s : QueueState) : Prop :=
  ∀ popped ∈ pop s.taskLt s.heap, ∀ id ∈ popped.2, id ∈ s.history.purged →
    (s.store id).key ≠ (s.store popped.1).key

instance (s : QueueState) : Decidable s.NoOvertaking :=
  inferInstanceAs (Decidable (∀ popped ∈ pop s.taskLt s.heap, ∀ id ∈ popped.2,
    id ∈ s.history.purged → (s.store id).key ≠ (s.store popped.1).key))

def PurgesExactly (s : QueueState) : QueueStep → Prop
  | .purgePending positionId actions =>
      ∀ entry ∈ s.purgeMatches positionId actions, s.PurgeMeets entry.1 entry.2
  | .dequeue => s.NoOvertaking
  | _ => True

instance (s : QueueState) : DecidablePred s.PurgesExactly
  | .purgePending positionId actions =>
      inferInstanceAs (Decidable (∀ entry ∈ s.purgeMatches positionId actions,
        s.PurgeMeets entry.1 entry.2))
  | .dequeue => inferInstanceAs (Decidable s.NoOvertaking)
  | .enqueue _ | .startProcessing | .stop | .leave | .checkTombstone | .headroom
  | .headroomLost | .execute _ _ | .adapterReturns | .adapterRaises _ | .callbackReturns
  | .callbackRaises _ | .release | .backoffElapsed | .escalate _ | .cleanup => .isTrue trivial

variable {s t : QueueState}

theorem PurgeMeets.unchecked {k : TaskKey} {id : TaskId} (h : s.PurgeMeets k id) :
    id ∈ s.heap ∨ s.phase = .dequeued id k := by
  obtain ⟨-, h⟩ := h
  split at h
  · next id' k' hp =>
    split at h
    · next hk =>
      subst hk h
      exact Or.inr hp
    · exact Or.inl h
  · exact Or.inl h

theorem PurgeMeets.eq_of_dequeued {k : TaskKey} {id id' : TaskId} (h : s.PurgeMeets k id)
    (hp : s.phase = .dequeued id' k) : id' = id := by
  obtain ⟨-, h⟩ := h
  rw [hp] at h
  simpa using h

/-! ## The invariant -/

/-- What every step that purges exactly preserves. -/
structure PurgeInvariant (s : QueueState) : Prop extends PurgeExact s where
  wf : WellFormed s
  purged_fresh : ∀ id ∈ s.history.purged, id < s.fresh
  purged_not_pending : ∀ k id, (k, id) ∈ s.pending.entries → id ∉ s.history.purged
  /-- a purged task in the loop's hands has not been checked yet -/
  purged_held : ∀ id key, s.phase.held = some (id, key) → id ∈ s.history.purged →
    s.phase = .dequeued id key
  /-- a task about to be dropped is a purged one -/
  hit_purged : ∀ id key, s.phase = .dequeued id key → key ∈ s.tombstoned →
    id ∈ s.history.purged

theorem PurgeInvariant.of_unchecked (hs : PurgeInvariant s) (hwf : WellFormed t)
    (htomb : t.tombstoned = s.tombstoned) (hpurged : t.history.purged = s.history.purged)
    (hdropped : t.history.dropped = s.history.dropped)
    (hexecuted : t.history.executedAfterPurge = s.history.executedAfterPurge)
    (hfresh : s.fresh ≤ t.fresh)
    (hpending : ∀ k id, (k, id) ∈ t.pending.entries → id ∉ s.history.purged)
    (hwait : ∀ id ∈ s.history.purged, ∀ k, t.Unchecked id k ↔ s.Unchecked id k)
    (hheld : ∀ id key, t.phase.held = some (id, key) → id ∈ s.history.purged →
      t.phase = .dequeued id key)
    (hhit : ∀ id key, t.phase = .dequeued id key → key ∈ s.tombstoned → id ∈ s.history.purged) :
    PurgeInvariant t where
  never_executed := hexecuted.trans hs.never_executed
  only_purged_dropped id hid := hpurged ▸ hs.only_purged_dropped id (hdropped ▸ hid)
  tombstoned_iff k := by
    rw [htomb, hpurged, hs.tombstoned_iff]
    exact exists_congr fun id => and_congr_right fun hid => (hwait id hid k).symm
  one_each k id hid id' hid' hu hu' := by
    rw [hpurged] at hid hid'
    exact hs.one_each k id hid id' hid' ((hwait id hid k).mp hu) ((hwait id' hid' k).mp hu')
  wf := hwf
  purged_fresh id hid := (hs.purged_fresh id (hpurged ▸ hid)).trans_le hfresh
  purged_not_pending k id hid := by
    rw [hpurged]
    exact hpending k id hid
  purged_held id key hid hin := hheld id key hid (hpurged ▸ hin)
  hit_purged id key hp hk := by
    rw [hpurged]
    exact hhit id key hp (htomb ▸ hk)

theorem PurgeInvariant.enqueue (hs : PurgeInvariant s) (task : OrderTask) :
    PurgeInvariant (s.enqueue task) := by
  have hwf := hs.wf.enqueue task
  rcases enqueue_cases hs.wf.keys_current task with ⟨k, id, -, h⟩ | ⟨-, h⟩
  · -- the task object that is written has a pending entry, so it was not purged
    have hid : id ∉ s.history.purged := hs.purged_not_pending k id h.entry
    obtain ⟨new, hstore, -⟩ := h.store
    refine hs.of_unchecked hwf h.tombstoned ?_ ?_ ?_ h.fresh.ge ?_ ?_ ?_ ?_
    · rw [h.history]
    · rw [h.history]
    · rw [h.history]
    · intro k' i hi
      rcases (h.pending k' i).mp hi with ⟨-, rfl⟩ | ⟨-, -, hi'⟩
      · exact hid
      · exact hs.purged_not_pending k' i hi'
    · intro i hi k'
      have hne : i ≠ id := fun heq => hid (heq ▸ hi)
      rw [Unchecked, Unchecked, h.heap, h.phase, hstore, Function.update_of_ne hne]
    · rw [h.phase]
      exact hs.purged_held
    · rw [h.phase]
      exact hs.hit_purged
  · have hnew : s.fresh ∉ s.history.purged :=
      fun hm => absurd (hs.purged_fresh _ hm) (lt_irrefl _)
    refine hs.of_unchecked hwf h.tombstoned ?_ ?_ ?_ ?_ ?_ ?_ ?_ ?_
    · rw [h.history]
    · rw [h.history]
    · rw [h.history]
    · rw [h.fresh]
      exact Nat.le_succ _
    · intro k' i hi
      rcases (h.pending k' i).mp hi with ⟨-, rfl⟩ | ⟨-, hi'⟩
      · exact hnew
      · exact hs.purged_not_pending k' i hi'
    · intro i hi k'
      have hne : i ≠ s.fresh := fun heq => hnew (heq ▸ hi)
      rw [Unchecked, Unchecked, h.heap.mem_iff, List.mem_cons, h.phase, h.store,
        Function.update_of_ne hne, or_iff_right hne]
    · rw [h.phase]
      exact hs.purged_held
    · rw [h.phase]
      exact hs.hit_purged

theorem PurgeInvariant.move (hs : PurgeInvariant s) (same : SameQueue s t)
    (held : t.phase.held = s.phase.held)
    (unchecked : ∀ id key, t.phase = .dequeued id key ↔ s.phase = .dequeued id key) :
    PurgeInvariant t := by
  refine hs.of_unchecked (hs.wf.of_same same held) same.tombstoned ?_ ?_ ?_ same.fresh.ge ?_ ?_ ?_
    ?_
  · rw [same.history]
  · rw [same.history]
  · rw [same.history]
  · rw [same.pending]
    exact hs.purged_not_pending
  · intro id _ k
    rw [Unchecked, Unchecked, same.heap, same.key, unchecked]
  · intro id key hid hin
    exact (unchecked id key).mpr (hs.purged_held id key (held ▸ hid) hin)
  · exact fun id key hp => hs.hit_purged id key ((unchecked id key).mp hp)

theorem PurgeInvariant.purge (hs : PurgeInvariant s) {positionId : String}
    {actions : List TaskAction}
    (hmeets : ∀ entry ∈ s.purgeMatches positionId actions, s.PurgeMeets entry.1 entry.2)
    (hwf : WellFormed (s.purgePending positionId actions)) :
    PurgeInvariant (s.purgePending positionId actions) := by
  have hmem : ∀ id, id ∈ (s.purgePending positionId actions).history.purged ↔
      id ∈ s.history.purged ∨ ∃ k, (k, id) ∈ s.purgeMatches positionId actions := by
    intro id
    simp [purgePending]
  have htomb : ∀ k, k ∈ (s.purgePending positionId actions).tombstoned ↔
      k ∈ s.tombstoned ∨ ∃ id, (k, id) ∈ s.purgeMatches positionId actions := by
    intro k
    simp [purgePending]
  -- a matched task waits under the key of its entry and under no other
  have hwaits : ∀ k id, (k, id) ∈ s.purgeMatches positionId actions → s.Unchecked id k := by
    intro k id h
    rcases (hmeets _ h).unchecked with hheap | hp
    · exact Or.inl ⟨hheap, (hs.wf.keys_current k id (mem_purgeMatches.mp h).1).symm⟩
    · exact Or.inr hp
  have honly : ∀ k k' id, (k, id) ∈ s.purgeMatches positionId actions → s.Unchecked id k' →
      k' = k := by
    intro k k' id h hu
    rcases (hmeets _ h).unchecked with hheap | hp
    · rcases hu with ⟨-, hk'⟩ | hp'
      · exact hk'.symm.trans (hs.wf.keys_current k id (mem_purgeMatches.mp h).1).symm
      · exact absurd hheap (hs.wf.held_not_heap id k' (by rw [hp']; rfl))
    · rcases hu with ⟨hheap, -⟩ | hp'
      · exact absurd hheap (hs.wf.held_not_heap id k (by rw [hp]; rfl))
      · rw [hp] at hp'
        exact (LoopPhase.dequeued.inj hp').2.symm
  -- the keys of matched tasks are new tombstones, so no purged task waits under them
  have hnone : ∀ k id id', (k, id) ∈ s.purgeMatches positionId actions →
      id' ∈ s.history.purged → ¬s.Unchecked id' k :=
    fun k id id' h hid' hu => (hmeets _ h).1 ((hs.tombstoned_iff k).mpr ⟨id', hid', hu⟩)
  refine ⟨⟨hs.never_executed, ?_, ?_, ?_⟩, hwf, ?_, ?_, ?_, ?_⟩
  · exact fun id hid => (hmem id).mpr (Or.inl (hs.only_purged_dropped id hid))
  · intro k
    rw [htomb, hs.tombstoned_iff]
    constructor
    · rintro (⟨id, hid, hu⟩ | ⟨id, h⟩)
      · exact ⟨id, (hmem id).mpr (Or.inl hid), hu⟩
      · exact ⟨id, (hmem id).mpr (Or.inr ⟨k, h⟩), hwaits k id h⟩
    · rintro ⟨id, hid, hu⟩
      rcases (hmem id).mp hid with hid | ⟨k', h⟩
      · exact Or.inl ⟨id, hid, hu⟩
      · exact Or.inr ⟨id, honly k' k id h hu ▸ h⟩
  · intro k id hid id' hid' hu hu'
    rcases (hmem id).mp hid with hid | ⟨k₁, h₁⟩ <;> rcases (hmem id').mp hid' with hid' | ⟨k₂, h₂⟩
    · exact hs.one_each k id hid id' hid' hu hu'
    · exact absurd (honly k₂ k id' h₂ hu' ▸ hu) (hnone k₂ id' id h₂ hid)
    · exact absurd (honly k₁ k id h₁ hu ▸ hu') (hnone k₁ id id' h₁ hid')
    · obtain rfl := honly k₁ k id h₁ hu
      obtain rfl := honly k₂ k id' h₂ hu'
      exact InsertionDict.eq_of_mem_of_fst_eq (mem_purgeMatches.mp h₁).1 (mem_purgeMatches.mp h₂).1
  · intro id hid
    rcases (hmem id).mp hid with hid | ⟨k, h⟩
    · exact hs.purged_fresh id hid
    · exact hs.wf.pending_fresh k id (mem_purgeMatches.mp h).1
  · intro k id hid hin
    obtain ⟨hentry, hnot⟩ := mem_pending_purgePending.mp hid
    rcases (hmem id).mp hin with hin | ⟨k', h⟩
    · exact hs.purged_not_pending k id hentry hin
    · exact hnot (hs.wf.keys_current.key_unique (mem_purgeMatches.mp h).1 hentry ▸ h)
  · intro id key hid hin
    rcases (hmem id).mp hin with hin | ⟨k, h⟩
    · exact hs.purged_held id key hid hin
    · rcases (hmeets _ h).unchecked with hheap | hp
      · exact absurd hheap (hs.wf.held_not_heap id key hid)
      · have hheld : s.phase.held = some (id, k) := by rw [hp]; rfl
        have hkey : key = k := (Prod.mk.inj (Option.some_inj.mp (hid.symm.trans hheld))).2
        exact hkey ▸ hp
  · intro id key hp hk
    rcases (htomb key).mp hk with hk | ⟨id', h⟩
    · exact (hmem id).mpr (Or.inl (hs.hit_purged id key hp hk))
    · exact (hmem id).mpr (Or.inr ⟨key, (hmeets _ h).eq_of_dequeued hp ▸ h⟩)

/-! ## Steps -/

theorem PurgeInvariant.held_not_purged (hs : PurgeInvariant s) {id : TaskId} {key : TaskKey}
    (hheld : s.phase.held = some (id, key)) (hp : s.phase ≠ .dequeued id key) :
    id ∉ s.history.purged :=
  fun hin => hp (hs.purged_held id key hheld hin)

theorem beginExecution_records (s : QueueState) (id : TaskId) (key : TaskKey)
    (live : PositionReply) (defaultId : String) (hid : id ∉ s.history.purged) :
    (s.beginExecution id key live defaultId).history.purged = s.history.purged ∧
      (s.beginExecution id key live defaultId).history.dropped = s.history.dropped ∧
      (s.beginExecution id key live defaultId).history.executedAfterPurge =
        s.history.executedAfterPurge := by
  unfold beginExecution
  dsimp only
  rw [if_neg hid]
  split
  · exact ⟨rfl, rfl, rfl⟩
  · split <;> exact ⟨rfl, rfl, rfl⟩
  · exact ⟨rfl, rfl, rfl⟩

theorem PurgeInvariant.take (hs : PurgeInvariant s) {id : TaskId} {rest : List TaskId}
    (phase : s.phase = .polling) (popped : pop s.taskLt s.heap = some (id, rest))
    (hexact : s.NoOvertaking)
    (hwf : WellFormed { s with heap := rest, phase := .dequeued id (s.store id).key }) :
    PurgeInvariant { s with heap := rest, phase := .dequeued id (s.store id).key } := by
  -- the task that is taken waits under the key it waited under
  have hwait : ∀ i k, (i ∈ rest ∧ (s.store i).key = k) ∨
      LoopPhase.dequeued id (s.store id).key = .dequeued i k ↔ s.Unchecked i k := by
    intro i k
    rw [Unchecked, mem_of_pop _ popped, phase]
    simp only [LoopPhase.dequeued.injEq, reduceCtorEq, or_false]
    constructor
    · rintro (⟨hi, hk⟩ | ⟨rfl, hk⟩)
      · exact ⟨Or.inr hi, hk⟩
      · exact ⟨Or.inl rfl, hk⟩
    · rintro ⟨rfl | hi, hk⟩
      · exact Or.inr ⟨rfl, hk⟩
      · exact Or.inl ⟨hi, hk⟩
  refine hs.of_unchecked hwf rfl rfl rfl rfl le_rfl hs.purged_not_pending
    (fun i _ k => hwait i k) ?_ ?_
  · intro i key hi _
    simp only [LoopPhase.held, Option.some.injEq, Prod.mk.injEq] at hi
    exact congrArg₂ LoopPhase.dequeued hi.1 hi.2
  · intro i key hp hk
    obtain ⟨rfl, rfl⟩ := LoopPhase.dequeued.inj hp
    obtain ⟨i', hi', hu⟩ := (hs.tombstoned_iff _).mp hk
    rcases (hwait i' _).mpr hu with ⟨hrest, hkey⟩ | hp'
    · -- a purged task with this key would have been overtaken
      exact absurd hkey (hexact _ popped i' hrest hi')
    · exact (LoopPhase.dequeued.inj hp').1 ▸ hi'

theorem PurgeInvariant.drop (hs : PurgeInvariant s) {id : TaskId} {key : TaskKey}
    (phase : s.phase = .dequeued id key) (hit : key ∈ s.tombstoned) (hwf : WellFormed
      { s with
        tombstoned := s.tombstoned.erase key
        phase := .polling
        history := { s.history with dropped := s.history.dropped ++ [id] } }) :
    PurgeInvariant
      { s with
        tombstoned := s.tombstoned.erase key
        phase := .polling
        history := { s.history with dropped := s.history.dropped ++ [id] } } := by
  have hid : id ∈ s.history.purged := hs.hit_purged id key phase hit
  have hmine : s.Unchecked id key := Or.inr phase
  have hheap : id ∉ s.heap := hs.wf.held_not_heap id key (by rw [phase]; rfl)
  have hwait : ∀ i k, Unchecked
      { s with
        tombstoned := s.tombstoned.erase key
        phase := .polling
        history := { s.history with dropped := s.history.dropped ++ [id] } } i k ↔
      i ∈ s.heap ∧ (s.store i).key = k := by
    intro i k
    simp [Unchecked]
  refine ⟨⟨hs.never_executed, ?_, ?_, ?_⟩, hwf, hs.purged_fresh, hs.purged_not_pending, ?_, ?_⟩
  · intro i hi
    rcases List.mem_append.mp hi with hi | hi
    · exact hs.only_purged_dropped i hi
    · rw [List.mem_singleton] at hi
      exact hi ▸ hid
  · intro k
    simp only [Finset.mem_erase, hs.tombstoned_iff, hwait]
    constructor
    · rintro ⟨hne, i, hi, hu | hp⟩
      · exact ⟨i, hi, hu⟩
      · rw [phase] at hp
        exact absurd (LoopPhase.dequeued.inj hp).2.symm hne
    · rintro ⟨i, hi, hu⟩
      refine ⟨?_, i, hi, Or.inl hu⟩
      rintro rfl
      -- the tombstone belonged to the dropped task alone
      have hsame := hs.one_each k i hi id hid (Or.inl hu) hmine
      exact hheap (hsame ▸ hu.1)
  · intro k i hi i' hi' hu hu'
    exact hs.one_each k i hi i' hi' (Or.inl ((hwait i k).mp hu)) (Or.inl ((hwait i' k).mp hu'))
  · exact fun i k hi => absurd hi (by simp [LoopPhase.held])
  · exact fun i k hp => absurd hp (by simp)

/-- **One step keeps the invariant**, if it purges exactly. -/
theorem PurgeInvariant.step {a : QueueStep} (hs : PurgeInvariant s) (hexact : s.PurgesExactly a)
    (h : step s a = some t) : PurgeInvariant t := by
  have heffect := effect_of_step h
  have hwf := heffect.wellFormed hs.wf
  cases heffect with
  | enqueue task => exact hs.enqueue task
  | purge positionId actions => exact hs.purge hexact hwf
  | move same held _ _ unchecked _ => exact hs.move same held unchecked
  | take phase popped => exact hs.take phase popped hexact hwf
  | drop phase hit => exact hs.drop phase hit hwf
  | pass phase miss =>
    rename_i id key
    -- no tombstone for its key, so it is not a purged task
    have hid : id ∉ s.history.purged :=
      fun hin => miss ((hs.tombstoned_iff key).mpr ⟨id, hin, Or.inr phase⟩)
    refine hs.of_unchecked hwf rfl rfl rfl rfl le_rfl hs.purged_not_pending ?_ ?_ ?_
    · intro i hi k
      have hne : LoopPhase.dequeued id key ≠ .dequeued i k := by
        intro heq
        exact hid ((LoopPhase.dequeued.inj heq).1 ▸ hi)
      simp [Unchecked, phase, hne]
    · intro i k hi hin
      simp only [LoopPhase.held, Option.some.injEq, Prod.mk.injEq] at hi
      exact absurd (hi.1 ▸ hin) hid
    · exact fun i k hp => absurd hp (by simp)
  | execute phase live defaultId =>
    rename_i id key
    have hid : id ∉ s.history.purged :=
      hs.held_not_purged (by rw [phase]; rfl) (by rw [phase]; simp)
    obtain ⟨hheap, hfresh, hstore, hpending, htomb, hheld, hstarted, -, -⟩ :=
      beginExecution_spec s id key live defaultId
    obtain ⟨hpurged, hdropped, hexecuted⟩ := beginExecution_records s id key live defaultId hid
    have hchecked : ∀ i k, (s.beginExecution id key live defaultId).phase ≠ .dequeued i k := by
      intro i k hp
      rw [hp] at hstarted
      exact absurd hstarted (by simp [LoopPhase.callStarted])
    refine hs.of_unchecked hwf htomb hpurged hdropped hexecuted hfresh.ge ?_ ?_ ?_ ?_
    · rw [hpending]
      exact hs.purged_not_pending
    · intro i _ k
      rw [Unchecked, Unchecked, hheap, hstore, or_iff_left (hchecked i k), phase]
      simp
    · intro i k hi hin
      rw [hheld, Option.some_inj, Prod.mk.injEq] at hi
      exact absurd (hi.1 ▸ hin) hid
    · exact fun i k hp => absurd hp (hchecked i k)
  | putBack phase =>
    rename_i id key
    have hheld : s.phase.held = some (id, key) := by
      rcases phase with h | h <;> rw [h] <;> rfl
    have hchecked : ∀ i k, s.phase ≠ .dequeued i k := by
      rcases phase with h | h <;> simp [h]
    have hid : id ∉ s.history.purged := hs.held_not_purged hheld (hchecked id key)
    refine hs.of_unchecked hwf rfl rfl rfl rfl le_rfl hs.purged_not_pending ?_ ?_ ?_
    · intro i hi k
      have hne : i ≠ id := fun heq => hid (heq ▸ hi)
      rw [Unchecked, Unchecked, or_iff_left (hchecked i k)]
      simp [putHeap, mem_push, hne]
    · exact fun i k hi => absurd hi (by simp [LoopPhase.held])
    · exact fun i k hp => absurd hp (by simp)
  | escalate phase escalated =>
    rename_i id key error emergency now
    have henq := hs.enqueue emergency
    have hphase : (s.enqueue emergency).phase = .escalating id key error :=
      (phase_enqueue hs.wf.keys_current emergency).trans phase
    exact henq.move (SameQueue.of_phase _ _) (by rw [hphase]; rfl) (by simp [hphase])
  | finish phase =>
    refine hs.of_unchecked hwf rfl rfl rfl rfl le_rfl ?_ ?_ ?_ ?_
    · exact fun k i hi => hs.purged_not_pending k i (InsertionDict.mem_remove.mp hi).2
    · intro i _ k
      simp [Unchecked, phase]
    · exact fun i k hi => absurd hi (by simp [LoopPhase.held])
    · exact fun i k hp => absurd hp (by simp)

theorem purgeInvariant_initial : PurgeInvariant initial where
  never_executed := rfl
  only_purged_dropped _ h := absurd h List.not_mem_nil
  tombstoned_iff k := by simp [initial]
  one_each _ _ h := absurd h List.not_mem_nil
  wf := wellFormed_initial
  purged_fresh _ h := absurd h List.not_mem_nil
  purged_not_pending _ _ h := absurd h List.not_mem_nil
  purged_held _ _ h := absurd h (by simp [initial, LoopPhase.held])
  hit_purged _ _ h := absurd h (by simp [initial])

/-- **Purging is exact** in every run whose purges meet their tasks and in which no purged task is
overtaken by another with its key. -/
theorem purgeExact_of_run {s : QueueState} {as : List QueueStep} (hrun : run initial as = some s)
    (hexact : StepSystem.AlongRun step PurgesExactly initial as) : s.PurgeExact :=
  (StepSystem.invariant_of_alongRun step (fun _ _ _ hI hP h => hI.step hP h)
    purgeInvariant_initial hexact hrun).toPurgeExact

/-! ## Purging a task in execution -/

/-- The initial stop of a position, as the order-fill handler enqueues it. -/
def initialStop (createdAt : ℚ) : OrderTask where
  priority := .newConditional
  createdAt := createdAt
  positionId := "7"
  action := .placeSl
  params := .ofList
    [("symbol", .str "BTCUSDT"),
     ("side", .side .sell),
     ("quantity", .float 1),
     ("trigger_price", .float 90),
     ("client_order_id", .str "pos_7_sl")]

/-- A stop is purged while it waits, another one with its key is queued behind it, and the loop
drops the first and executes the second. -/
def purgedWhileWaiting : List QueueStep :=
  [.startProcessing, .enqueue (initialStop 0), .purgePending "7" [.placeSl, .replaceSl, .placeTp],
   .enqueue (initialStop 1), .dequeue, .checkTombstone, .dequeue, .checkTombstone, .headroom,
   .execute .raised "", .adapterReturns, .release, .cleanup]

/-- A stop is purged while it executes, and another one with its key is queued afterwards. -/
def purgedWhileExecuting : List QueueStep :=
  [.startProcessing, .enqueue (initialStop 0), .dequeue, .checkTombstone, .headroom,
   .execute .raised "", .purgePending "7" [.placeSl, .replaceSl, .placeTp], .adapterReturns,
   .release, .cleanup, .enqueue (initialStop 1), .dequeue, .checkTombstone]

theorem purgeExact_purgedWhileWaiting :
    ∃ s, run initial purgedWhileWaiting = some s ∧ s.PurgeExact := by
  obtain ⟨s, hs⟩ : ∃ s, run initial purgedWhileWaiting = some s :=
    Option.isSome_iff_exists.mp (by decide +kernel)
  exact ⟨s, hs, purgeExact_of_run hs (by decide +kernel)⟩

/-- **The successor is dropped**: the tombstone of the task in execution is met by the task that
was enqueued after the purge. -/
theorem purge_while_executing_drops_successor :
    ∃ s, run initial purgedWhileExecuting = some s ∧ ¬s.PurgeExact ∧
      s.history.purged = [0] ∧ s.history.dropped = [1] ∧ s.heap = [] := by
  have hend : (run initial purgedWhileExecuting).map (fun s =>
      decide (s.history.purged = [0] ∧ s.history.dropped = [1] ∧ s.heap = [])) = some true := by
    decide +kernel
  obtain ⟨s, hs, hstate⟩ := Option.map_eq_some_iff.mp hend
  obtain ⟨hpurged, hdropped, hheap⟩ := of_decide_eq_true hstate
  refine ⟨s, hs, fun h => ?_, hpurged, hdropped, hheap⟩
  have hone := h.only_purged_dropped 1 (by rw [hdropped]; exact List.mem_singleton_self _)
  rw [hpurged] at hone
  exact absurd hone (by decide)

end QueueState
end AdviserConstructor
