import AdviserConstructor.Position.QueueEffects

/-!
# Well-formed queues

`WellFormed` holds in every state of every run, whatever the callers and the exchange do: no
task is on the heap twice or both on the heap and in the loop's hands, every pending entry
sits under the key of its task's present parameters, and every task object carries the
parameters of an accepted task of its position and action.

It says nothing about tasks being lost; that needs the conditions of `SlIntents` and
`Tombstones`.  What it gives them is the meaning of `enqueue`: `enqueue_cases` says that a task
is either folded into the object that `coalesceTarget` names or put on the heap as a new one.
-/

namespace AdviserConstructor
namespace QueueState

open BinaryHeap

/-- Every pending entry sits under the key of its task's present parameters. -/
def KeysCurrent (s : QueueState) : Prop :=
  ∀ k id, (k, id) ∈ s.pending.entries → k = (s.store id).key

/-- What holds in every reachable state. -/
structure WellFormed (s : QueueState) : Prop where
  heap_nodup : s.heap.Nodup
  heap_fresh : ∀ id ∈ s.heap, id < s.fresh
  held_fresh : ∀ id key, s.phase.held = some (id, key) → id < s.fresh
  held_not_heap : ∀ id key, s.phase.held = some (id, key) → id ∉ s.heap
  pending_fresh : ∀ k id, (k, id) ∈ s.pending.entries → id < s.fresh
  keys_current : s.KeysCurrent
  carries : ∀ id < s.fresh, ∃ t, s.history.accepted[s.history.intent id]? = some t ∧
    t.positionId = (s.store id).positionId ∧ t.action = (s.store id).action ∧
    t.params = (s.store id).params

/-! ## What `enqueue` does -/

/-- `task` was folded into the task object `id`, pending under `k`. -/
structure Coalesced (s : QueueState) (task : OrderTask) (k : TaskKey) (id : TaskId)
    (t : QueueState) : Prop where
  entry : (k, id) ∈ s.pending.entries
  rekeyed : k ≠ task.key → task.action = .replaceSl
  position : (s.store id).positionId = task.positionId
  action : (s.store id).action = task.action
  heap : t.heap = s.heap
  fresh : t.fresh = s.fresh
  phase : t.phase = s.phase
  tombstoned : t.tombstoned = s.tombstoned
  store : ∃ new, t.store = Function.update s.store id new ∧ new.params = task.params ∧
    new.positionId = task.positionId ∧ new.action = task.action
  callback : (t.store id).onSuccess = (s.store id).onSuccess
  pending : ∀ k' i, (k', i) ∈ t.pending.entries ↔
    (k' = task.key ∧ i = id) ∨ (k' ≠ task.key ∧ k' ≠ k ∧ (k', i) ∈ s.pending.entries)
  history : t.history =
    { s.history with
      accepted := s.history.accepted ++ [task]
      intent := Function.update s.history.intent id s.history.accepted.length }

/-- `task` was put on the heap as a new object. -/
structure Queued (s : QueueState) (task : OrderTask) (t : QueueState) : Prop where
  heap : t.heap.Perm (s.fresh :: s.heap)
  fresh : t.fresh = s.fresh + 1
  phase : t.phase = s.phase
  tombstoned : t.tombstoned = s.tombstoned
  store : t.store = Function.update s.store s.fresh task
  pending : ∀ k' i, (k', i) ∈ t.pending.entries ↔
    (k' = task.key ∧ i = s.fresh) ∨ (k' ≠ task.key ∧ (k', i) ∈ s.pending.entries)
  history : t.history =
    { s.history with
      accepted := s.history.accepted ++ [task]
      intent := Function.update s.history.intent s.fresh s.history.accepted.length }

variable {id : TaskId} {s t : QueueState} {task : OrderTask}

theorem quickfireTarget_spec {k : TaskKey} (h : s.quickfireTarget task = some (k, id)) :
    (k, id) ∈ s.pending.entries ∧ (s.store id).positionId = task.positionId ∧
      (s.store id).action = task.action ∧ task.action = .replaceSl := by
  unfold quickfireTarget at h
  split at h
  · next hreason =>
    have hmem := List.mem_of_find?_eq_some h
    have hfound := List.find?_some h
    simp only [decide_eq_true_eq] at hfound
    exact ⟨hmem, hfound.1, hfound.2.1.trans hreason.1.symm, hreason.1⟩
  · cases h

theorem KeysCurrent.key_unique (hk : s.KeysCurrent) {k k' : TaskKey}
    (h : (k, id) ∈ s.pending.entries) (h' : (k', id) ∈ s.pending.entries) : k = k' :=
  (hk k id h).trans (hk k' id h').symm

theorem coalesced_of_quickfire {k : TaskKey} (h : s.quickfireTarget task = some (k, id)) :
    Coalesced s task k id (s.enqueue task) := by
  obtain ⟨hmem, hpos, hact, hreplace⟩ := quickfireTarget_spec h
  have henq : s.enqueue task =
      if task.key ≠ k then
        { s.writeTask id (refreshed (s.store id) task) task with
          pending := (s.pending.remove k).assign task.key id }
      else s.writeTask id (refreshed (s.store id) task) task := by
    rw [enqueue, h]
    rfl
  have hnew : ∃ new, Function.update s.store id (refreshed (s.store id) task) =
        Function.update s.store id new ∧ new.params = task.params ∧
      new.positionId = task.positionId ∧ new.action = task.action :=
    ⟨refreshed (s.store id) task, rfl, rfl, hpos, hact⟩
  have hcallback : (Function.update s.store id (refreshed (s.store id) task) id).onSuccess =
      (s.store id).onSuccess := by
    rw [Function.update_self]
    rfl
  rw [henq]
  split
  · refine ⟨hmem, fun _ => hreplace, hpos, hact, rfl, rfl, rfl, rfl, hnew, hcallback,
      fun k' i => ?_, rfl⟩
    simp only [InsertionDict.mem_assign, InsertionDict.mem_remove]
  · next hsame =>
    rw [not_not] at hsame
    refine ⟨hmem, fun _ => hreplace, hpos, hact, rfl, rfl, rfl, rfl, hnew, hcallback,
      fun k' i => ?_, rfl⟩
    -- the key did not change, so the entry is already there
    rw [hsame]
    constructor
    · intro hi
      by_cases hk' : k' = k
      · subst hk'
        exact Or.inl ⟨rfl, InsertionDict.eq_of_mem_of_fst_eq hi hmem⟩
      · exact Or.inr ⟨hk', hk', hi⟩
    · rintro (⟨rfl, rfl⟩ | ⟨-, -, hi⟩)
      · exact hmem
      · exact hi

theorem coalesced_of_get? (hk : s.KeysCurrent) (hq : s.quickfireTarget task = none)
    (h : s.pending.get? task.key = some id) : Coalesced s task task.key id (s.enqueue task) := by
  have hmem : (task.key, id) ∈ s.pending.entries := InsertionDict.get?_eq_some_iff.mp h
  have hkey : task.key = (s.store id).key := hk _ _ hmem
  have hpos : (s.store id).positionId = task.positionId := (congrArg TaskKey.positionId hkey).symm
  have hact : (s.store id).action = task.action := (congrArg TaskKey.action hkey).symm
  obtain ⟨new, henq, hsame, hnew⟩ : ∃ new, s.enqueue task = s.writeTask id new task ∧
      new.onSuccess = (s.store id).onSuccess ∧ new.params = task.params ∧
        new.positionId = task.positionId ∧ new.action = task.action := by
    rw [enqueue, hq, h]
    by_cases hsl : task.action.isSl
    · exact ⟨refreshed (s.store id) task, by simp [hsl], rfl, rfl, hpos, hact⟩
    · exact ⟨{ s.store id with params := task.params }, by simp [hsl], rfl, rfl, hpos, hact⟩
  have hcallback : (Function.update s.store id new id).onSuccess = (s.store id).onSuccess := by
    rw [Function.update_self, hsame]
  rw [henq]
  refine ⟨hmem, fun hne => absurd rfl hne, hpos, hact, rfl, rfl, rfl, rfl, ⟨new, rfl, hnew⟩,
    hcallback, fun k' i => ?_, rfl⟩
  constructor
  · intro hi
    by_cases hk' : k' = task.key
    · subst hk'
      exact Or.inl ⟨rfl, InsertionDict.eq_of_mem_of_fst_eq hi hmem⟩
    · exact Or.inr ⟨hk', hk', hi⟩
  · rintro (⟨rfl, rfl⟩ | ⟨-, -, hi⟩)
    · exact hmem
    · exact hi

theorem queued_of_get? (hq : s.quickfireTarget task = none) (h : s.pending.get? task.key = none) :
    Queued s task (s.enqueue task) := by
  have henq : s.enqueue task =
      { s.writeTask s.fresh task task with
        fresh := s.fresh + 1
        pending := s.pending.assign task.key s.fresh }.putHeap s.fresh := by
    rw [enqueue, hq, h]
  rw [henq]
  exact ⟨push_perm _ _ _, rfl, rfl, rfl, rfl, fun k' i => InsertionDict.mem_assign, rfl⟩

/-- **`enqueue` folds a task into its coalescing target, or queues it as a new object.** -/
theorem enqueue_cases (hk : s.KeysCurrent) (task : OrderTask) :
    (∃ k id, s.coalesceTarget task = some id ∧ Coalesced s task k id (s.enqueue task)) ∨
      (s.coalesceTarget task = none ∧ Queued s task (s.enqueue task)) := by
  cases hq : s.quickfireTarget task with
  | some found =>
    obtain ⟨k, id⟩ := found
    exact Or.inl ⟨k, id, by rw [coalesceTarget, hq], coalesced_of_quickfire hq⟩
  | none =>
    cases hg : s.pending.get? task.key with
    | some id =>
      exact Or.inl ⟨task.key, id, by rw [coalesceTarget, hq]; exact hg,
        coalesced_of_get? hk hq hg⟩
    | none =>
      exact Or.inr ⟨by rw [coalesceTarget, hq]; exact hg, queued_of_get? hq hg⟩

theorem phase_enqueue (hk : s.KeysCurrent) (task : OrderTask) :
    (s.enqueue task).phase = s.phase := by
  rcases enqueue_cases hk task with ⟨k, id, -, h⟩ | ⟨-, h⟩
  · exact h.phase
  · exact h.phase

theorem tombstoned_enqueue (hk : s.KeysCurrent) (task : OrderTask) :
    (s.enqueue task).tombstoned = s.tombstoned := by
  rcases enqueue_cases hk task with ⟨k, id, -, h⟩ | ⟨-, h⟩
  · exact h.tombstoned
  · exact h.tombstoned

/-! ## What `purge_pending` does -/

theorem mem_foldl_remove {κ ν : Type*} [DecidableEq κ] (keys : List κ) (d : InsertionDict κ ν)
    {k : κ} {v : ν} :
    (k, v) ∈ (keys.foldl InsertionDict.remove d).entries ↔ k ∉ keys ∧ (k, v) ∈ d.entries := by
  induction keys generalizing d with
  | nil => simp
  | cons k₀ keys ih =>
    rw [List.foldl_cons, ih, InsertionDict.mem_remove, List.mem_cons, not_or, ← and_assoc,
      and_comm (a := k ∉ keys)]

theorem mem_purgeMatches {positionId : String} {actions : List TaskAction} {k : TaskKey} :
    (k, id) ∈ s.purgeMatches positionId actions ↔
      (k, id) ∈ s.pending.entries ∧ k.positionId = positionId ∧
        (s.store id).action ∈ actions := by
  simp [purgeMatches]

theorem mem_pending_purgePending {positionId : String} {actions : List TaskAction} {k : TaskKey} :
    (k, id) ∈ (s.purgePending positionId actions).pending.entries ↔
      (k, id) ∈ s.pending.entries ∧ (k, id) ∉ s.purgeMatches positionId actions := by
  simp only [purgePending, mem_foldl_remove]
  constructor
  · rintro ⟨hk, hmem⟩
    exact ⟨hmem, fun hm => hk (List.mem_map.mpr ⟨(k, id), hm, rfl⟩)⟩
  · rintro ⟨hmem, hnot⟩
    refine ⟨fun hk => hnot ?_, hmem⟩
    obtain ⟨⟨k', i⟩, hm, rfl⟩ := List.mem_map.mp hk
    have hi := (mem_purgeMatches.mp hm).1
    exact InsertionDict.eq_of_mem_of_fst_eq hi hmem ▸ hm

/-! ## The invariant -/

theorem getElem?_concat_of_eq_some {α : Type*} {l : List α} {i : ℕ} {a b : α}
    (h : l[i]? = some a) : (l ++ [b])[i]? = some a := by
  rw [List.getElem?_append_left (List.getElem?_eq_some_iff.mp h).1, h]

theorem SameQueue.key (h : SameQueue s t) (id : TaskId) : (t.store id).key = (s.store id).key := by
  obtain ⟨n, hn⟩ := h.store id
  rw [hn]
  rfl

theorem WellFormed.of_same (hs : WellFormed s) (h : SameQueue s t)
    (hheld : t.phase.held = s.phase.held) : WellFormed t where
  heap_nodup := h.heap ▸ hs.heap_nodup
  heap_fresh id hid := by
    rw [h.fresh]
    exact hs.heap_fresh id (h.heap ▸ hid)
  held_fresh id key hid := by
    rw [h.fresh]
    exact hs.held_fresh id key (hheld ▸ hid)
  held_not_heap id key hid := by
    rw [h.heap]
    exact hs.held_not_heap id key (hheld ▸ hid)
  pending_fresh k id hid := by
    rw [h.fresh]
    exact hs.pending_fresh k id (h.pending ▸ hid)
  keys_current k id hid := by
    rw [h.key]
    exact hs.keys_current k id (h.pending ▸ hid)
  carries id hid := by
    obtain ⟨n, hn⟩ := h.store id
    rw [h.history, hn]
    exact hs.carries id (h.fresh ▸ hid)

theorem Coalesced.wellFormed {k : TaskKey} (hs : WellFormed s) (h : Coalesced s task k id t) :
    WellFormed t := by
  obtain ⟨new, hstore, hparams, hposition, haction⟩ := h.store
  have hnewkey : new.key = task.key := by
    rw [OrderTask.key, OrderTask.key, hparams, hposition, haction]
  have hidlt : id < s.fresh := hs.pending_fresh k id h.entry
  refine ⟨h.heap ▸ hs.heap_nodup, ?_, ?_, ?_, ?_, ?_, ?_⟩
  · rw [h.heap, h.fresh]
    exact hs.heap_fresh
  · rw [h.phase, h.fresh]
    exact hs.held_fresh
  · rw [h.phase, h.heap]
    exact hs.held_not_heap
  · intro k' i hi
    rw [h.fresh]
    rcases (h.pending k' i).mp hi with ⟨-, rfl⟩ | ⟨-, -, hi'⟩
    · exact hidlt
    · exact hs.pending_fresh k' i hi'
  · intro k' i hi
    rw [hstore]
    rcases (h.pending k' i).mp hi with ⟨rfl, rfl⟩ | ⟨-, hne, hi'⟩
    · rw [Function.update_self, hnewkey]
    · have hid : i ≠ id := by
        rintro rfl
        exact hne (hs.keys_current.key_unique hi' h.entry)
      rw [Function.update_of_ne hid]
      exact hs.keys_current k' i hi'
  · intro i hi
    rw [h.fresh] at hi
    rw [h.history, hstore]
    by_cases hid : i = id
    · subst hid
      refine ⟨task, ?_, ?_⟩
      · simp only [Function.update_self]
        exact List.getElem?_concat_length
      · simp only [Function.update_self]
        exact ⟨hposition.symm, haction.symm, hparams.symm⟩
    · obtain ⟨u, hu, hrest⟩ := hs.carries i hi
      refine ⟨u, ?_, ?_⟩
      · simp only [Function.update_of_ne hid]
        exact getElem?_concat_of_eq_some hu
      · simp only [Function.update_of_ne hid]
        exact hrest

theorem Queued.wellFormed (hs : WellFormed s) (h : Queued s task t) : WellFormed t := by
  have hfresh_heap : s.fresh ∉ s.heap := fun hm => absurd (hs.heap_fresh _ hm) (lt_irrefl _)
  refine ⟨?_, ?_, ?_, ?_, ?_, ?_, ?_⟩
  · rw [h.heap.nodup_iff, List.nodup_cons]
    exact ⟨hfresh_heap, hs.heap_nodup⟩
  · intro id hid
    rw [h.fresh]
    rcases List.mem_cons.mp (h.heap.mem_iff.mp hid) with rfl | hid'
    · exact Nat.lt_succ_self _
    · exact Nat.lt_succ_of_lt (hs.heap_fresh id hid')
  · intro id key hid
    rw [h.fresh]
    exact Nat.lt_succ_of_lt (hs.held_fresh id key (h.phase ▸ hid))
  · intro id key hid hmem
    rw [h.phase] at hid
    rcases List.mem_cons.mp (h.heap.mem_iff.mp hmem) with rfl | hmem'
    · exact lt_irrefl _ (hs.held_fresh _ key hid)
    · exact hs.held_not_heap id key hid hmem'
  · intro k' i hi
    rw [h.fresh]
    rcases (h.pending k' i).mp hi with ⟨-, rfl⟩ | ⟨-, hi'⟩
    · exact Nat.lt_succ_self _
    · exact Nat.lt_succ_of_lt (hs.pending_fresh k' i hi')
  · intro k' i hi
    rw [h.store]
    rcases (h.pending k' i).mp hi with ⟨rfl, rfl⟩ | ⟨-, hi'⟩
    · rw [Function.update_self]
    · have hne : i ≠ s.fresh := (hs.pending_fresh k' i hi').ne
      rw [Function.update_of_ne hne]
      exact hs.keys_current k' i hi'
  · intro i hi
    rw [h.fresh] at hi
    rw [h.history, h.store]
    by_cases hne : i = s.fresh
    · subst hne
      refine ⟨task, ?_, ?_⟩
      · simp only [Function.update_self]
        exact List.getElem?_concat_length
      · rw [Function.update_self]
        exact ⟨rfl, rfl, rfl⟩
    · obtain ⟨u, hu, hrest⟩ := hs.carries i (lt_of_le_of_ne (Nat.lt_succ_iff.mp hi) hne)
      refine ⟨u, ?_, ?_⟩
      · simp only [Function.update_of_ne hne]
        exact getElem?_concat_of_eq_some hu
      · simp only [Function.update_of_ne hne]
        exact hrest

theorem WellFormed.enqueue (hs : WellFormed s) (task : OrderTask) :
    WellFormed (s.enqueue task) := by
  rcases enqueue_cases hs.keys_current task with ⟨k, id, -, h⟩ | ⟨-, h⟩
  · exact h.wellFormed hs
  · exact h.wellFormed hs

theorem beginExecution_spec (s : QueueState) (id : TaskId) (key : TaskKey)
    (live : PositionReply) (defaultId : String) :
    (s.beginExecution id key live defaultId).heap = s.heap ∧
      (s.beginExecution id key live defaultId).fresh = s.fresh ∧
      (s.beginExecution id key live defaultId).store = s.store ∧
      (s.beginExecution id key live defaultId).pending = s.pending ∧
      (s.beginExecution id key live defaultId).tombstoned = s.tombstoned ∧
      (s.beginExecution id key live defaultId).phase.held = some (id, key) ∧
      (s.beginExecution id key live defaultId).phase.callStarted = true ∧
      (s.beginExecution id key live defaultId).history.accepted = s.history.accepted ∧
      (s.beginExecution id key live defaultId).history.intent = s.history.intent := by
  unfold beginExecution
  dsimp only
  split
  · exact ⟨rfl, rfl, rfl, rfl, rfl, rfl, rfl, rfl, rfl⟩
  · split <;> exact ⟨rfl, rfl, rfl, rfl, rfl, rfl, rfl, rfl, rfl⟩
  · exact ⟨rfl, rfl, rfl, rfl, rfl, rfl, rfl, rfl, rfl⟩

/-- Well-formedness reads the heap, the loop's hands, the pending map, the task objects and the
acceptance record; a step that keeps the last three and only moves a task between the first two
keeps it. -/
theorem WellFormed.of_regroup (hs : WellFormed s) (hfresh : t.fresh = s.fresh)
    (hstore : t.store = s.store)
    (hpending : ∀ k id, (k, id) ∈ t.pending.entries → (k, id) ∈ s.pending.entries)
    (haccepted : t.history.accepted = s.history.accepted)
    (hintent : t.history.intent = s.history.intent) (hnodup : t.heap.Nodup)
    (hheap : ∀ id ∈ t.heap, id < s.fresh)
    (hheld : ∀ id key, t.phase.held = some (id, key) → id < s.fresh ∧ id ∉ t.heap) :
    WellFormed t where
  heap_nodup := hnodup
  heap_fresh id hid := hfresh ▸ hheap id hid
  held_fresh id key hid := hfresh ▸ (hheld id key hid).1
  held_not_heap id key hid := (hheld id key hid).2
  pending_fresh k id hid := hfresh ▸ hs.pending_fresh k id (hpending k id hid)
  keys_current k id hid := hstore ▸ hs.keys_current k id (hpending k id hid)
  carries id hid := by
    rw [haccepted, hintent, hstore]
    exact hs.carries id (hfresh ▸ hid)

theorem Effect.wellFormed {a : QueueStep} (hs : WellFormed s) (h : Effect s a t) :
    WellFormed t := by
  cases h with
  | enqueue task => exact hs.enqueue task
  | purge positionId actions =>
    exact hs.of_regroup rfl rfl (fun k id hid => (mem_pending_purgePending.mp hid).1) rfl rfl
      hs.heap_nodup hs.heap_fresh
      fun id key hid => ⟨hs.held_fresh id key hid, hs.held_not_heap id key hid⟩
  | move same held _ _ _ _ => exact hs.of_same same held
  | take phase popped =>
    have hnd := (nodup_of_pop _ popped).mp hs.heap_nodup
    refine hs.of_regroup rfl rfl (fun k i hi => hi) rfl rfl hnd.2
      (fun i hi => hs.heap_fresh i ((mem_of_pop _ popped).mpr (Or.inr hi))) ?_
    intro i key hi
    obtain ⟨rfl, -⟩ := hi
    exact ⟨hs.heap_fresh _ ((mem_of_pop _ popped).mpr (Or.inl rfl)), hnd.1⟩
  | drop phase hit =>
    exact hs.of_regroup rfl rfl (fun k i hi => hi) rfl rfl hs.heap_nodup hs.heap_fresh
      fun i key hi => absurd hi (by simp [LoopPhase.held])
  | pass phase miss =>
    refine hs.of_regroup rfl rfl (fun k i hi => hi) rfl rfl hs.heap_nodup hs.heap_fresh ?_
    intro i key' hi
    have hi' : s.phase.held = some (i, key') := by rw [phase]; exact hi
    exact ⟨hs.held_fresh i key' hi', hs.held_not_heap i key' hi'⟩
  | execute phase live defaultId =>
    rename_i id key
    obtain ⟨hheap, hfresh, hstore, hpending, -, hheld, -, hacc, hint⟩ :=
      beginExecution_spec s id key live defaultId
    refine hs.of_regroup hfresh hstore (fun k i hi => hpending ▸ hi) hacc hint
      (hheap ▸ hs.heap_nodup) (fun i hi => hs.heap_fresh i (hheap ▸ hi)) ?_
    intro i key' hi
    have hi' : s.phase.held = some (i, key') := by
      rw [phase]
      exact hheld.symm.trans hi
    exact ⟨hs.held_fresh i key' hi', hheap ▸ hs.held_not_heap i key' hi'⟩
  | putBack phase =>
    rename_i id key
    have hheld : s.phase.held = some (id, key) := by
      rcases phase with h | h <;> rw [h] <;> rfl
    refine hs.of_regroup rfl rfl (fun k i hi => hi) rfl rfl ?_ ?_ ?_
    · exact (nodup_push _).mpr ⟨hs.held_not_heap id key hheld, hs.heap_nodup⟩
    · intro i hi
      rcases (mem_push _).mp hi with rfl | hi'
      · exact hs.held_fresh _ key hheld
      · exact hs.heap_fresh i hi'
    · exact fun i k hi => absurd hi (by simp [LoopPhase.held])
  | escalate phase escalated =>
    rename_i id key error emergency now
    have henq := hs.enqueue emergency
    refine henq.of_regroup rfl rfl (fun k i hi => hi) rfl rfl henq.heap_nodup henq.heap_fresh ?_
    intro i key' hi
    have hi' : (s.enqueue emergency).phase.held = some (i, key') := by
      rw [phase_enqueue hs.keys_current, phase]
      exact hi
    exact ⟨henq.held_fresh i key' hi', henq.held_not_heap i key' hi'⟩
  | finish phase =>
    exact hs.of_regroup rfl rfl (fun k i hi => (InsertionDict.mem_remove.mp hi).2) rfl rfl
      hs.heap_nodup hs.heap_fresh fun i key hi => absurd hi (by simp [LoopPhase.held])

theorem wellFormed_initial : WellFormed initial where
  heap_nodup := List.nodup_nil
  heap_fresh _ h := absurd h (List.not_mem_nil)
  held_fresh _ _ h := absurd h (by simp [initial, LoopPhase.held])
  held_not_heap _ _ _ := List.not_mem_nil
  pending_fresh _ _ h := absurd h (List.not_mem_nil)
  keys_current _ _ h := absurd h (List.not_mem_nil)
  carries _ h := absurd h (Nat.not_lt_zero _)

/-- **Every reachable queue is well formed.** -/
theorem wellFormed_of_run {as : List QueueStep} (h : run initial as = some s) : WellFormed s :=
  StepSystem.run_invariant step (fun _ _ _ hs hstep => (effect_of_step hstep).wellFormed hs)
    wellFormed_initial h

end QueueState
end AdviserConstructor
