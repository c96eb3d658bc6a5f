import AdviserConstructor.Library.HeapOrder
import AdviserConstructor.Position.SlIntents

/-!
# The order of the queue

`OrderExecutionQueue` of `app/services/position/order_queue.py` takes the tasks off a heap that
compares priority and creation time.  Coalescing writes both into a task that may still be on the
heap, and does not move it: the heap is then ordered by keys that its tasks no longer have.

* `enqueue_of_coalesceTarget`: what coalescing writes, and that the heap stays as it is.
* `ordered_of_run`: the heap is in order after every run in which a task that is coalesced into
  keeps its place: the new key is not below that of its parent nor above those of its children.
* `dequeue_minimal`: after such a run the loop takes a task that is minimal among the queued ones.
* `dequeue_notMinimal`: a stop that is moved again is taken before an older one of another
  position.
-/

namespace AdviserConstructor

theorem OrderTask.lt_asymm {a b : OrderTask} (h : a.lt b = true) : b.lt a = false := by
  simp only [OrderTask.lt, decide_eq_true_eq, decide_eq_false_iff_not, not_or, not_and,
    not_lt] at h ⊢
  rcases h with h | ⟨hsame, h⟩
  · exact ⟨h.le, fun hsame => absurd hsame (by omega)⟩
  · exact ⟨hsame.le, fun _ => h.le⟩

theorem OrderTask.lt_false_trans {a b c : OrderTask} (hba : b.lt a = false)
    (hcb : c.lt b = false) : c.lt a = false := by
  simp only [OrderTask.lt, decide_eq_false_iff_not, not_or, not_and, not_lt] at hba hcb ⊢
  refine ⟨hba.1.trans hcb.1, fun hsame => ?_⟩
  have hab : a.priority.value = b.priority.value := by omega
  exact (hba.2 hab.symm).trans (hcb.2 (by omega))

namespace QueueState

open BinaryHeap

theorem strictWeak_taskLt (s : QueueState) : StrictWeak s.taskLt where
  asymm := OrderTask.lt_asymm
  trans_false := OrderTask.lt_false_trans

/-! ## Coalescing -/

/-- The task object that is left when a task is coalesced into another one. -/
def coalescedTask (existing task : OrderTask) : OrderTask :=
  if task.action.isSl then refreshed existing task else { existing with params := task.params }

variable {s : QueueState} {task : OrderTask}

/-- Coalescing writes into one task object and leaves the heap as it is. -/
theorem enqueue_of_coalesceTarget {id : TaskId} (h : s.coalesceTarget task = some id) :
    (s.enqueue task).heap = s.heap ∧
      (s.enqueue task).store =
        Function.update s.store id (coalescedTask (s.store id) task) := by
  unfold coalesceTarget at h
  unfold enqueue
  cases hquick : s.quickfireTarget task with
  | some entry =>
      obtain ⟨key, target⟩ := entry
      obtain ⟨-, -, -, haction⟩ := quickfireTarget_spec hquick
      simp only [hquick, Option.some.injEq] at h
      subst h
      have hsl : coalescedTask (s.store target) task = refreshed (s.store target) task := by
        rw [coalescedTask, haction]
        rfl
      rw [hsl]
      dsimp only
      split
      · exact ⟨rfl, rfl⟩
      · exact ⟨rfl, rfl⟩
  | none =>
      simp only [hquick] at h
      rw [h]
      dsimp only
      by_cases hsl : task.action.isSl = true
      · rw [if_pos hsl, coalescedTask, if_pos hsl]
        exact ⟨rfl, rfl⟩
      · rw [if_neg hsl, coalescedTask, if_neg hsl]
        exact ⟨rfl, rfl⟩

theorem enqueue_of_no_target (h : s.coalesceTarget task = none) :
    (s.enqueue task).store = Function.update s.store s.fresh task ∧
      (s.enqueue task).heap = push (s.enqueue task).taskLt s.heap s.fresh := by
  unfold coalesceTarget at h
  cases hquick : s.quickfireTarget task with
  | some entry => simp [hquick] at h
  | none =>
      simp only [hquick] at h
      rw [enqueue, hquick, h]
      exact ⟨rfl, rfl⟩

/-- With the new contents the task has its place on the heap: it is not below its parent nor above
a child. -/
def FitsInPlace (s : QueueState) (id : TaskId) (new : OrderTask) : Prop :=
  ∀ i < s.heap.length, 0 < i → ∀ x ∈ s.heap[(i - 1) / 2]?, ∀ y ∈ s.heap[i]?,
    (x = id → (s.store y).lt new = false) ∧ (y = id → new.lt (s.store x) = false)

instance (s : QueueState) (id : TaskId) (new : OrderTask) : Decidable (s.FitsInPlace id new) := by
  unfold FitsInPlace
  infer_instance

/-- The condition on a step: a task that is coalesced into keeps its place. -/
def KeepsPlace (s : QueueState) (a : QueueStep) : Prop :=
  ∀ task ∈ a.enqueued?, ∀ id ∈ s.coalesceTarget task,
    s.FitsInPlace id (coalescedTask (s.store id) task)

instance (s : QueueState) (a : QueueStep) : Decidable (s.KeepsPlace a) := by
  unfold KeepsPlace
  infer_instance

/-! ## The heap stays in order -/

/-- The heap is in order by the keys that its tasks have now. -/
def HeapInOrder (s : QueueState) : Prop := Ordered s.taskLt s.heap

theorem heapInOrder_initial : HeapInOrder initial := ordered_nil

theorem HeapInOrder.of_keys {t : QueueState} (h : s.HeapInOrder) (hheap : t.heap = s.heap)
    (hstore : ∀ id ∈ s.heap, (t.store id).priority = (s.store id).priority ∧
      (t.store id).createdAt = (s.store id).createdAt) : t.HeapInOrder := by
  unfold HeapInOrder at h ⊢
  rw [hheap]
  refine h.congr fun i x y _ hx hy hlt => ?_
  obtain ⟨hpx, hcx⟩ := hstore x (List.mem_of_getElem? hx)
  obtain ⟨hpy, hcy⟩ := hstore y (List.mem_of_getElem? hy)
  rw [← hlt]
  simp only [taskLt, OrderTask.lt, hpx, hcx, hpy, hcy]

theorem HeapInOrder.coalesced (h : s.HeapInOrder) (hnodup : s.heap.Nodup) {id : TaskId}
    (htarget : s.coalesceTarget task = some id)
    (hfits : s.FitsInPlace id (coalescedTask (s.store id) task)) :
    (s.enqueue task).HeapInOrder := by
  obtain ⟨hheap, hstore⟩ := enqueue_of_coalesceTarget htarget
  unfold HeapInOrder at h ⊢
  rw [hheap]
  refine h.congr fun i x y hi hx hy hlt => ?_
  have hlength : i < s.heap.length := (List.getElem?_eq_some_iff.mp hy).1
  obtain ⟨hparent, hchild⟩ := hfits i hlength hi x hx y hy
  unfold taskLt at hlt ⊢
  rw [hstore]
  by_cases hxid : x = id
  · have hyid : y ≠ id := by
      rintro rfl
      -- a task is on the heap once
      have hsame := (List.getElem?_inj (by omega : (i - 1) / 2 < s.heap.length) hnodup).mp
        (hx.trans (hxid ▸ hy.symm))
      omega
    rw [hxid, Function.update_self, Function.update_of_ne hyid]
    exact hparent hxid
  · rw [Function.update_of_ne hxid]
    by_cases hyid : y = id
    · rw [hyid, Function.update_self]
      exact hchild hyid
    · rw [Function.update_of_ne hyid]
      exact hlt

theorem fitsInPlace_of_not_isSl (h : s.HeapInOrder) (hsl : task.action.isSl = false) (id : TaskId) :
    s.FitsInPlace id (coalescedTask (s.store id) task) := by
  have hkey : ∀ other : OrderTask, other.lt (coalescedTask (s.store id) task) =
      other.lt (s.store id) ∧
      (coalescedTask (s.store id) task).lt other = (s.store id).lt other := by
    intro other
    rw [coalescedTask, hsl]
    exact ⟨rfl, rfl⟩
  intro i _ hi x hx y hy
  have hlt : (s.store y).lt (s.store x) = false := h i hi x y hx hy
  refine ⟨fun hxid => ?_, fun hyid => ?_⟩
  · rw [(hkey _).1, ← hxid]
    exact hlt
  · rw [(hkey _).2, ← hyid]
    exact hlt

theorem HeapInOrder.enqueue (h : s.HeapInOrder) (hs : WellFormed s)
    (hfits : ∀ id ∈ s.coalesceTarget task, s.FitsInPlace id (coalescedTask (s.store id) task)) :
    (s.enqueue task).HeapInOrder := by
  cases htarget : s.coalesceTarget task with
  | some id => exact h.coalesced hs.heap_nodup htarget (hfits id htarget)
  | none =>
      obtain ⟨hstore, hheap⟩ := enqueue_of_no_target htarget
      unfold HeapInOrder
      rw [hheap]
      refine push_ordered (strictWeak_taskLt _) ?_ s.fresh
      have hold : ∀ id ∈ s.heap, (s.enqueue task).store id = s.store id := by
        intro id hid
        rw [hstore]
        exact Function.update_of_ne (hs.heap_fresh id hid).ne _ _
      refine h.congr fun i x y _ hx hy hlt => ?_
      unfold taskLt at hlt ⊢
      rw [hold x (List.mem_of_getElem? hx), hold y (List.mem_of_getElem? hy)]
      exact hlt

theorem HeapInOrder.step {t : QueueState} {a : QueueStep} (h : s.HeapInOrder) (hs : WellFormed s)
    (hfits : s.KeepsPlace a) (hstep : QueueState.step s a = some t) : t.HeapInOrder := by
  cases effect_of_step hstep with
  | enqueue task => exact h.enqueue hs (hfits task rfl)
  | purge positionId actions => exact h
  | move same held _ _ _ _ =>
      refine h.of_keys same.heap fun id _ => ?_
      obtain ⟨n, hn⟩ := same.store id
      rw [hn]
      exact ⟨rfl, rfl⟩
  | take phase popped => exact pop_ordered (strictWeak_taskLt s) h popped
  | drop phase hit => exact h
  | pass phase miss => exact h
  | @execute id key phase live defaultId =>
      obtain ⟨hheap, -, hstore, -⟩ := beginExecution_spec s id key live defaultId
      refine h.of_keys hheap fun other _ => ?_
      rw [hstore]
      exact ⟨rfl, rfl⟩
  | @putBack _ id key phase => exact push_ordered (strictWeak_taskLt s) h id
  | escalate phase escalated =>
      have hsl := escalationOf_action escalated
      exact h.enqueue hs fun id _ => fitsInPlace_of_not_isSl h (by rw [hsl]; rfl) id
  | finish phase => exact h

/-! ## Runs -/

/-- **The heap stays in order** along every run in which the tasks that are coalesced into keep
their places. -/
theorem ordered_of_run {as : List QueueStep} (hrun : run initial as = some s)
    (hfits : StepSystem.AlongRun QueueState.step KeepsPlace initial as) : s.HeapInOrder := by
  refine (StepSystem.invariant_of_alongRun QueueState.step
    (I := fun s => WellFormed s ∧ s.HeapInOrder) ?_
    ⟨wellFormed_initial, heapInOrder_initial⟩ hfits hrun).2
  rintro s a t ⟨hwell, horder⟩ hfits hstep
  exact ⟨(effect_of_step hstep).wellFormed hwell, horder.step hwell hfits hstep⟩

/-- The task that a dequeue takes is minimal among the queued ones. -/
def TakesMinimal (s t : QueueState) : Prop :=
  ∃ id ∈ s.heap, t.phase = .dequeued id (s.store id).key ∧
    ∀ other ∈ s.heap, (s.store other).lt (s.store id) = false

/-- **Dequeues take a minimal task** in every run in which the tasks that are coalesced into keep
their places. -/
theorem dequeue_minimal {s t : QueueState} {as : List QueueStep}
    (hrun : run initial as = some s)
    (hfits : StepSystem.AlongRun QueueState.step KeepsPlace initial as)
    (hstep : QueueState.step s .dequeue = some t) : TakesMinimal s t := by
  have horder := ordered_of_run hrun hfits
  simp only [QueueState.step] at hstep
  cases hphase : s.phase with
  | polling =>
      simp only [hphase] at hstep
      obtain ⟨⟨id, rest⟩, hpop, rfl⟩ := Option.map_eq_some_iff.mp hstep
      refine ⟨id, (mem_of_pop _ hpop).mpr (.inl rfl), rfl, fun other hother => ?_⟩
      exact pop_minimal (strictWeak_taskLt s) horder hpop hother
  | _ => simp [hphase] at hstep

/-! ### A stop that is moved again -/

/-- A move of the stop of a position to 100, by a trailing stop. -/
def trailingMove (positionId : String) (createdAt : ℚ) : OrderTask where
  priority := .slAdjustment
  createdAt := createdAt
  positionId := positionId
  action := .replaceSl
  params := .ofList
    [("symbol", .str "BTCUSDT"),
     ("existing_order_id", .str "sl-1"),
     ("new_trigger_price", .float 100),
     ("new_quantity", .float 1),
     ("client_order_id", .str "sl"),
     ("reason", .str "realtime_pipeline:trailing")]

/-- The stop of one position is moved twice before that of another one is moved. -/
def movedTwiceFirst : List QueueStep :=
  [.enqueue (trailingMove "7" 0), .enqueue (trailingMove "7" 1), .enqueue (trailingMove "8" 2),
   .startProcessing]

/-- It is moved for the second time behind the other one. -/
def movedAgainLast : List QueueStep :=
  [.enqueue (trailingMove "7" 0), .enqueue (trailingMove "8" 1), .enqueue (trailingMove "7" 2),
   .startProcessing]

theorem dequeue_minimal_movedTwiceFirst :
    ∃ s t, run initial movedTwiceFirst = some s ∧ QueueState.step s .dequeue = some t ∧
      TakesMinimal s t := by
  have hrun : ((run initial movedTwiceFirst).bind
      fun s => QueueState.step s .dequeue).isSome = true := by decide +kernel
  obtain ⟨t, ht⟩ := Option.isSome_iff_exists.mp hrun
  obtain ⟨s, hs, hstep⟩ := Option.bind_eq_some_iff.mp ht
  exact ⟨s, t, hs, hstep, dequeue_minimal hs (by decide +kernel) hstep⟩

/-- The second move of the one stop is taken before the move of the other, which has waited
longer. -/
theorem dequeue_notMinimal :
    ∃ s t, run initial movedAgainLast = some s ∧ QueueState.step s .dequeue = some t ∧
      ¬TakesMinimal s t := by
  have hrun : ((run initial movedAgainLast).bind fun s =>
      (QueueState.step s .dequeue).map fun t =>
        decide (t.phase.held.map Prod.fst = some 0 ∧ 1 ∈ s.heap ∧
          (s.store 1).lt (s.store 0) = true)) = some true := by
    decide +kernel
  obtain ⟨s, hs, hmap⟩ := Option.bind_eq_some_iff.mp hrun
  obtain ⟨t, hstep, hstate⟩ := Option.map_eq_some_iff.mp hmap
  obtain ⟨hheld, hmem, hlt⟩ := of_decide_eq_true hstate
  refine ⟨s, t, hs, hstep, ?_⟩
  rintro ⟨id, -, hphase, hminimal⟩
  rw [hphase] at hheld
  obtain rfl : id = 0 := Option.some.inj hheld
  exact absurd (hlt.symm.trans (hminimal 1 hmem)) (by decide)

end QueueState
end AdviserConstructor
