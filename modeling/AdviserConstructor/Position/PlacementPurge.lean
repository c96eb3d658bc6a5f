import AdviserConstructor.Position.QueueInvariants

/-!
# What a purge leaves of a position's placements

The cleanup of a closed position purges the four placement actions before it cancels anything.  A
purge tombstones keys; it does not touch the heap, and it does not reach a task that the loop has
taken past the tombstone check.

A placement of the position is *buried* if the tombstone check will drop it: its key is tombstoned
and no other placement shares it.  `Calm` says that the loop holds no placement whose adapter call
may still begin or is in progress.

* `buried_purgePending`: a purge buries the placements that are pending under their keys.
* `Buried.step`, `Calm.step`: buried placements stay buried whatever the loop does, and a calm
  loop with buried placements stays calm.  So from then on no placement reaches the exchange.
-/

namespace AdviserConstructor

/-- The actions that the cleanup purges. -/
def placementActions : List TaskAction := [.placeSl, .replaceSl, .placeTp, .replaceTp]

/-- A task that puts a conditional order of the position on the exchange. -/
def isPlacement (positionId : String) (task : OrderTask) : Bool :=
  task.positionId = positionId && task.action ∈ placementActions

theorem isPlacement_iff {positionId : String} {task : OrderTask} :
    isPlacement positionId task = true ↔
      task.positionId = positionId ∧ task.action ∈ placementActions := by
  simp [isPlacement]

/-- A step of the loop, or of whoever starts and stops it. -/
def QueueStep.isLoop : QueueStep → Bool
  | .enqueue _ | .purgePending _ _ => false
  | _ => true

namespace LoopPhase

/-- The task about to be checked for a tombstone, with the key it is checked under. -/
def unchecked : LoopPhase → Option (TaskId × TaskKey)
  | .dequeued task key => some (task, key)
  | _ => none

theorem held_of_landing {p : LoopPhase} {id : TaskId} (h : p.landing = some id) :
    ∃ key, p.held = some (id, key) := by
  cases p <;> simp_all [landing, held]

theorem unchecked_eq_some {p : LoopPhase} {id : TaskId} {key : TaskKey} :
    p.unchecked = some (id, key) ↔ p = .dequeued id key := by
  cases p <;> simp [unchecked]

end LoopPhase

namespace QueueState

open BinaryHeap

/-! ## Placements -/

/-- The tasks on the heap and in the loop's hands. -/
def underway (s : QueueState) : List TaskId := (s.phase.held.map Prod.fst).toList ++ s.heap

/-- The placements of the position among them. -/
def placements (s : QueueState) (positionId : String) : List TaskId :=
  s.underway.filter fun id => isPlacement positionId (s.store id)

/-- Every placement is pending under its key, and the key it is about to be checked under is that
key. -/
structure Purgeable (s : QueueState) (positionId : String) : Prop where
  pending : ∀ id ∈ s.placements positionId, s.pending.get? (s.store id).key = some id
  unchecked : ∀ entry ∈ s.phase.unchecked, isPlacement positionId (s.store entry.1) = true →
    entry.2 = (s.store entry.1).key

/-- The tombstone check will drop every placement. -/
structure Buried (s : QueueState) (positionId : String) : Prop where
  tombstoned : ∀ id ∈ s.placements positionId, (s.store id).key ∈ s.tombstoned
  unique : ∀ id ∈ s.placements positionId, ∀ id' ∈ s.placements positionId,
    (s.store id).key = (s.store id').key → id = id'
  unchecked : ∀ entry ∈ s.phase.unchecked, isPlacement positionId (s.store entry.1) = true →
    entry.2 = (s.store entry.1).key

/-- No placement is past the check with its adapter call still to come or in progress. -/
def Calm (s : QueueState) (positionId : String) : Prop :=
  ∀ id ∈ s.phase.landing, isPlacement positionId (s.store id) = false

instance (s : QueueState) (positionId : String) : Decidable (s.Purgeable positionId) :=
  decidable_of_iff
    ((∀ id ∈ s.placements positionId, s.pending.get? (s.store id).key = some id) ∧
      ∀ entry ∈ s.phase.unchecked, isPlacement positionId (s.store entry.1) = true →
        entry.2 = (s.store entry.1).key)
    ⟨fun h => ⟨h.1, h.2⟩, fun h => ⟨h.pending, h.unchecked⟩⟩

instance (s : QueueState) (positionId : String) : Decidable (s.Calm positionId) := by
  unfold Calm
  infer_instance

/-- The key under which the loop holds a task names its position and its action. -/
def HeldKey (s : QueueState) : Prop :=
  ∀ id key, s.phase.held = some (id, key) →
    key.positionId = (s.store id).positionId ∧ key.action = (s.store id).action

section Placements

variable {s t : QueueState} {positionId : String} {id : TaskId}

theorem mem_underway :
    id ∈ s.underway ↔ id ∈ s.heap ∨ ∃ key, s.phase.held = some (id, key) := by
  rw [underway, List.mem_append, Option.mem_toList, Option.map_eq_some_iff, or_comm]
  refine or_congr_right ⟨?_, ?_⟩
  · rintro ⟨⟨i, key⟩, hheld, rfl⟩
    exact ⟨key, hheld⟩
  · rintro ⟨key, hheld⟩
    exact ⟨(id, key), hheld, rfl⟩

theorem mem_placements :
    id ∈ s.placements positionId ↔
      id ∈ s.underway ∧ isPlacement positionId (s.store id) = true := by
  rw [placements, List.mem_filter]

theorem WellFormed.underway_fresh (hs : WellFormed s) (hid : id ∈ s.underway) : id < s.fresh := by
  rcases mem_underway.mp hid with hheap | ⟨key, hheld⟩
  · exact hs.heap_fresh id hheap
  · exact hs.held_fresh id key hheld

/-- **A purge buries** the placements that are pending under their keys. -/
theorem buried_purgePending (h : s.Purgeable positionId) :
    (s.purgePending positionId placementActions).Buried positionId where
  tombstoned id hid := by
    have hmatch : ((s.store id).key, id) ∈ s.purgeMatches positionId placementActions := by
      have hplacement := isPlacement_iff.mp (mem_placements.mp hid).2
      exact mem_purgeMatches.mpr
        ⟨InsertionDict.get?_eq_some_iff.mp (h.pending id hid), hplacement.1, hplacement.2⟩
    refine Finset.mem_union_right _ (List.mem_toFinset.mpr ?_)
    exact List.mem_map.mpr ⟨_, hmatch, rfl⟩
  unique id hid id' hid' hkey := by
    have hfirst := h.pending id hid
    rw [show (s.store id).key = (s.store id').key from hkey, h.pending id' hid'] at hfirst
    exact (Option.some.inj hfirst).symm
  unchecked := h.unchecked

theorem buried_of_placements_eq_nil (h : s.placements positionId = []) :
    s.Buried positionId where
  tombstoned id hid := absurd (h ▸ hid) List.not_mem_nil
  unique id hid := absurd (h ▸ hid) List.not_mem_nil
  unchecked entry hentry hplacement := by
    have hheld : s.phase.held = some (entry.1, entry.2) := by
      rw [LoopPhase.unchecked_eq_some.mp hentry]
      rfl
    have hmem := mem_placements.mpr ⟨mem_underway.mpr (Or.inr ⟨entry.2, hheld⟩), hplacement⟩
    exact absurd (h ▸ hmem) List.not_mem_nil

theorem calm_of_placements_eq_nil (h : s.placements positionId = []) : s.Calm positionId := by
  intro id hid
  rw [← Bool.not_eq_true]
  intro hplacement
  obtain ⟨key, hheld⟩ := LoopPhase.held_of_landing hid
  have hmem := mem_placements.mpr ⟨mem_underway.mpr (Or.inr ⟨key, hheld⟩), hplacement⟩
  exact absurd (h ▸ hmem) List.not_mem_nil

end Placements

/-! ## Steps of the loop -/

section Steps

variable {s t : QueueState} {positionId : String}

/-- Apart from emergency tasks nothing is added, and the placements keep their keys. -/
structure Keeps (s t : QueueState) : Prop where
  key : ∀ id < s.fresh, ∀ positionId, isPlacement positionId (s.store id) = true →
    (t.store id).key = (s.store id).key
  placement : ∀ id ∈ t.underway, ∀ positionId, isPlacement positionId (t.store id) = true →
    id ∈ s.underway ∧ isPlacement positionId (s.store id) = true

theorem Keeps.of_store (hstore : ∀ id, ∃ n, t.store id = { s.store id with retryCount := n })
    (hunderway : ∀ id ∈ t.underway, id ∈ s.underway) : Keeps s t where
  key id _ positionId _ := by
    obtain ⟨n, hn⟩ := hstore id
    rw [hn]
    rfl
  placement id hid positionId hplacement := by
    obtain ⟨n, hn⟩ := hstore id
    rw [hn] at hplacement
    exact ⟨hunderway id hid, hplacement⟩

theorem isPlacement_emergency (task : OrderTask) (h : task.action = .emergencyMarketClose) :
    isPlacement positionId task = false := by
  simp [isPlacement, placementActions, h]

theorem Keeps.enqueue_emergency {emergency : OrderTask} (hs : WellFormed s)
    (haction : emergency.action = .emergencyMarketClose)
    (hunderway : ∀ id ∈ t.underway, id ∈ (s.enqueue emergency).underway)
    (hstore : t.store = (s.enqueue emergency).store) : Keeps s t := by
  rcases enqueue_cases hs.keys_current emergency with ⟨k, i, -, h⟩ | ⟨-, h⟩
  · -- the task is folded into an emergency task that is pending already
    obtain ⟨new, hnew, -, -, hnewAction⟩ := h.store
    have hbefore : ∀ pid, isPlacement pid (s.store i) = false :=
      fun pid => isPlacement_emergency _ (h.action.trans haction)
    have hafter : ∀ pid, isPlacement pid new = false :=
      fun pid => isPlacement_emergency _ (hnewAction.trans haction)
    constructor
    · intro id _ pid hplacement
      have hi : id ≠ i := by
        rintro rfl
        rw [hbefore] at hplacement
        cases hplacement
      rw [hstore, hnew, Function.update_of_ne hi]
    · intro id hid pid hplacement
      rw [hstore, hnew] at hplacement
      have hi : id ≠ i := by
        rintro rfl
        rw [Function.update_self, hafter] at hplacement
        cases hplacement
      rw [Function.update_of_ne hi] at hplacement
      refine ⟨mem_underway.mpr ?_, hplacement⟩
      rw [← h.heap, ← h.phase]
      exact mem_underway.mp (hunderway id hid)
  · -- the task is a new object on the heap
    constructor
    · intro id hid pid _
      rw [hstore, h.store, Function.update_of_ne hid.ne]
    · intro id hid pid hplacement
      rw [hstore, h.store] at hplacement
      have hi : id ≠ s.fresh := by
        rintro rfl
        rw [Function.update_self, isPlacement_emergency _ haction] at hplacement
        cases hplacement
      rw [Function.update_of_ne hi] at hplacement
      refine ⟨mem_underway.mpr ?_, hplacement⟩
      rcases mem_underway.mp (hunderway id hid) with hheap | hheld
      · exact Or.inl ((List.mem_cons.mp (h.heap.mem_iff.mp hheap)).resolve_left hi)
      · exact Or.inr (h.phase ▸ hheld)

variable {a : QueueStep}

/-- **The loop adds no placement**, and changes none. -/
theorem keeps_of_step (hs : WellFormed s) (hloop : a.isLoop = true) (hstep : step s a = some t) :
    Keeps s t := by
  have hsame : ∀ id, ∃ n, s.store id = { s.store id with retryCount := n } :=
    fun id => ⟨(s.store id).retryCount, rfl⟩
  cases effect_of_step hstep with
  | enqueue task => exact absurd hloop (by simp [QueueStep.isLoop])
  | purge positionId actions => exact absurd hloop (by simp [QueueStep.isLoop])
  | move same held =>
    refine Keeps.of_store same.store fun id hid => mem_underway.mpr ?_
    rw [← same.heap, ← held]
    exact mem_underway.mp hid
  | take phase popped =>
    refine Keeps.of_store hsame fun id hid => mem_underway.mpr (Or.inl ?_)
    rcases mem_underway.mp hid with hheap | ⟨key, hheld⟩
    · exact (mem_of_pop _ popped).mpr (Or.inr hheap)
    · simp only [LoopPhase.held, Option.some.injEq, Prod.mk.injEq] at hheld
      exact (mem_of_pop _ popped).mpr (Or.inl hheld.1.symm)
  | drop phase hit =>
    refine Keeps.of_store hsame fun id hid => mem_underway.mpr (Or.inl ?_)
    exact (mem_underway.mp hid).resolve_right (by simp [LoopPhase.held])
  | pass phase miss =>
    refine Keeps.of_store hsame fun id hid => mem_underway.mpr ?_
    rw [phase]
    exact mem_underway.mp hid
  | execute phase live defaultId =>
    rename_i i k
    obtain ⟨hheap, -, hstore, -, -, hheld, -, -, -⟩ := beginExecution_spec s i k live defaultId
    refine Keeps.of_store (fun id => ⟨(s.store id).retryCount, by rw [hstore]⟩) fun j hj =>
      mem_underway.mpr ?_
    rw [← hheap, phase]
    refine (mem_underway.mp hj).imp_right fun h => ?_
    rw [hheld] at h
    exact h
  | putBack phase =>
    rename_i i k
    refine Keeps.of_store hsame fun id hid => mem_underway.mpr ?_
    rcases mem_underway.mp hid with hheap | ⟨key, hheld⟩
    · rcases (mem_push _).mp hheap with rfl | hheap
      · exact Or.inr ⟨k, by rcases phase with h | h <;> rw [h] <;> rfl⟩
      · exact Or.inl hheap
    · exact absurd hheld (by simp [LoopPhase.held])
  | escalate phase escalated =>
    refine Keeps.enqueue_emergency hs (escalationOf_action escalated) (fun j hj => ?_) rfl
    refine mem_underway.mpr ((mem_underway.mp hj).imp_right fun h => ?_)
    rw [phase_enqueue hs.keys_current, phase]
    exact h
  | finish phase =>
    refine Keeps.of_store hsame fun id hid => mem_underway.mpr (Or.inl ?_)
    exact (mem_underway.mp hid).resolve_right (by simp [LoopPhase.held])

theorem HeldKey.step (hs : WellFormed s) (h : HeldKey s) (hstep : step s a = some t) :
    HeldKey t := by
  have henqueue : ∀ task, ∀ i key, s.phase.held = some (i, key) →
      ((s.enqueue task).store i).positionId = (s.store i).positionId ∧
        ((s.enqueue task).store i).action = (s.store i).action := by
    intro task i key hheld
    rcases enqueue_cases hs.keys_current task with ⟨k, j, -, hc⟩ | ⟨-, hq⟩
    · obtain ⟨new, hnew, -, hposition, haction⟩ := hc.store
      rw [hnew]
      by_cases hij : i = j
      · subst hij
        rw [Function.update_self]
        exact ⟨hposition.trans hc.position.symm, haction.trans hc.action.symm⟩
      · rw [Function.update_of_ne hij]
        exact ⟨rfl, rfl⟩
    · rw [hq.store, Function.update_of_ne (hs.held_fresh i key hheld).ne]
      exact ⟨rfl, rfl⟩
  cases effect_of_step hstep with
  | enqueue task =>
    intro i key hheld
    rw [phase_enqueue hs.keys_current] at hheld
    obtain ⟨hposition, haction⟩ := henqueue task i key hheld
    rw [hposition, haction]
    exact h i key hheld
  | purge positionId actions => exact h
  | move same held =>
    intro i key hheld
    obtain ⟨n, hn⟩ := same.store i
    rw [hn]
    exact h i key (held ▸ hheld)
  | take phase popped =>
    intro i key hheld
    obtain ⟨rfl, rfl⟩ := hheld
    exact ⟨rfl, rfl⟩
  | drop phase hit => exact fun i key hheld => absurd hheld (by simp [LoopPhase.held])
  | pass phase miss => exact fun i key hheld => h i key (by rw [phase]; exact hheld)
  | execute phase live defaultId =>
    rename_i j k
    obtain ⟨-, -, hstore, -, -, hheld', -, -, -⟩ := beginExecution_spec s j k live defaultId
    intro i key hheld
    rw [hstore]
    refine h i key ?_
    rw [phase]
    exact hheld'.symm.trans hheld
  | putBack phase => exact fun i key hheld => absurd hheld (by simp [LoopPhase.held])
  | escalate phase escalated =>
    rename_i j k error emergency now
    intro i key hheld
    have hheld' : s.phase.held = some (i, key) := by
      rw [phase]
      exact hheld
    obtain ⟨hposition, haction⟩ := henqueue emergency i key hheld'
    rw [hposition, haction]
    exact h i key hheld'
  | finish phase => exact fun i key hheld => absurd hheld (by simp [LoopPhase.held])

theorem heldKey_of_run {as : List QueueStep} (h : run initial as = some s) : HeldKey s := by
  have hboth : WellFormed s ∧ HeldKey s :=
    StepSystem.run_invariant QueueState.step (I := fun s => WellFormed s ∧ HeldKey s)
      (fun _ _ _ hs hstep => ⟨(effect_of_step hstep).wellFormed hs.1, hs.2.step hs.1 hstep⟩)
      ⟨wellFormed_initial, fun _ _ hheld => absurd hheld (by simp [initial, LoopPhase.held])⟩ h
  exact hboth.2

theorem isPlacement_of_key {task : OrderTask} {key : TaskKey}
    (hposition : key.positionId = task.positionId) (haction : key.action = task.action)
    {other : OrderTask} (hkey : other.key = key) (hother : isPlacement positionId other = true) :
    isPlacement positionId task = true := by
  obtain ⟨hpid, hact⟩ := isPlacement_iff.mp hother
  refine isPlacement_iff.mpr ⟨?_, ?_⟩
  · rw [← hposition, ← hkey]
    exact hpid
  · rw [← haction, ← hkey]
    exact hact

/-- **Buried placements stay buried.** -/
theorem Buried.step (hs : WellFormed s) (hkey : HeldKey s) (h : s.Buried positionId)
    (hloop : a.isLoop = true) (hstep : step s a = some t) : t.Buried positionId := by
  have hkeeps := keeps_of_step hs hloop hstep
  -- the placements of `t` are placements of `s`, under the same keys
  have hback : ∀ id ∈ t.placements positionId,
      id ∈ s.placements positionId ∧ (t.store id).key = (s.store id).key := by
    intro id hid
    obtain ⟨hunderway, hplacement⟩ := mem_placements.mp hid
    obtain ⟨hunderway', hplacement'⟩ := hkeeps.placement id hunderway positionId hplacement
    exact ⟨mem_placements.mpr ⟨hunderway', hplacement'⟩,
      hkeeps.key id (hs.underway_fresh hunderway') positionId hplacement'⟩
  have hunique : ∀ id ∈ t.placements positionId, ∀ id' ∈ t.placements positionId,
      (t.store id).key = (t.store id').key → id = id' := by
    intro id hid id' hid' hsame
    obtain ⟨hold, hk⟩ := hback id hid
    obtain ⟨hold', hk'⟩ := hback id' hid'
    exact h.unique id hold id' hold' (hk ▸ hk' ▸ hsame)
  -- the tombstones are the same, and nothing new is about to be checked
  have hkeep : t.tombstoned = s.tombstoned → (∀ entry ∈ t.phase.unchecked,
        isPlacement positionId (t.store entry.1) = true → entry.2 = (t.store entry.1).key) →
      t.Buried positionId := by
    intro htombs hunchecked
    refine ⟨fun id hid => ?_, hunique, hunchecked⟩
    obtain ⟨hold, hk⟩ := hback id hid
    rw [hk, htombs]
    exact h.tombstoned id hold
  cases effect_of_step hstep with
  | enqueue task => exact absurd hloop (by simp [QueueStep.isLoop])
  | purge positionId actions => exact absurd hloop (by simp [QueueStep.isLoop])
  | move same held _ _ unchecked _ =>
    refine hkeep same.tombstoned fun entry hentry hplacement => ?_
    have hold : s.phase.unchecked = some entry :=
      LoopPhase.unchecked_eq_some.mpr
        ((unchecked entry.1 entry.2).mp (LoopPhase.unchecked_eq_some.mp hentry))
    obtain ⟨n, hn⟩ := same.store entry.1
    rw [hn] at hplacement ⊢
    exact h.unchecked entry hold hplacement
  | take phase popped =>
    refine hkeep rfl fun entry hentry _ => ?_
    simp only [LoopPhase.unchecked, Option.mem_def, Option.some.injEq] at hentry
    rw [← hentry]
  | drop phase hit =>
    rename_i i k
    refine ⟨fun id hid => ?_, hunique,
      fun entry hentry => absurd hentry (by simp [LoopPhase.unchecked])⟩
    obtain ⟨hold, -⟩ := hback id hid
    have hheap : id ∈ s.heap :=
      (mem_underway.mp (mem_placements.mp hid).1).resolve_right (by simp [LoopPhase.held])
    refine Finset.mem_erase.mpr ⟨fun hsame => ?_, h.tombstoned id hold⟩
    -- the dropped task would be a placement with the same key
    have hheld : s.phase.held = some (i, k) := by
      rw [phase]
      rfl
    obtain ⟨hposition, haction⟩ := hkey i k hheld
    have hplacement := isPlacement_of_key hposition haction hsame (mem_placements.mp hold).2
    have hk : k = (s.store i).key := h.unchecked (i, k) (by rw [phase]; rfl) hplacement
    have hi : i ∈ s.placements positionId :=
      mem_placements.mpr ⟨mem_underway.mpr (Or.inr ⟨k, hheld⟩), hplacement⟩
    have : id = i := h.unique id hold i hi (hsame.trans hk)
    exact hs.held_not_heap i k hheld (this ▸ hheap)
  | pass phase miss =>
    exact hkeep rfl fun entry hentry => absurd hentry (by simp [LoopPhase.unchecked])
  | execute phase live defaultId =>
    rename_i i k
    obtain ⟨-, -, -, -, htombs, -, -, -, -⟩ := beginExecution_spec s i k live defaultId
    refine hkeep htombs fun entry hentry => absurd hentry ?_
    have hstarted := (beginExecution_spec s i k live defaultId).2.2.2.2.2.2.1
    cases hphase : (s.beginExecution i k live defaultId).phase <;>
      simp_all [LoopPhase.unchecked, LoopPhase.callStarted]
  | putBack phase =>
    exact hkeep rfl fun entry hentry => absurd hentry (by simp [LoopPhase.unchecked])
  | escalate phase escalated =>
    rename_i i k error emergency now
    exact hkeep (tombstoned_enqueue hs.keys_current emergency) fun entry hentry =>
      absurd hentry (by simp [LoopPhase.unchecked])
  | finish phase =>
    exact hkeep rfl fun entry hentry => absurd hentry (by simp [LoopPhase.unchecked])

theorem landing_of_step {id : TaskId} (hstep : step s a = some t) (hs : WellFormed s)
    (h : t.phase.landing = some id) :
    s.phase.landing = some id ∨ ∃ key, s.phase = .dequeued id key ∧ key ∉ s.tombstoned := by
  cases effect_of_step hstep with
  | enqueue task =>
    rw [phase_enqueue hs.keys_current] at h
    exact Or.inl h
  | purge positionId actions => exact Or.inl h
  | move _ _ _ _ _ landing => exact Or.inl (landing id h)
  | pass phase miss =>
    obtain rfl := Option.some.inj h
    exact Or.inr ⟨_, phase, miss⟩
  | execute phase live defaultId =>
    rename_i i key
    refine Or.inl ?_
    obtain ⟨k, hheld⟩ := LoopPhase.held_of_landing h
    obtain ⟨-, -, -, -, -, hheld', -⟩ := beginExecution_spec s i key live defaultId
    rw [hheld', Option.some.injEq, Prod.mk.injEq] at hheld
    rw [phase, ← hheld.1]
    rfl
  | take | drop | putBack | escalate | finish =>
    -- nothing is past the check behind these
    exact absurd h (by simp [LoopPhase.landing])

/-- **A calm loop with buried placements stays calm.** -/
theorem Calm.step (hs : WellFormed s) (hb : s.Buried positionId) (h : s.Calm positionId)
    (hloop : a.isLoop = true) (hstep : step s a = some t) : t.Calm positionId := by
  intro id hid
  rw [← Bool.not_eq_true]
  intro hplacement
  obtain ⟨key, hheld⟩ := LoopPhase.held_of_landing hid
  have hplaced := (keeps_of_step hs hloop hstep).placement id
    (mem_underway.mpr (Or.inr ⟨key, hheld⟩)) positionId hplacement
  rcases landing_of_step hstep hs hid with hold | ⟨key', hphase, hmiss⟩
  · exact absurd hplaced.2 (by rw [h id hold]; simp)
  · have hk : key' = (s.store id).key :=
      hb.unchecked (id, key') (by rw [hphase]; rfl) hplaced.2
    exact hmiss (hk ▸ hb.tombstoned id (mem_placements.mpr hplaced))

end Steps

end QueueState
end AdviserConstructor
