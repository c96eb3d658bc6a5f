import AdviserConstructor.Library.LoopTurns

/-!
# A gate in front of a single slot

A machine with one slot takes in at most one holder at a time; a memory says what a free slot takes
in with an item.  The holder leaves with an output, which is logged.  A gate may refuse a holder:
the gated machine then stays free, and may take in another one with the next item.  Filtering the
log of the machine by the gate is something else: a holder that the gate would have refused has kept
others out, and has left its trace in the memory.

The memory of the gated machine can be followed beside the machine, as long as both take in the
same.

* `shadow_follow`: as long as they do, the gated machine is the shadow of the machine: it holds what
  the gate lets in of what the machine holds, and has logged what the filter leaves.
* `slots_gated_iff`: both slots agree in this way throughout exactly if every item finds the
  machines taking in the same.
* `slots_loop_iff`, `log_loop_of_agrees`: the same of loops that are the machines, through a view of
  their states.
-/

namespace AdviserConstructor

namespace SlotRuns

open LoopTurns

variable {ι M P T : Type*}

/-- A machine with one slot. -/
structure Machine (ι M P T : Type*) where
  /-- the holder that a free slot takes in with an item, and the memory behind it -/
  enter : M → ι → Option (P × M)
  /-- the memory behind an item with which a free slot takes in nobody -/
  pass : M → ι → M
  /-- what an item makes of the holder: it stays, or it leaves with an output -/
  serve : P → ι → P ⊕ T

/-- The state of a run. -/
structure Run (M P T : Type*) where
  memory : M
  slot : Option P
  log : List T

namespace Machine

variable (m : Machine ι M P T) (gate : P → Bool)

/-- The memory behind an item that a free slot has seen. -/
def memoryAfter (memory : M) (i : ι) : M :=
  ((m.enter memory i).map Prod.snd).getD (m.pass memory i)

def step (r : Run M P T) (i : ι) : Run M P T :=
  match r.slot with
  | none => { r with memory := m.memoryAfter r.memory i, slot := (m.enter r.memory i).map Prod.fst }
  | some p =>
      match m.serve p i with
      | .inl p => { r with slot := some p }
      | .inr t => { r with slot := none, log := r.log ++ [t] }

def gated : Machine ι M P T :=
  { m with enter := fun memory i => (m.enter memory i).filter fun x => gate x.1 }

/-- Whom the machine takes in with an item. -/
def taken (r : Run M P T) (i : ι) : Option P :=
  match r.slot with
  | none => (m.enter r.memory i).map Prod.fst
  | some _ => none

end Machine

/-- A run, and the memory that the gated machine would have. -/
structure Followed (M P T : Type*) where
  run : Run M P T
  memory : M

/-- What is left of a run behind the gate: `keep` says of an output whether its holder was let
in. -/
def Followed.shadow (gate : P → Bool) (keep : T → Bool) (s : Followed M P T) : Run M P T where
  memory := s.memory
  slot := s.run.slot.filter gate
  log := s.run.log.filter keep

namespace Machine

variable (m : Machine ι M P T) (gate : P → Bool)

/-- One item of the run and of the memory of the gated machine. -/
def follow (s : Followed M P T) (i : ι) : Followed M P T where
  run := m.step s.run i
  memory :=
    match s.run.slot.filter gate with
    | some _ => s.memory
    | none => (m.gated gate).memoryAfter s.memory i

/-- With an item that finds the gated machine free, it takes in just whom the gate lets in of what
the machine takes in. -/
def Agrees (s : Followed M P T) (i : ι) : Prop :=
  s.run.slot.filter gate = none →
    ((m.gated gate).enter s.memory i).map Prod.fst = (m.taken s.run i).filter gate

/-- The gate looks at nothing that an item makes of a holder, and an output shows whether its holder
was let in. -/
structure Respects (keep : T → Bool) : Prop where
  stays : ∀ p i p', m.serve p i = .inl p' → gate p' = gate p
  leaves : ∀ p i t, m.serve p i = .inr t → keep t = gate p

theorem respects_of_exit {m : Machine ι M P T} {gate : P → Bool} {keep : T → Bool} {ε : Type*}
    {exit : P → ι → Option ε} {out : P → ι → ε → T}
    (hserve : ∀ p i, m.serve p i = (exit p i).elim (.inl p) fun x => .inr (out p i x))
    (hout : ∀ p i x, keep (out p i x) = gate p) : m.Respects gate keep := by
  constructor
  · intro p i p' h
    rw [hserve] at h
    cases hexit : exit p i with
    | none =>
      rw [hexit] at h
      rw [← Sum.inl.inj h]
    | some x =>
      rw [hexit] at h
      cases h
  · intro p i t h
    rw [hserve] at h
    cases hexit : exit p i with
    | none =>
      rw [hexit] at h
      cases h
    | some x =>
      rw [hexit] at h
      rw [← Sum.inr.inj h, hout]

section

variable {m gate} {keep : T → Bool} {r : Run M P T} {s : Followed M P T} {i : ι} {p : P}

/-! ## One item -/

theorem step_of_free (h : r.slot = none) :
    m.step r i =
      { r with memory := m.memoryAfter r.memory i, slot := (m.enter r.memory i).map Prod.fst } := by
  rw [step, h]

theorem step_of_enters {memory next : M} {log : List T}
    (henter : m.enter memory i = some (p, next)) :
    m.step { memory := memory, slot := none, log := log } i =
      { memory := next, slot := some p, log := log } := by
  rw [step_of_free rfl, memoryAfter, henter]
  rfl

theorem step_of_passes {memory : M} {log : List T} (henter : m.enter memory i = none) :
    m.step { memory := memory, slot := none, log := log } i =
      { memory := m.pass memory i, slot := none, log := log } := by
  rw [step_of_free rfl, memoryAfter, henter]
  rfl

theorem step_of_stays {p' : P} (h : r.slot = some p) (hserve : m.serve p i = .inl p') :
    m.step r i = { r with slot := some p' } := by
  rw [step, h]
  dsimp only
  rw [hserve]

theorem step_of_leaves {t : T} (h : r.slot = some p) (hserve : m.serve p i = .inr t) :
    m.step r i = { r with slot := none, log := r.log ++ [t] } := by
  rw [step, h]
  dsimp only
  rw [hserve]

theorem enter_gated_of_none {memory : M} (henter : m.enter memory i = none) :
    (m.gated gate).enter memory i = none := by
  show (m.enter memory i).filter _ = none
  rw [henter]
  rfl

theorem enter_gated_of_let_in {memory next : M} (henter : m.enter memory i = some (p, next))
    (hgate : gate p = true) : (m.gated gate).enter memory i = some (p, next) := by
  show (m.enter memory i).filter _ = _
  rw [henter]
  exact if_pos hgate

theorem enter_gated_of_refused {memory next : M} (henter : m.enter memory i = some (p, next))
    (hgate : ¬gate p = true) : (m.gated gate).enter memory i = none := by
  show (m.enter memory i).filter _ = _
  rw [henter]
  exact if_neg hgate

theorem taken_of_free (h : r.slot = none) : m.taken r i = (m.enter r.memory i).map Prod.fst := by
  rw [taken, h]

theorem taken_of_held (h : r.slot = some p) : m.taken r i = none := by
  rw [taken, h]

theorem slot_step_of_refused (h : m.Respects gate keep) (hslot : r.slot.filter gate = none) :
    (m.step r i).slot.filter gate = (m.taken r i).filter gate := by
  cases hheld : r.slot with
  | none => rw [step_of_free hheld, taken_of_free hheld]
  | some p =>
    rw [hheld, Option.filter_eq_none_iff] at hslot
    rw [taken_of_held hheld]
    cases hserve : m.serve p i with
    | inl p' =>
      rw [step_of_stays hheld hserve]
      refine Option.filter_eq_none_iff.mpr fun q hq => ?_
      rw [← Option.some_inj.mp hq, h.stays p i p' hserve]
      exact hslot p rfl
    | inr t => rw [step_of_leaves hheld hserve]

theorem log_step_of_refused (h : m.Respects gate keep) (hslot : r.slot.filter gate = none) :
    (m.step r i).log.filter keep = r.log.filter keep := by
  cases hheld : r.slot with
  | none => rw [step_of_free hheld]
  | some p =>
    rw [hheld, Option.filter_eq_none_iff] at hslot
    cases hserve : m.serve p i with
    | inl p' => rw [step_of_stays hheld hserve]
    | inr t =>
      have hkeep : ¬keep t = true := by
        rw [h.leaves p i t hserve]
        exact hslot p rfl
      rw [step_of_leaves hheld hserve, List.filter_append, List.filter_cons_of_neg hkeep,
        List.filter_nil, List.append_nil]

theorem step_shadow_of_let_in (h : m.Respects gate keep) (hslot : s.run.slot = some p)
    (hgate : gate p = true) :
    (m.gated gate).step (s.shadow gate keep) i = (m.follow gate s i).shadow gate keep := by
  have hheld : (s.shadow gate keep).slot = some p := by
    show s.run.slot.filter gate = some p
    rw [hslot, Option.filter_some, if_pos hgate]
  have hmemory : (m.follow gate s i).memory = s.memory := by
    rw [follow, hslot, Option.filter_some, if_pos hgate]
  cases hserve : m.serve p i with
  | inl p' =>
    have hgate' : gate p' = true := (h.stays p i p' hserve).trans hgate
    rw [@step_of_stays _ _ _ _ (m.gated gate) _ _ _ _ hheld hserve]
    show _ = Run.mk (m.follow gate s i).memory ((m.step s.run i).slot.filter gate)
      ((m.step s.run i).log.filter keep)
    rw [hmemory, step_of_stays hslot hserve, Option.filter_some, if_pos hgate']
    rfl
  | inr t =>
    have hkeep : keep t = true := (h.leaves p i t hserve).trans hgate
    rw [@step_of_leaves _ _ _ _ (m.gated gate) _ _ _ _ hheld hserve]
    show _ = Run.mk (m.follow gate s i).memory ((m.step s.run i).slot.filter gate)
      ((m.step s.run i).log.filter keep)
    rw [hmemory, step_of_leaves hslot hserve, List.filter_append, List.filter_cons_of_pos hkeep]
    rfl

/-- **One item**: the slot of the gated machine agrees with the slot of the machine behind it
exactly if the two take in the same with it. -/
theorem slot_step_shadow_iff (h : m.Respects gate keep) :
    ((m.gated gate).step (s.shadow gate keep) i).slot = (m.step s.run i).slot.filter gate ↔
      m.Agrees gate s i := by
  cases hslot : s.run.slot.filter gate with
  | none =>
    rw [slot_step_of_refused h hslot, @step_of_free _ _ _ _ (m.gated gate) (s.shadow gate keep) i
      hslot]
    exact ⟨fun heq _ => heq, fun hagree => hagree hslot⟩
  | some p =>
    obtain ⟨hheld, hgate⟩ := Option.filter_eq_some_iff.mp hslot
    rw [step_shadow_of_let_in h hheld hgate]
    exact iff_of_true rfl fun hnone => absurd (hslot.symm.trans hnone) (Option.some_ne_none p)

theorem step_shadow (h : m.Respects gate keep) (hagree : m.Agrees gate s i) :
    (m.gated gate).step (s.shadow gate keep) i = (m.follow gate s i).shadow gate keep := by
  cases hslot : s.run.slot.filter gate with
  | none =>
    have hmemory : (m.follow gate s i).memory = (m.gated gate).memoryAfter s.memory i := by
      rw [follow, hslot]
    rw [@step_of_free _ _ _ _ (m.gated gate) (s.shadow gate keep) i hslot]
    show Run.mk _ (((m.gated gate).enter s.memory i).map Prod.fst) (s.run.log.filter keep) =
      Run.mk (m.follow gate s i).memory ((m.step s.run i).slot.filter gate)
        ((m.step s.run i).log.filter keep)
    rw [hmemory, hagree hslot, slot_step_of_refused h hslot, log_step_of_refused h hslot]
    rfl
  | some p =>
    obtain ⟨hheld, hgate⟩ := Option.filter_eq_some_iff.mp hslot
    exact step_shadow_of_let_in h hheld hgate

/-! ## A run -/

/-- **As long as the two take in the same**, the gated machine is the shadow of the machine. -/
theorem shadow_follow (h : m.Respects gate keep) (items : List ι) (s : Followed M P T)
    (hagree : ∀ v ∈ turns (m.follow gate) s items, m.Agrees gate v.1 v.2) :
    items.foldl (m.gated gate).step (s.shadow gate keep) =
      (items.foldl (m.follow gate) s).shadow gate keep := by
  induction items generalizing s with
  | nil => rfl
  | cons i items ih =>
    rw [List.foldl_cons, step_shadow h (hagree (s, i) List.mem_cons_self)]
    exact ih _ fun v hv => hagree v (List.mem_cons_of_mem _ hv)

theorem run_follow (items : List ι) (s : Followed M P T) :
    (items.foldl (m.follow gate) s).run = items.foldl m.step s.run :=
  (List.foldl_hom Followed.run fun _ _ => rfl).symm

/-- **The slots agree throughout** exactly if every item finds both machines taking in the same. -/
theorem slots_gated_iff (h : m.Respects gate keep) (items : List ι) (s : Followed M P T) :
    (items.scanl (m.gated gate).step (s.shadow gate keep)).map Run.slot =
        (items.scanl m.step s.run).map (fun r => r.slot.filter gate) ↔
      ∀ v ∈ turns (m.follow gate) s items, m.Agrees gate v.1 v.2 := by
  induction items generalizing s with
  | nil => exact iff_of_true rfl fun v hv => absurd hv List.not_mem_nil
  | cons i items ih =>
    rw [List.scanl_cons, List.scanl_cons, List.map_cons, turns, List.forall_mem_cons, ← ih]
    constructor
    · intro heq
      have htail := (List.cons_eq_cons.mp heq).2
      have hagree : m.Agrees gate s i := by
        have hhead := congrArg List.head? htail
        rw [List.head?_map, List.head?_map, List.head?_scanl, List.head?_scanl] at hhead
        exact (slot_step_shadow_iff h).mp (Option.some_inj.mp hhead)
      rw [step_shadow h hagree] at htail
      exact ⟨hagree, htail⟩
    · rintro ⟨hagree, htail⟩
      rw [step_shadow h hagree]
      exact congrArg (_ :: ·) htail

end

end Machine

/-! ## Loops that are machines -/

/-- A loop that is, seen through `view`, a run of the machine. -/
def Machine.Models {σ : Type*} (m : Machine ι M P T) (view : σ → Run M P T) (body : σ → ι → σ) :
    Prop := ∀ s i, view (body s i) = m.step (view s) i

/-- The state of a run that has seen nothing, and the memory of the gated machine. -/
def Followed.start (memory : M) : Followed M P T where
  run := { memory := memory, slot := none, log := [] }
  memory := memory

/-- Every item of a run finds the machine and the gated one taking in the same. -/
def Machine.AgreesThroughout (m : Machine ι M P T) (gate : P → Bool) (memory : M)
    (items : List ι) : Prop :=
  ∀ v ∈ turns (m.follow gate) (Followed.start memory) items, m.Agrees gate v.1 v.2

section

variable {σ : Type*} {m : Machine ι M P T} {gate : P → Bool} {keep : T → Bool}
  {view : σ → Run M P T} {body body' : σ → ι → σ} {s : σ} {memory : M}

theorem map_scanl_of_models (h : m.Models view body) (items : List ι) (s : σ) :
    (items.scanl body s).map view = items.scanl m.step (view s) := by
  induction items generalizing s with
  | nil => rw [List.scanl_nil, List.scanl_nil, List.map_singleton]
  | cons i items ih => rw [List.scanl_cons, List.scanl_cons, List.map_cons, ih, h s i]

variable (hrespects : m.Respects gate keep) (hbody : m.Models view body)
  (hgated : (m.gated gate).Models view body')
  (hstart : view s = { memory := memory, slot := none, log := [] })

include hrespects hbody hgated hstart

/-- **The slots of a loop and of the gated loop** agree throughout exactly if every item finds both
taking in the same. -/
theorem slots_loop_iff (items : List ι) :
    (items.scanl body' s).map (fun t => (view t).slot) =
        (items.scanl body s).map (fun t => (view t).slot.filter gate) ↔
      m.AgreesThroughout gate memory items := by
  have hslots := @Machine.slots_gated_iff _ _ _ _ m gate keep hrespects items
    (Followed.start memory)
  have hshadow : (Followed.start (P := P) (T := T) memory).shadow gate keep = view s := hstart.symm
  have hrun : (Followed.start (P := P) (T := T) memory).run = view s := hstart.symm
  rw [hshadow, hrun, ← map_scanl_of_models hbody, ← map_scanl_of_models hgated, List.map_map,
    List.map_map] at hslots
  exact hslots

/-- **Then the log of the gated loop** is what the filter leaves of the log of the loop. -/
theorem log_loop_of_agrees {items : List ι} (hagree : m.AgreesThroughout gate memory items) :
    (view (items.foldl body' s)).log = (view (items.foldl body s)).log.filter keep := by
  have hfollow := Machine.shadow_follow hrespects items (Followed.start memory) hagree
  have hshadow : (Followed.start (P := P) (T := T) memory).shadow gate keep = view s := hstart.symm
  have hrun : (Followed.start (P := P) (T := T) memory).run = view s := hstart.symm
  rw [hshadow] at hfollow
  rw [← List.foldl_hom view fun t i => (hgated t i).symm, hfollow]
  show (items.foldl (m.follow gate) (Followed.start memory)).run.log.filter keep = _
  rw [Machine.run_follow, hrun, List.foldl_hom view fun t i => (hbody t i).symm]

end

end SlotRuns

end AdviserConstructor
