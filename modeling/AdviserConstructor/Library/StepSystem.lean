import Mathlib.Data.List.Basic

/-!
# Runs of a labelled step function

A system is a partial step function `step : σ → α → Option σ`: the label `α` says which
party moves and with which input, and `none` says the move is not enabled.  A run is a list
of labels.  Interleavings need no scheduler of their own here, because a list of labels of
several parties *is* an interleaving.

Two ways of speaking about a run are used downstream.

* `run` folds the step function over the labels, and `run_invariant` carries an invariant
  along it.
* `AlongRun P` says that every step the run takes satisfies `P` in the state before it.
  `invariant_of_alongRun` is the induction rule for a property that only holds of the runs
  whose steps all meet such a condition.

Since the labels of a run are an arbitrary list, a statement about the last state of every
run is a statement about every state reached; `forall_prefix_iff_alongRun` says so for a property
of states and a condition on steps, and `stable_iff_alongRun` for a property that is not to be lost
again.
-/

namespace StepSystem

variable {σ α : Type*} (step : σ → α → Option σ)

/-! ## Runs -/

/-- The state after the labels `as`, if every one of them is enabled when its turn comes. -/
def run : σ → List α → Option σ
  | s, [] => some s
  | s, a :: as =>
      match step s a with
      | none => none
      | some s' => run s' as

@[simp] theorem run_nil (s : σ) : run step s [] = some s := rfl

theorem run_cons (s : σ) (a : α) (as : List α) :
    run step s (a :: as) = (step s a).bind fun s' => run step s' as := by
  simp only [run]
  cases step s a <;> rfl

theorem run_cons_eq_some {s t : σ} {a : α} {as : List α} :
    run step s (a :: as) = some t ↔ ∃ s', step s a = some s' ∧ run step s' as = some t := by
  rw [run_cons, Option.bind_eq_some_iff]

theorem run_append (s : σ) (as bs : List α) :
    run step s (as ++ bs) = (run step s as).bind fun s' => run step s' bs := by
  induction as generalizing s with
  | nil => rfl
  | cons a as ih =>
    rw [List.cons_append, run_cons, run_cons]
    cases step s a with
    | none => rfl
    | some s' => exact ih s'

theorem run_concat_eq_some {s t : σ} {as : List α} {a : α} :
    run step s (as ++ [a]) = some t ↔ ∃ u, run step s as = some u ∧ step u a = some t := by
  rw [run_append, Option.bind_eq_some_iff]
  simp only [run_cons_eq_some, run_nil, Option.some.injEq, exists_eq_right]

theorem exists_run_of_total (htotal : ∀ s a, ∃ s', step s a = some s') (s : σ) (as : List α) :
    ∃ t, run step s as = some t := by
  induction as generalizing s with
  | nil => exact ⟨s, rfl⟩
  | cons a as ih =>
    obtain ⟨s', hs⟩ := htotal s a
    obtain ⟨t, ht⟩ := ih s'
    exact ⟨t, (run_cons_eq_some step).mpr ⟨s', hs, ht⟩⟩

/-! ## Conditions on the steps of a run -/

/-- Every step that the run takes satisfies `P`, read in the state before the step. -/
def AlongRun (P : σ → α → Prop) : σ → List α → Prop
  | _, [] => True
  | s, a :: as =>
      P s a ∧
        match step s a with
        | none => True
        | some s' => AlongRun P s' as

theorem alongRun_cons {P : σ → α → Prop} {s s' : σ} {a : α} {as : List α}
    (hs : step s a = some s') :
    AlongRun step P s (a :: as) ↔ P s a ∧ AlongRun step P s' as := by
  rw [AlongRun, hs]

instance decidableAlongRun (P : σ → α → Prop) [∀ s a, Decidable (P s a)] :
    ∀ s as, Decidable (AlongRun step P s as)
  | _, [] => .isTrue trivial
  | s, a :: as =>
      match hs : step s a with
      | none => decidable_of_iff (P s a) (by rw [AlongRun, hs]; simp)
      | some s' =>
          haveI := decidableAlongRun P s' as
          decidable_of_iff (P s a ∧ AlongRun step P s' as) (by rw [AlongRun, hs])

theorem AlongRun.mono {P Q : σ → α → Prop} (hPQ : ∀ s a, P s a → Q s a) :
    ∀ {s : σ} {as : List α}, AlongRun step P s as → AlongRun step Q s as
  | _, [], _ => trivial
  | s, a :: as, h => by
    rw [AlongRun] at h ⊢
    refine ⟨hPQ s a h.1, ?_⟩
    cases hs : step s a with
    | none => trivial
    | some s' =>
      rw [hs] at h
      exact AlongRun.mono hPQ h.2

theorem alongRun_of_forall {p : α → Prop} :
    ∀ {s : σ} {as : List α}, (∀ a ∈ as, p a) → AlongRun step (fun _ a => p a) s as
  | _, [], _ => trivial
  | s, a :: as, h => by
    rw [AlongRun]
    refine ⟨h a (List.mem_cons_self ..), ?_⟩
    cases step s a with
    | none => trivial
    | some s' => exact alongRun_of_forall fun b hb => h b (List.mem_cons_of_mem _ hb)

theorem AlongRun.and {P Q : σ → α → Prop} :
    ∀ {s : σ} {as : List α}, AlongRun step P s as → AlongRun step Q s as →
      AlongRun step (fun s a => P s a ∧ Q s a) s as
  | _, [], _, _ => trivial
  | s, a :: as, hP, hQ => by
    rw [AlongRun] at hP hQ ⊢
    refine ⟨⟨hP.1, hQ.1⟩, ?_⟩
    cases hs : step s a with
    | none => trivial
    | some s' =>
      rw [hs] at hP hQ
      exact AlongRun.and hP.2 hQ.2

/-! ## Invariants -/

/-- **Invariants of guarded runs.**  A property that every step meeting the condition `P`
preserves holds at the end of every run whose steps all meet `P`. -/
theorem invariant_of_alongRun {P : σ → α → Prop} {I : σ → Prop}
    (hstep : ∀ s a s', I s → P s a → step s a = some s' → I s') :
    ∀ {s t : σ} {as : List α}, I s → AlongRun step P s as → run step s as = some t → I t
  | s, t, [], hI, _, hrun => by
    rw [run_nil, Option.some_inj] at hrun
    exact hrun ▸ hI
  | s, t, a :: as, hI, hP, hrun => by
    obtain ⟨s', hs, hrun'⟩ := (run_cons_eq_some step).mp hrun
    rw [alongRun_cons step hs] at hP
    exact invariant_of_alongRun hstep (hstep s a s' hI hP.1 hs) hP.2 hrun'

/-- **Invariants of runs.**  A property that every step preserves holds at the end of every
run that starts with it. -/
theorem run_invariant {I : σ → Prop}
    (hstep : ∀ s a s', I s → step s a = some s' → I s')
    {s t : σ} {as : List α} (hI : I s) (hrun : run step s as = some t) : I t :=
  invariant_of_alongRun step (P := fun _ _ => True) (fun s a s' hs _ => hstep s a s' hs) hI
    (alongRun_of_forall step (p := fun _ => True) fun _ _ => trivial) hrun

/-- **Conditions that an invariant makes hold.**  Where every guarded step preserves `I`, and `I`
makes a guarded step meet `Q`, every step of a guarded run meets `Q`. -/
theorem AlongRun.of_invariant {P Q : σ → α → Prop} {I : σ → Prop}
    (hstep : ∀ s a s', I s → P s a → step s a = some s' → I s')
    (hQ : ∀ s a, I s → P s a → Q s a) :
    ∀ {s : σ} {as : List α}, I s → AlongRun step P s as → AlongRun step Q s as
  | _, [], _, _ => trivial
  | s, a :: as, hI, hP => by
    rw [AlongRun] at hP ⊢
    refine ⟨hQ s a hI hP.1, ?_⟩
    cases hs : step s a with
    | none => trivial
    | some s' =>
      rw [hs] at hP
      exact AlongRun.of_invariant hstep hQ (hstep s a s' hI hP.1 hs) hP.2

/-! ## Properties of every state of a run -/

/-- Every state that a run reaches has the property, the first one and the one behind each of its
steps. -/
theorem forall_prefix_iff_alongRun {G : σ → Prop} {s : σ} {as : List α} :
    (∀ bs u, bs <+: as → run step s bs = some u → G u) ↔
      G s ∧ AlongRun step (fun s a => ∀ s', step s a = some s' → G s') s as := by
  induction as generalizing s with
  | nil =>
    constructor
    · intro h
      exact ⟨h [] s (List.prefix_refl _) rfl, trivial⟩
    · rintro ⟨hs, -⟩ bs u hprefix hrun
      obtain rfl := List.prefix_nil.mp hprefix
      exact Option.some.inj hrun ▸ hs
  | cons a as ih =>
    constructor
    · intro h
      refine ⟨h [] s (List.nil_prefix ..) rfl, ?_⟩
      refine ⟨fun s' hs => h [a] s' ?_ ?_, ?_⟩
      · exact List.cons_prefix_cons.mpr ⟨rfl, List.nil_prefix ..⟩
      · rw [run_cons, hs]
        rfl
      · cases hs : step s a with
        | none => trivial
        | some s' =>
          refine (ih.mp fun bs u hprefix hrun => ?_).2
          refine h (a :: bs) u (List.cons_prefix_cons.mpr ⟨rfl, hprefix⟩) ?_
          rw [run_cons, hs]
          exact hrun
    · rintro ⟨hs, halong⟩ bs u hprefix hrun
      cases bs with
      | nil => exact Option.some.inj hrun ▸ hs
      | cons b bs =>
        obtain ⟨rfl, htail⟩ := List.cons_prefix_cons.mp hprefix
        obtain ⟨s', hs', hrun'⟩ := (run_cons_eq_some step).mp hrun
        rw [alongRun_cons step hs'] at halong
        exact ih.mpr ⟨halong.1 s' hs', halong.2⟩ bs u htail hrun'

theorem AlongRun.append {P : σ → α → Prop} :
    ∀ {s u : σ} {as bs : List α}, AlongRun step P s (as ++ bs) → run step s as = some u →
      AlongRun step P s as ∧ AlongRun step P u bs
  | s, u, [], bs, h, hrun => ⟨trivial, Option.some.inj hrun ▸ h⟩
  | s, u, a :: as, bs, h, hrun => by
    obtain ⟨s', hs, hrun'⟩ := (run_cons_eq_some step).mp hrun
    rw [List.cons_append, alongRun_cons step hs] at h
    obtain ⟨hfront, hback⟩ := AlongRun.append h.2 hrun'
    exact ⟨(alongRun_cons step hs).mpr ⟨h.1, hfront⟩, hback⟩

theorem guarded_of_alongRun {P : σ → α → Prop} {s : σ} {as : List α} (hP : AlongRun step P s as) :
    ∀ bs a u, bs ++ [a] <+: as → run step s bs = some u → P u a := by
  rintro bs a u ⟨cs, rfl⟩ hu
  rw [List.append_assoc] at hP
  have hback := (AlongRun.append step hP hu).2
  exact hback.1

theorem forall_prefix_of_alongRun {P : σ → α → Prop} {I : σ → Prop}
    (hstep : ∀ s a s', I s → P s a → step s a = some s' → I s') {s : σ} {as : List α} (hI : I s)
    (hP : AlongRun step P s as) : ∀ bs u, bs <+: as → run step s bs = some u → I u := by
  rintro bs u ⟨cs, rfl⟩ hu
  exact invariant_of_alongRun step hstep hI (AlongRun.append step hP hu).1 hu

/-- **Relations of guarded runs.**  A reflexive and transitive relation that holds between the two
states of every guarded step holds between any two states that a guarded run reaches. -/
theorem related_of_alongRun {P : σ → α → Prop} {I : σ → Prop} {R : σ → σ → Prop}
    (hrefl : ∀ s, R s s) (htrans : ∀ {s t u}, R s t → R t u → R s u)
    (hstep : ∀ s a s', I s → P s a → step s a = some s' → I s')
    (hR : ∀ s a s', I s → P s a → step s a = some s' → R s s') {s : σ} {as : List α} (hI : I s)
    (hP : AlongRun step P s as) :
    ∀ bs cs u v, bs ++ cs <+: as → run step s bs = some u → run step u cs = some v → R u v := by
  rintro bs cs u v ⟨ds, rfl⟩ hu hv
  rw [List.append_assoc] at hP
  obtain ⟨hfront, hback⟩ := AlongRun.append step hP hu
  have hIu := invariant_of_alongRun step hstep hI hfront hu
  clear hfront hu hI hP
  induction cs generalizing u with
  | nil => exact Option.some.inj hv ▸ hrefl u
  | cons c cs ih =>
    obtain ⟨u', hstep', hv'⟩ := (run_cons_eq_some step).mp hv
    rw [List.cons_append, alongRun_cons step hstep'] at hback
    exact htrans (hR u c u' hIu hback.1 hstep')
      (ih u' hv' hback.2 (hstep u c u' hIu hback.1 hstep'))

/-- A property that the states of a run have for good once they have it, is one that every step
preserves. -/
theorem stable_iff_alongRun {G : σ → Prop} {s : σ} {as : List α} :
    (∀ bs cs u v, bs ++ cs <+: as → run step s bs = some u → run step u cs = some v →
        G u → G v) ↔
      AlongRun step (fun s a => ∀ s', step s a = some s' → G s → G s') s as := by
  induction as generalizing s with
  | nil =>
    refine iff_of_true (fun bs cs u v hprefix hu hv => ?_) trivial
    obtain ⟨rfl, rfl⟩ := List.append_eq_nil_iff.mp (List.prefix_nil.mp hprefix)
    exact Option.some.inj hv ▸ id
  | cons a as ih =>
    constructor
    · intro h
      refine ⟨fun s' hs => h [] [a] s s' ?_ rfl ?_, ?_⟩
      · exact List.cons_prefix_cons.mpr ⟨rfl, List.nil_prefix ..⟩
      · rw [run_cons, hs]
        rfl
      · cases hs : step s a with
        | none => trivial
        | some s' =>
          refine ih.mp fun bs cs u v hprefix hu hv => ?_
          refine h (a :: bs) cs u v (List.cons_prefix_cons.mpr ⟨rfl, hprefix⟩) ?_ hv
          rw [run_cons, hs]
          exact hu
    · intro halong bs cs u v hprefix hu hv
      cases bs with
      | nil =>
        obtain rfl := Option.some.inj hu
        cases cs with
        | nil => exact Option.some.inj hv ▸ id
        | cons c cs =>
          obtain ⟨rfl, htail⟩ := List.cons_prefix_cons.mp hprefix
          obtain ⟨s', hs', hv'⟩ := (run_cons_eq_some step).mp hv
          rw [alongRun_cons step hs'] at halong
          exact fun hG => ih.mpr halong.2 [] cs s' v htail rfl hv' (halong.1 s' hs' hG)
      | cons b bs =>
        obtain ⟨rfl, htail⟩ := List.cons_prefix_cons.mp hprefix
        obtain ⟨s', hs', hu'⟩ := (run_cons_eq_some step).mp hu
        rw [alongRun_cons step hs'] at halong
        exact ih.mpr halong.2 bs cs u v htail hu' hv

theorem alongRun_iff_of_invariant {P Q : σ → α → Prop} {I : σ → Prop}
    (hstep : ∀ s a s', I s → P s a → step s a = some s' → I s')
    (hPQ : ∀ s a s', I s → step s a = some s' → (P s a ↔ Q s a)) {s t : σ} {as : List α}
    (hI : I s) (hrun : run step s as = some t) : AlongRun step P s as ↔ AlongRun step Q s as := by
  induction as generalizing s with
  | nil => exact Iff.rfl
  | cons a as ih =>
    obtain ⟨s', hs, hrun'⟩ := (run_cons_eq_some step).mp hrun
    rw [alongRun_cons step hs, alongRun_cons step hs, ← hPQ s a s' hI hs]
    constructor
    · rintro ⟨ha, hrest⟩
      exact ⟨ha, (ih (hstep s a s' hI ha hs) hrun').mp hrest⟩
    · rintro ⟨ha, hrest⟩
      exact ⟨ha, (ih (hstep s a s' hI ha hs) hrun').mpr hrest⟩

end StepSystem
