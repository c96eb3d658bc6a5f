import AdviserConstructor.Analysis.Jobs

/-!
# Whether a dispatch comes to an end

`dispatch_due_profiles` of `app/services/personal_analysis/service.py` selects the profiles that are
due, a batch at a time, and ends behind a batch that is not full.  Nothing that it has set is
flushed before the commit behind the loop, and a profile whose request fails is not even set: what
the next iteration selects are the same profiles again.

A course of the dispatch says what becomes of every request of every iteration.  The core accepts a
request or fails; a profile from which no payload can be built is invalid in every iteration.  The
log has the profiles that the body of the loop was run for, and those that an analysis was asked
for.

* `dispatchBatchesLogged_of_full`: a full batch is followed by the next one, in any course.
* `dispatchBatchesLogged_of_short`: a batch that is not full is the last one, and has every profile
  that is due.
* `callsEachOnce_iff`: a dispatch ends, and runs once for each due profile, exactly if fewer
  profiles are due than make a batch.
-/

namespace AdviserConstructor

namespace Analysis

/-! ## Courses -/

/-- What a dispatch meets: the rows that other transactions have locked, the payloads by profile,
and by iteration and profile the answers of the core and the drawn identifiers. -/
structure DispatchCourse where
  locked : ℕ → Bool
  payload : ℕ → Option JobPayload
  request : ℕ → ℕ → Except String CoreAcceptedJob
  newId : ℕ → ℕ → String

/-- The core accepts a request, or its provider fails. -/
def answerOf : Except String CoreAcceptedJob → Answer CoreAcceptedJob
  | .ok accepted => .ok accepted
  | .error message => .providerError message

def DispatchCourse.batch (c : DispatchCourse) (i : ℕ) : DispatchBatch where
  locked := c.locked
  payload := c.payload
  request := fun id => answerOf (c.request i id)
  newId := c.newId i

/-- The first iterations of a course. -/
def DispatchCourse.batches (c : DispatchCourse) (k : ℕ) : List DispatchBatch :=
  (List.range k).map c.batch

/-- The profiles that are due and that no other transaction has locked. -/
def DispatchCourse.due (c : DispatchCourse) (now : ℤ) (profiles : List Profile) : List Profile :=
  profiles.filter fun p => p.isActive && decide (p.nextRunAt ≤ now) && !c.locked p.id

/-! ## The log -/

/-- The profiles that the body of the loop was run for, and those that an analysis was asked for. -/
structure DispatchLog where
  attempted : List ℕ := []
  requested : List ℕ := []
  deriving DecidableEq, Repr

/-- The body of the loop is run for a profile. -/
def DispatchLog.add (b : DispatchBatch) (profile : Profile) (log : DispatchLog) : DispatchLog where
  attempted := log.attempted ++ [profile.id]
  requested :=
    if (b.payload profile.id).isSome then log.requested ++ [profile.id] else log.requested

section

variable (cfg : Settings) (now : ℤ)

/-- `dispatchProfile` with the log. -/
def dispatchProfileLogged (b : DispatchBatch) (profile : Profile)
    (s : DispatchSession × DispatchLog) : Raising (DispatchSession × DispatchLog) :=
  (dispatchProfile cfg now b profile s.1).map fun session => (session, s.2.add b profile)

/-- `dispatchBatches` with the log. -/
def dispatchBatchesLogged (committed : List Profile) :
    List DispatchBatch → DispatchSession × DispatchLog → Raising (DispatchSession × DispatchLog)
  | [], s => .raised s
  | b :: batches, s =>
      let profiles := dueProfiles cfg now b.locked committed
      if profiles = [] then .done s
      else
        (Raising.each (dispatchProfileLogged cfg now b) profiles s).andThen fun s =>
          if profiles.length < cfg.statusBatchSize then .done s
          else dispatchBatchesLogged committed batches s

/-- A call of `dispatch_due_profiles`, up to its commit, as far as the first iterations of its
course go. -/
def dispatchCall (c : DispatchCourse) (profiles : List Profile) (k : ℕ) :
    Raising (DispatchSession × DispatchLog) :=
  if !cfg.schedulerLoopEnabled then .done ({ profiles := profiles }, {})
  else dispatchBatchesLogged cfg now profiles (c.batches k) ({ profiles := profiles }, {})

/-- A dispatch comes to an end, has asked for no analysis twice, and has run for every profile that
is due, unless it is switched off. -/
def CallsEachOnce (c : DispatchCourse) (profiles : List Profile) : Prop :=
  ∃ k s log, dispatchCall cfg now c profiles k = .done (s, log) ∧ log.requested.Nodup ∧
    (cfg.schedulerLoopEnabled = true → ∀ p ∈ c.due now profiles, p.id ∈ log.attempted)

end

/-! ## The log and the dispatch -/

section

variable {cfg : Settings} {now : ℤ} {c : DispatchCourse} {profiles : List Profile}

theorem map_fst_dispatchProfileLogged (b : DispatchBatch) (p : Profile)
    (s : DispatchSession × DispatchLog) :
    (dispatchProfileLogged cfg now b p s).map Prod.fst = dispatchProfile cfg now b p s.1 := by
  rw [dispatchProfileLogged]
  cases dispatchProfile cfg now b p s.1 with
  | done s' => rfl
  | raised s' => rfl

theorem map_fst_dispatchBatchesLogged (committed : List Profile) (batches : List DispatchBatch) :
    ∀ s : DispatchSession × DispatchLog,
      (dispatchBatchesLogged cfg now committed batches s).map Prod.fst =
        dispatchBatches cfg now committed batches s.1 := by
  induction batches with
  | nil => exact fun _ => rfl
  | cons b batches ih =>
    intro s
    rw [dispatchBatchesLogged, dispatchBatches]
    by_cases hnone : dueProfiles cfg now b.locked committed = []
    · rw [if_pos hnone, if_pos hnone]
      rfl
    · rw [if_neg hnone, if_neg hnone]
      rw [← Raising.map_each (map_fst_dispatchProfileLogged b)]
      refine Raising.map_andThen fun s => ?_
      by_cases hshort : (dueProfiles cfg now b.locked committed).length < cfg.statusBatchSize
      · rw [if_pos hshort, if_pos hshort]
        rfl
      · rw [if_neg hshort, if_neg hshort]
        exact ih s

theorem dispatchCall_of_returns {w : World} {k : ℕ} {commits : Bool} {stats : DispatchStats}
    (h : (dispatchDueProfiles cfg ⟨now, c.batches k, commits⟩ w).2 = some stats) :
    ∃ s log, dispatchCall cfg now c w.profiles k = .done (s, log) := by
  rw [dispatchDueProfiles] at h
  rw [dispatchCall]
  by_cases henabled : (!cfg.schedulerLoopEnabled) = true
  · rw [if_pos henabled]
    exact ⟨_, _, rfl⟩
  · rw [if_neg henabled] at h ⊢
    have hlogged := @map_fst_dispatchBatchesLogged cfg now w.profiles (c.batches k)
      ({ profiles := w.profiles }, {})
    cases hrun : dispatchBatchesLogged cfg now w.profiles (c.batches k)
        ({ profiles := w.profiles }, {}) with
    | done s => exact ⟨s.1, s.2, rfl⟩
    | raised s =>
      rw [hrun] at hlogged
      rw [← hlogged] at h
      exact absurd h (by simp [Raising.map])

/-! ## What is selected -/

theorem length_dueProfiles :
    (dueProfiles cfg now c.locked profiles).length =
      min cfg.statusBatchSize (c.due now profiles).length := by
  rw [dueProfiles, List.length_take, List.length_insertionSort]
  rfl

theorem perm_dueProfiles (hshort : (c.due now profiles).length < cfg.statusBatchSize) :
    (dueProfiles cfg now c.locked profiles).Perm (c.due now profiles) := by
  rw [dueProfiles, List.take_of_length_le]
  · exact List.perm_insertionSort _ _
  · rw [List.length_insertionSort]
    exact hshort.le

/-! ## Full batches -/

/-- **Full batches.**  As long as the profiles that are due fill a batch, the loop goes on, whatever
becomes of the requests. -/
theorem dispatchBatchesLogged_of_full (hbatch : 1 ≤ cfg.statusBatchSize)
    (hfull : cfg.statusBatchSize ≤ (c.due now profiles).length) {batches : List DispatchBatch}
    (hlocked : ∀ b ∈ batches, b.locked = c.locked) :
    ∀ s : DispatchSession × DispatchLog,
      ∃ s', dispatchBatchesLogged cfg now profiles batches s = .raised s' := by
  induction batches with
  | nil => exact fun s => ⟨s, rfl⟩
  | cons b batches ih =>
    intro s
    have hlength : (dueProfiles cfg now b.locked profiles).length = cfg.statusBatchSize := by
      rw [hlocked b List.mem_cons_self, length_dueProfiles, min_eq_left hfull]
    have hsome : dueProfiles cfg now b.locked profiles ≠ [] := by
      intro hnone
      rw [hnone, List.length_nil] at hlength
      omega
    rw [dispatchBatchesLogged, if_neg hsome, hlength]
    cases Raising.each (dispatchProfileLogged cfg now b) (dueProfiles cfg now b.locked profiles)
      s with
    | raised s' => exact ⟨s', rfl⟩
    | done s' =>
      obtain ⟨s'', hs''⟩ := ih (fun b' hb' => hlocked b' (List.mem_cons_of_mem _ hb')) s'
      refine ⟨s'', ?_⟩
      show (if cfg.statusBatchSize < cfg.statusBatchSize then _ else _) = _
      rw [if_neg (lt_irrefl _), hs'']

/-! ## A batch that is not full -/

theorem dispatchProfile_done (i : ℕ) (p : Profile) (s : DispatchSession) :
    ∃ s', dispatchProfile cfg now (c.batch i) p s = .done s' := by
  rw [dispatchProfile]
  cases (c.batch i).payload p.id with
  | none => exact ⟨_, rfl⟩
  | some payload =>
    have hanswer : (c.batch i).request p.id = answerOf (c.request i p.id) := rfl
    rw [hanswer]
    cases c.request i p.id with
    | ok accepted => exact ⟨_, rfl⟩
    | error message => exact ⟨_, rfl⟩

theorem each_dispatchProfileLogged (i : ℕ) (selected : List Profile) :
    ∀ (s : DispatchSession) (log : DispatchLog), ∃ s',
      Raising.each (dispatchProfileLogged cfg now (c.batch i)) selected (s, log) =
        .done (s',
          { attempted := log.attempted ++ selected.map Profile.id
            requested := log.requested ++
              (selected.map Profile.id).filter fun id => (c.payload id).isSome }) := by
  induction selected with
  | nil =>
    intro s log
    exact ⟨s, by simp [Raising.each]⟩
  | cons p selected ih =>
    intro s log
    obtain ⟨s₁, hs₁⟩ := @dispatchProfile_done cfg now c i p s
    obtain ⟨s₂, hs₂⟩ := ih s₁ (log.add (c.batch i) p)
    refine ⟨s₂, ?_⟩
    rw [Raising.each, dispatchProfileLogged, hs₁]
    show Raising.each _ selected (s₁, log.add (c.batch i) p) = _
    rw [hs₂]
    have hpayload : (c.batch i).payload = c.payload := rfl
    cases hsome : (c.payload p.id).isSome with
    | true => simp [DispatchLog.add, hpayload, hsome]
    | false => simp [DispatchLog.add, hpayload, hsome]

/-- **A batch that is not full** is the last one, and has every profile that is due. -/
theorem dispatchBatchesLogged_of_short
    (hshort : (c.due now profiles).length < cfg.statusBatchSize) (s : DispatchSession) :
    ∃ s' log, dispatchBatchesLogged cfg now profiles (c.batches 1) (s, {}) = .done (s', log) ∧
      log.attempted.Perm ((c.due now profiles).map Profile.id) ∧
        log.requested = log.attempted.filter fun id => (c.payload id).isSome := by
  have hperm := (perm_dueProfiles hshort).map Profile.id
  have hlength : (dueProfiles cfg now c.locked profiles).length < cfg.statusBatchSize := by
    rw [length_dueProfiles]
    omega
  have hbatches : c.batches 1 = [c.batch 0] := rfl
  rw [hbatches, dispatchBatchesLogged]
  by_cases hnone : dueProfiles cfg now (c.batch 0).locked profiles = []
  · have hdue : (dueProfiles cfg now c.locked profiles).map Profile.id = [] := by
      rw [show dueProfiles cfg now c.locked profiles = [] from hnone, List.map_nil]
    rw [if_pos hnone]
    exact ⟨s, {}, rfl, hdue ▸ hperm, rfl⟩
  · obtain ⟨s', hs'⟩ := @each_dispatchProfileLogged cfg now c 0
      (dueProfiles cfg now c.locked profiles) s {}
    rw [if_neg hnone, show (c.batch 0).locked = c.locked from rfl, hs']
    refine ⟨s', _, if_pos hlength, ?_, rfl⟩
    exact hperm

/-! ## The end of a dispatch -/

/-- **A dispatch comes to an end**, with one run for each profile that is due and no second request
for any, exactly if it is switched off or fewer profiles are due than make a batch. -/
theorem callsEachOnce_iff (hbatch : 1 ≤ cfg.statusBatchSize)
    (hids : (profiles.map Profile.id).Nodup) :
    CallsEachOnce cfg now c profiles ↔
      cfg.schedulerLoopEnabled = false ∨ (c.due now profiles).length < cfg.statusBatchSize := by
  constructor
  · rintro ⟨k, s, log, hcall, -, -⟩
    cases henabled : cfg.schedulerLoopEnabled with
    | false => exact .inl rfl
    | true =>
      refine .inr (lt_of_not_ge fun hfull => ?_)
      have hlocked : ∀ b ∈ c.batches k, b.locked = c.locked := by
        intro b hb
        obtain ⟨i, -, rfl⟩ := List.mem_map.mp hb
        rfl
      obtain ⟨s', hs'⟩ :=
        dispatchBatchesLogged_of_full hbatch hfull hlocked ({ profiles := profiles }, {})
      rw [dispatchCall, henabled] at hcall
      rw [show (!true) = false from rfl, hs'] at hcall
      cases hcall
  · intro h
    cases henabled : cfg.schedulerLoopEnabled with
    | false =>
      refine ⟨0, { profiles := profiles }, {}, ?_, List.nodup_nil, fun hon => ?_⟩
      · rw [dispatchCall, henabled]
        rfl
      · rw [henabled] at hon
        exact absurd hon Bool.false_ne_true
    | true =>
      have hshort : (c.due now profiles).length < cfg.statusBatchSize := by
        rcases h with hoff | hshort
        · rw [henabled] at hoff
          cases hoff
        · exact hshort
      obtain ⟨s, log, hrun, hattempted, hrequested⟩ :=
        dispatchBatchesLogged_of_short hshort { profiles := profiles }
      have hnodup : log.attempted.Nodup :=
        hattempted.nodup_iff.mpr (hids.sublist (List.filter_sublist.map Profile.id))
      refine ⟨1, s, log, ?_, ?_, fun _ p hp => ?_⟩
      · rw [dispatchCall, henabled]
        exact hrun
      · rw [hrequested]
        exact hnodup.filter _
      · exact hattempted.mem_iff.mpr (List.mem_map_of_mem hp)

end

/-! ## A full batch of failures -/

def failingProfile : Profile where
  id := 1
  userId := 7
  isActive := true
  intervalMinutes := 60
  nextRunAt := 0

def providerDown : DispatchCourse where
  locked := fun _ => false
  payload := fun _ => some ⟨"BTCUSDT"⟩
  request := fun _ _ => .error "core is down"
  newId := fun _ _ => "job"

/-- One profile that is due leaves room in a batch of the default size. -/
theorem callsEachOnce_providerDown : CallsEachOnce {} 0 providerDown [failingProfile] :=
  (callsEachOnce_iff (by decide) (by decide)).mpr (.inr (by decide))

/-- **One profile that is due fills a batch of one**: as its request fails, the dispatch does not
come to an end. -/
theorem not_callsEachOnce_fullBatch :
    ¬ ∀ (cfg : Settings) (now : ℤ) (c : DispatchCourse) (profiles : List Profile),
      1 ≤ cfg.statusBatchSize → (profiles.map Profile.id).Nodup →
        CallsEachOnce cfg now c profiles := by
  intro h
  obtain ⟨k, s, log, hcall, -, -⟩ :=
    h { statusBatchSize := 1 } 0 providerDown [failingProfile] (by decide) (by decide)
  have hlocked : ∀ b ∈ providerDown.batches k, b.locked = providerDown.locked := by
    intro b hb
    obtain ⟨i, -, rfl⟩ := List.mem_map.mp hb
    rfl
  obtain ⟨s', hs'⟩ := @dispatchBatchesLogged_of_full { statusBatchSize := 1 } 0 providerDown
    [failingProfile] (by decide) (by decide) _ hlocked ({ profiles := [failingProfile] }, {})
  have hraised : dispatchCall { statusBatchSize := 1 } 0 providerDown [failingProfile] k =
      .raised s' := hs'
  rw [hraised] at hcall
  cases hcall

end Analysis

end AdviserConstructor
