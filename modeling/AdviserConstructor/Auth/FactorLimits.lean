import AdviserConstructor.Auth.ConcurrentFactors
import AdviserConstructor.Library.AttemptLog

/-!
# The limits of the second factors

Every recovery code and every emailed code is to be accepted once at most, and between two successes
or lockouts of a factor no more than `totp_max_failed_attempts` wrong codes are to be judged.  A
call reads the count of the wrong codes with its row, adds one to it in memory, and writes it back;
so a wrong code is lost to the count if another one is judged between the read and the commit.

* `counted_step`: what a step keeps of the count, if it loses nothing.
* `limited_of_alongRun`: the limits hold in the runs in which nothing is lost: an emailed code is
  not marked when it has been used meanwhile, and a wrong code is not judged by a count that misses
  another one.
* `not_limited`: two calls accept one emailed code, and six wrong codes are judged before the first
  lockout.
-/

namespace AdviserConstructor

namespace Auth

/-! ## Limits -/

/-- The entry is a wrong code of a factor. -/
def FactorEvent.isWrong (factor : Factor) (e : FactorEvent) : Bool := decide (e = .wrong factor)

/-- The entry is a success or a lockout of a factor. -/
def FactorEvent.isReset (factor : Factor) (e : FactorEvent) : Bool :=
  match e with
  | .committed _ (some (f, .success)) => decide (f = factor)
  | .committed _ (some (f, .lockout)) => decide (f = factor)
  | _ => false

/-- The limits: every code is accepted once at most, and between two successes or lockouts of a
factor no more than `totp_max_failed_attempts` wrong codes are judged. -/
structure Limited (cfg : Settings) (log : List FactorEvent) : Prop where
  once : ∀ c, acceptedTimes log c ≤ 1
  bounded : ∀ factor, AttemptLog.Bounded (FactorEvent.isWrong factor) (FactorEvent.isReset factor)
    cfg.totpMaxFailedAttempts log

/-! ## The count -/

/-- The wrong codes of a factor since its last success or lockout. -/
def wrongSince (factor : Factor) (log : List FactorEvent) : ℕ :=
  AttemptLog.since (FactorEvent.isWrong factor) (FactorEvent.isReset factor) log

/-- A wrong code of a factor that has been judged, and is not committed. -/
def CallPhase.pendingOf (factor : Factor) (phase : CallPhase) : Option Judgement :=
  phase.pending.filter fun j => decide (j.factor = factor)

/-- What holds of the count of a factor in the runs in which nothing is lost: a wrong code under way
has been judged by a count that covers those before it, and when none is under way the stored count
covers them. -/
structure Counted (cfg : Settings) (factor : Factor) (s : FactorSystem) : Prop where
  bounded : AttemptLog.Bounded (FactorEvent.isWrong factor) (FactorEvent.isReset factor)
    cfg.totpMaxFailedAttempts s.log
  pending : ∀ q ∈ s.calls, ∀ j ∈ q.phase.pendingOf factor,
    wrongSince factor s.log ≤ j.read.failedAttempts + 1 ∧
      wrongSince factor s.log ≤ cfg.totpMaxFailedAttempts
  settled : (∀ q ∈ s.calls, q.phase.pendingOf factor = none) →
    wrongSince factor s.log < cfg.totpMaxFailedAttempts ∧
      ∀ l ∈ s.db.lockoutOf factor, wrongSince factor s.log ≤ l.failedAttempts

/-- A step loses nothing: it does not mark an emailed code that has been used, and it does not judge
a wrong code while another one of the factor is not committed, or by a count that was read before
another one was. -/
def NothingLost (deps : Deps) (s : FactorSystem) : FactorLabel → Prop
  | .call _ => True
  | .advance i clock => ∀ q ∈ s.calls[i]?,
      (∀ index ∈ q.phase.selectedIndex, s.db.Unused (.emailed index)) ∧
        ∀ j ∈ q.phase.judgesWrong deps s.db clock,
          (∀ r ∈ s.calls, r.phase.pendingOf j.factor = none) ∧
            ∃ l ∈ s.db.lockoutOf j.factor, l.failedAttempts ≤ j.read.failedAttempts

instance (deps : Deps) (s : FactorSystem) (label : FactorLabel) :
    Decidable (NothingLost deps s label) :=
  match label with
  | .call _ => .isTrue trivial
  | .advance i clock => inferInstanceAs (Decidable (∀ q ∈ s.calls[i]?,
      (∀ index ∈ q.phase.selectedIndex, s.db.Unused (.emailed index)) ∧
        ∀ j ∈ q.phase.judgesWrong deps s.db clock,
          (∀ r ∈ s.calls, r.phase.pendingOf j.factor = none) ∧
            ∃ l ∈ s.db.lockoutOf j.factor, l.failedAttempts ≤ j.read.failedAttempts))

section

variable {deps : Deps} {cfg : Settings} {factor other : Factor} {s s' : FactorSystem}
  {db db' : UserRows} {calls : List CallState} {i : ℕ} {q q' r : CallState} {j : Judgement}
  {phase : CallPhase} {u : RowUpdate} {label : FactorLabel} {event : Option FactorEvent}

theorem marksUnused_of_nothingLost (h : NothingLost deps s label) : MarksUnused s label := by
  cases label with
  | call call => trivial
  | advance i clock => exact fun q hq => (h q hq).1

theorem mem_pendingOf : j ∈ phase.pendingOf factor ↔ j ∈ phase.pending ∧ j.factor = factor := by
  rw [CallPhase.pendingOf, Option.mem_filter_iff, decide_eq_true_iff]

theorem pendingOf_of_none (h : phase.pending = none) : phase.pendingOf factor = none := by
  rw [CallPhase.pendingOf, h]
  rfl

theorem pendingOf_judged (hok : j.ok = false) :
    (CallPhase.judged j).pendingOf j.factor = some j := by
  refine mem_pendingOf.mpr ⟨?_, rfl⟩
  rw [CallPhase.pending, hok]
  rfl

theorem pendingOf_judged_of_ne (h : j.factor ≠ factor) :
    (CallPhase.judged j).pendingOf factor = none := by
  rw [CallPhase.pendingOf, CallPhase.pending]
  cases j.ok with
  | true => rfl
  | false => exact if_neg (by rw [decide_eq_true_iff]; exact h)

/-! ### The rows -/

theorem lockoutOf_commit (consumed : Option (OneTimeCode × ℤ)) :
    ((consumed.map db.consume).getD db).lockoutOf factor = db.lockoutOf factor := by
  cases consumed with
  | none => rfl
  | some used =>
    obtain ⟨code, now⟩ := used
    cases code <;> cases factor <;> rfl

theorem lockoutOf_write :
    (db.write factor u).lockoutOf factor = (db.lockoutOf factor).map u.lockout := by
  cases factor with
  | totp =>
    show (db.totp.map _).map _ = (db.totp.map _).map _
    rw [Option.map_map, Option.map_map]
    rfl
  | email =>
    show (db.email2fa.map _).map _ = (db.email2fa.map _).map _
    rw [Option.map_map, Option.map_map]
    rfl

theorem lockoutOf_write_of_ne (h : other ≠ factor) :
    (db.write other u).lockoutOf factor = db.lockoutOf factor := by
  cases other <;> cases factor
  · exact absurd rfl h
  · rfl
  · rfl
  · exact absurd rfl h

theorem failedAttempts_update (hok : j.ok = false)
    (hlt : ¬ cfg.totpMaxFailedAttempts ≤ j.read.failedAttempts + 1) :
    (j.update cfg).failedAttempts = some (j.read.failedAttempts + 1) := by
  have hafter : j.read.after cfg j.now j.ok =
      { j.read with failedAttempts := j.read.failedAttempts + 1 } := by
    rw [Lockout.after, hok, if_neg Bool.false_ne_true, if_neg hlt]
  rw [Judgement.update, hafter]
  exact if_neg (Nat.succ_ne_self _)

/-! ### Calls -/

theorem pendingOf_set (hq : calls[i]? = some q)
    (hsame : q'.phase.pendingOf factor = q.phase.pendingOf factor)
    (h : ∀ r ∈ calls.set i q', r.phase.pendingOf factor = none) :
    ∀ r ∈ calls, r.phase.pendingOf factor = none := by
  intro r hr
  obtain ⟨k, hk⟩ := List.mem_iff_getElem?.mp hr
  by_cases hki : i = k
  · subst hki
    obtain rfl := Option.some.inj (hq.symm.trans hk)
    rw [← hsame]
    refine h q' (List.mem_of_getElem? (i := i) ?_)
    rw [List.getElem?_set_self (List.getElem?_eq_some_iff.mp hq).1]
  · refine h r (List.mem_of_getElem? (i := k) ?_)
    rw [List.getElem?_set_ne hki]
    exact hk

theorem Counted.since_le (h : Counted cfg factor s) :
    wrongSince factor s.log ≤ cfg.totpMaxFailedAttempts := by
  by_cases hnone : ∀ q ∈ s.calls, q.phase.pendingOf factor = none
  · exact Nat.le_of_lt (h.settled hnone).1
  · push Not at hnone
    obtain ⟨q, hq, hsome⟩ := hnone
    obtain ⟨j, hj⟩ := Option.ne_none_iff_exists'.mp hsome
    exact (h.pending q hq j hj).2

/-- An entry that is no wrong code of the factor, and no success or lockout of it. -/
def FactorEvent.Neutral (factor : Factor) (e : FactorEvent) : Prop :=
  e.isWrong factor = false ∧ e.isReset factor = false

theorem wrongSince_of_neutral {e : FactorEvent} (he : e.Neutral factor) (log : List FactorEvent) :
    wrongSince factor (log ++ [e]) = wrongSince factor log :=
  AttemptLog.since_of_other he.1 he.2

theorem Counted.keep (h : Counted cfg factor s) (hq : s.calls[i]? = some q)
    (hsame : q'.phase.pendingOf factor = q.phase.pendingOf factor)
    (hdb : db'.lockoutOf factor = s.db.lockoutOf factor) {e : Option FactorEvent}
    (he : ∀ a ∈ e, a.Neutral factor) :
    Counted cfg factor { db := db', calls := s.calls.set i q', log := s.log ++ e.toList } := by
  have hsince : wrongSince factor (s.log ++ e.toList) = wrongSince factor s.log := by
    cases e with
    | none => rw [Option.toList_none, List.append_nil]
    | some e => exact wrongSince_of_neutral (he e rfl) s.log
  refine ⟨?_, ?_, ?_⟩
  · cases e with
    | none =>
      show AttemptLog.Bounded _ _ _ (s.log ++ [])
      rw [List.append_nil]
      exact h.bounded
    | some e => exact h.bounded.append (Nat.le_trans (Nat.le_of_eq hsince) h.since_le)
  · intro r hr j hj
    show wrongSince factor (s.log ++ e.toList) ≤ _ ∧ _ ≤ _
    rw [hsince]
    rcases List.mem_or_eq_of_mem_set hr with hr | rfl
    · exact h.pending r hr j hj
    · rw [hsame] at hj
      exact h.pending q (List.mem_of_getElem? hq) j hj
  · intro hnone
    show wrongSince factor (s.log ++ e.toList) < _ ∧ ∀ l ∈ db'.lockoutOf factor, _ ≤ _
    rw [hsince, hdb]
    exact h.settled (pendingOf_set hq hsame hnone)

theorem Counted.judge (h : Counted cfg factor s) (hq : s.calls[i]? = some q)
    (hnone : ∀ r ∈ s.calls, r.phase.pendingOf factor = none) {l : Lockout}
    (hl : l ∈ s.db.lockoutOf factor) (hle : l.failedAttempts ≤ j.read.failedAttempts)
    (hpending : q'.phase.pendingOf factor = some j) :
    Counted cfg factor
      { s with calls := s.calls.set i q', log := s.log ++ [.wrong factor] } := by
  obtain ⟨hlt, hcovered⟩ := h.settled hnone
  have hsince : wrongSince factor (s.log ++ [.wrong factor]) = wrongSince factor s.log + 1 :=
    AttemptLog.since_of_counts (decide_eq_true rfl) rfl
  refine ⟨h.bounded.append (Nat.le_trans (Nat.le_of_eq hsince) hlt), ?_, ?_⟩
  · intro r hr k hk
    show wrongSince factor (s.log ++ [.wrong factor]) ≤ _ ∧ _ ≤ _
    rcases List.mem_or_eq_of_mem_set hr with hr | rfl
    · rw [hnone r hr] at hk
      cases hk
    · obtain rfl := Option.some.inj (hpending.symm.trans hk)
      rw [hsince]
      exact ⟨Nat.succ_le_succ (Nat.le_trans (hcovered l hl) hle), hlt⟩
  · intro hnew
    have hmem : q' ∈ s.calls.set i q' := List.mem_of_getElem?
      (List.getElem?_set_self (List.getElem?_eq_some_iff.mp hq).1)
    exact absurd (hpending.symm.trans (hnew q' hmem)) (by simp)

theorem Counted.reset (h : Counted cfg factor s) (hmax : 0 < cfg.totpMaxFailedAttempts)
    {e : FactorEvent} (he : e.isReset factor = true) :
    Counted cfg factor { db := db', calls := calls, log := s.log ++ [e] } := by
  have hsince : wrongSince factor (s.log ++ [e]) = 0 := AttemptLog.since_of_resets he
  refine ⟨h.bounded.append (Nat.le_trans (Nat.le_of_eq hsince) (Nat.zero_le _)), ?_, ?_⟩
  · intro r _ k _
    show wrongSince factor (s.log ++ [e]) ≤ _ ∧ _ ≤ _
    rw [hsince]
    exact ⟨Nat.zero_le _, Nat.zero_le _⟩
  · intro _
    show wrongSince factor (s.log ++ [e]) < _ ∧ ∀ l ∈ db'.lockoutOf factor, _ ≤ _
    rw [hsince]
    exact ⟨hmax, fun l _ => Nat.zero_le _⟩

theorem Counted.count (h : Counted cfg factor s) (hq : s.calls[i]? = some q)
    (hpending : q.phase.pendingOf factor = some j)
    (hlt : ¬ cfg.totpMaxFailedAttempts ≤ j.read.failedAttempts + 1)
    (hnone : q'.phase.pending = none) {e : FactorEvent} (he : e.Neutral factor)
    (hdb : ∀ l ∈ db'.lockoutOf factor, l.failedAttempts = j.read.failedAttempts + 1) :
    Counted cfg factor { db := db', calls := s.calls.set i q', log := s.log ++ [e] } := by
  have hsince := wrongSince_of_neutral he s.log
  have hcovered := (h.pending q (List.mem_of_getElem? hq) j hpending).1
  refine ⟨h.bounded.append (Nat.le_trans (Nat.le_of_eq hsince) h.since_le), ?_, ?_⟩
  · intro r hr k hk
    show wrongSince factor (s.log ++ [e]) ≤ _ ∧ _ ≤ _
    rw [hsince]
    rcases List.mem_or_eq_of_mem_set hr with hr | rfl
    · exact h.pending r hr k hk
    · rw [pendingOf_of_none hnone] at hk
      cases hk
  · intro _
    show wrongSince factor (s.log ++ [e]) < _ ∧ ∀ l ∈ db'.lockoutOf factor, _ ≤ _
    rw [hsince]
    refine ⟨Nat.lt_of_le_of_lt hcovered (Nat.lt_of_not_le hlt), fun l hl => ?_⟩
    rw [hdb l hl]
    exact hcovered

/-! ### Steps -/

theorem neutral_committed_of_ne {code : Option OneTimeCode} {outcome : CountOutcome}
    (h : other ≠ factor) : (FactorEvent.committed code (some (other, outcome))).Neutral factor := by
  cases outcome
  · exact ⟨rfl, decide_eq_false h⟩
  · exact ⟨rfl, decide_eq_false h⟩
  · exact ⟨rfl, rfl⟩

/-- **The commit of a verdict** keeps the count of each factor. -/
theorem Counted.commit (h : Counted cfg factor s) (hmax : 0 < cfg.totpMaxFailedAttempts)
    {consumed : Option (OneTimeCode × ℤ)} (hq : s.calls[i]? = some ⟨.flushed j, consumed⟩)
    (hnone : q'.phase.pending = none) (hdb : db.lockoutOf factor = s.db.lockoutOf factor)
    {code : Option OneTimeCode} :
    Counted cfg factor
      { db := db.write j.factor (j.update cfg), calls := s.calls.set i q'
        log := s.log ++ [.committed code (some (j.factor, j.outcome cfg))] } := by
  by_cases hfactor : j.factor = factor
  · subst hfactor
    cases hok : j.ok with
    | true =>
      refine h.reset hmax ?_
      rw [Judgement.outcome, hok]
      exact decide_eq_true rfl
    | false =>
      by_cases hlockout : cfg.totpMaxFailedAttempts ≤ j.read.failedAttempts + 1
      · refine h.reset hmax ?_
        rw [Judgement.outcome, hok, if_pos hlockout]
        exact decide_eq_true rfl
      · refine h.count hq (pendingOf_judged hok) hlockout hnone ?_ fun l hl => ?_
        · rw [Judgement.outcome, hok, if_neg hlockout]
          exact ⟨rfl, rfl⟩
        · rw [lockoutOf_write] at hl
          obtain ⟨l, -, rfl⟩ := Option.map_eq_some_iff.mp hl
          rw [RowUpdate.lockout, failedAttempts_update hok hlockout]
          rfl
  · refine h.keep hq (e := some _) ?_ ?_ fun e he => ?_
    · exact (pendingOf_of_none hnone).trans (pendingOf_judged_of_ne hfactor).symm
    · rw [lockoutOf_write_of_ne hfactor]
      exact hdb
    · rw [← Option.some.inj (Option.mem_def.mp he)]
      exact neutral_committed_of_ne hfactor

theorem Counted.move {clock : ℤ} (h : Counted cfg factor s) (hmax : 0 < cfg.totpMaxFailedAttempts)
    (hq : s.calls[i]? = some q)
    (hmove : Move deps cfg s.db (codeFree s.calls) clock q q' db' event)
    (hjudge : ∀ j ∈ q.phase.judgesWrong deps s.db clock,
      (∀ r ∈ s.calls, r.phase.pendingOf j.factor = none) ∧
        ∃ l ∈ s.db.lockoutOf j.factor, l.failedAttempts ≤ j.read.failedAttempts) :
    Counted cfg factor { db := db', calls := s.calls.set i q', log := s.log ++ event.toList } := by
  have hsilent : ∀ e ∈ (none : Option FactorEvent), e.Neutral factor :=
    fun e he => absurd he (by simp)
  cases hmove with
  | quiet hold hnew =>
    refine h.keep hq ?_ rfl hsilent
    exact (pendingOf_of_none hnew).trans (pendingOf_of_none hold).symm
  | flush =>
    refine h.keep hq ?_ rfl hsilent
    rfl
  | @wrong _ j hjudges =>
    obtain ⟨hok, hpending⟩ := judgesWrong_ok hjudges
    obtain ⟨hnone, l, hl, hle⟩ := hjudge j hjudges
    by_cases hfactor : j.factor = factor
    · subst hfactor
      exact h.judge hq hnone hl hle (pendingOf_judged hok)
    · refine h.keep hq ?_ rfl fun e he => ?_
      · exact (pendingOf_judged_of_ne hfactor).trans (pendingOf_of_none hpending).symm
      · rw [← Option.some.inj (Option.mem_def.mp he)]
        exact ⟨decide_eq_false fun heq => hfactor (FactorEvent.wrong.inj heq), rfl⟩
  | consume hold hnew _ _ =>
    refine h.keep hq ?_ rfl hsilent
    exact (pendingOf_of_none hnew).trans (pendingOf_of_none hold).symm
  | commitCode hold hnew =>
    refine h.keep hq ?_ (lockoutOf_commit _) fun e he => ?_
    · exact (pendingOf_of_none hnew).trans (pendingOf_of_none hold).symm
    · rw [← Option.some.inj (Option.mem_def.mp he)]
      exact ⟨rfl, rfl⟩
  | commit => exact h.commit hmax hq rfl (lockoutOf_commit _)

/-- **The count**: a step that loses nothing keeps it. -/
theorem counted_step (hmax : 0 < cfg.totpMaxFailedAttempts) (h : Counted cfg factor s)
    (hlost : NothingLost deps s label) (hstep : factorStep deps cfg s label = some s') :
    Counted cfg factor s' := by
  cases label with
  | call call =>
    obtain rfl := Option.some.inj hstep
    refine ⟨h.bounded, fun r hr j hj => ?_, fun hnone => ?_⟩
    · rcases List.mem_append.mp hr with hr | hr
      · exact h.pending r hr j hj
      · rw [List.mem_singleton.mp hr] at hj
        cases hj
    · exact h.settled fun r hr => hnone r (List.mem_append_left _ hr)
  | advance i clock =>
    obtain ⟨q, hq, hadvance⟩ := Option.bind_eq_some_iff.mp hstep
    obtain ⟨⟨q', db', event⟩, hmoved, rfl⟩ := Option.map_eq_some_iff.mp hadvance
    exact h.move hmax hq (move_of_advance hmoved) (hlost q hq).2

theorem counted_start (hmax : 0 < cfg.totpMaxFailedAttempts) (db : UserRows) :
    Counted cfg factor { db := db } :=
  ⟨AttemptLog.bounded_nil, fun _ h => absurd h (by simp),
    fun _ => ⟨hmax, fun _ _ => Nat.zero_le _⟩⟩

end

/-! ## Runs -/

/-- **The limits** hold throughout the runs in which nothing is lost: each code is accepted once at
most, and between two successes or lockouts of a factor no more than `totp_max_failed_attempts`
wrong codes are judged. -/
theorem limited_of_alongRun {deps : Deps} {cfg : Settings} (hmax : 0 < cfg.totpMaxFailedAttempts)
    (db : UserRows) {labels : List FactorLabel}
    (h : StepSystem.AlongRun (factorStep deps cfg) (NothingLost deps) { db := db } labels) :
    ∀ front s, front <+: labels →
      StepSystem.run (factorStep deps cfg) { db := db } front = some s → Limited cfg s.log := by
  intro front s hfront hrun
  refine ⟨fun c => ?_, fun factor => ?_⟩
  · refine (StepSystem.forall_prefix_of_alongRun _ (I := CodeOnce c) ?_ (codeOnce_start db c) h
      front s hfront hrun).once
    exact fun s label s' hcode hlost =>
      codeOnce_step hcode fun _ => marksUnused_of_nothingLost hlost
  · refine (StepSystem.forall_prefix_of_alongRun _ (I := Counted cfg factor) ?_
      (counted_start hmax db) h front s hfront hrun).bounded
    exact fun s label s' hcounted hlost => counted_step hmax hcounted hlost

/-- An authenticator app whose code is 123456, and codes that are their own digests. -/
def ownDigests : Deps where
  verifyTotp _ _ code := decide (code = "123456")
  hashToken := id

/-- A user with both factors, one recovery code, and one emailed code. -/
def twoFactors : UserRows where
  email := "user@example.com"
  totp := some { secret := "secret", confirmedAt := some 0 }
  recoveryCodes := [{ codeHash := "recovery" }]
  email2fa := some { confirmedAt := some 0 }
  confirmations := [{ action := "login", codeHash := "emailed", expiresAt := 600 }]

def turns (i : ℕ) (clock : ℤ) (n : ℕ) : List FactorLabel := List.replicate n (.advance i clock)

/-- A wrong code, a recovery code, an emailed code, and the emailed code again, one after
another. -/
def oneByOne : List FactorLabel :=
  .call (.totp "000000" true) :: turns 0 1 4 ++
    .call (.totp "recovery" true) :: turns 1 2 4 ++
    .call (.email "login" "emailed" false) :: turns 2 3 6 ++
    .call (.confirmation "login" "emailed") :: turns 3 4 1

theorem limited_oneByOne :
    (StepSystem.run (factorStep ownDigests {}) { db := twoFactors } oneByOne).map
        (fun s => (s.log, s.calls.map CallState.phase)) =
      some ([.wrong .totp, .committed none (some (.totp, .counted)),
          .committed (some (.recovery "recovery")) (some (.totp, .success)),
          .committed (some (.emailed 0)) none, .committed none (some (.email, .success))],
        [.done .refused, .done .accepted, .done .accepted, .done .refused]) ∧
      ∀ front s, front <+: oneByOne →
        StepSystem.run (factorStep ownDigests {}) { db := twoFactors } front = some s →
          Limited {} s.log :=
  ⟨by decide +kernel, limited_of_alongRun (by decide) twoFactors (by decide +kernel)⟩

/-- Two calls read the emailed code before either of them marks it. -/
def readTwice : List FactorLabel :=
  [.call (.confirmation "login" "emailed"), .call (.confirmation "login" "emailed"),
    .advance 0 1, .advance 1 1] ++ turns 0 2 2 ++ turns 1 3 2

/-- Six calls read the row of the authenticator app before any of them commits a wrong code. -/
def sixWrong : List FactorLabel :=
  List.replicate 6 (.call (.totp "000000" false)) ++
    (List.range 6).map (fun i => .advance i 1) ++ (List.range 6).map (fun i => .advance i 2)

/-- **Either limit** is broken by calls that interleave: an emailed code is accepted twice, and six
wrong codes are judged where five are the most. -/
theorem not_limited :
    (¬ ∀ labels s,
      StepSystem.run (factorStep ownDigests {}) { db := twoFactors } labels = some s →
        ∀ c, acceptedTimes s.log c ≤ 1) ∧
    ¬ ∀ labels s,
      StepSystem.run (factorStep ownDigests {}) { db := twoFactors } labels = some s →
        ∀ factor, AttemptLog.Bounded (FactorEvent.isWrong factor) (FactorEvent.isReset factor) 5
          s.log := by
  constructor
  · intro h
    have htwice : (StepSystem.run (factorStep ownDigests {}) { db := twoFactors } readTwice).map
        FactorSystem.log =
          some [.committed (some (.emailed 0)) none, .committed (some (.emailed 0)) none] := by
      decide +kernel
    obtain ⟨s, hrun, hlog⟩ := Option.map_eq_some_iff.mp htwice
    have hone := h readTwice s hrun (.emailed 0)
    rw [hlog] at hone
    exact absurd hone (by decide)
  · intro h
    have hsix : (StepSystem.run (factorStep ownDigests {}) { db := twoFactors } sixWrong).map
        FactorSystem.log = some (List.replicate 6 (.wrong .totp)) := by
      decide +kernel
    obtain ⟨s, hrun, hlog⟩ := Option.map_eq_some_iff.mp hsix
    have hbounded := h sixWrong s hrun .totp [] s.log [] (List.append_nil _).symm
    rw [hlog] at hbounded
    exact absurd (hbounded (by decide)) (by decide)

end Auth

end AdviserConstructor
