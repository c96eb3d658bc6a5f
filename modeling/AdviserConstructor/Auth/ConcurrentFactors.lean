import AdviserConstructor.Auth.SecondFactors
import AdviserConstructor.Library.StepSystem
import Mathlib.Data.List.Count

/-!
# Second factors under concurrency

`TotpService.verify` of `app/services/totp.py`, `verify` of `app/services/email_2fa.py` and
`verify_confirmation` of `app/services/email_confirm.py`, any number of calls for one user at once.
A call reads rows, judges the code, and writes and commits; each of these is a step of its own, and
the steps of the calls interleave.  A read gives what is committed.  A write holds its row until the
commit, and another write of the row waits for that.  The session does not flush by itself, and a
flush writes the columns that have changed.

A recovery code is used up by an update of the unused row; an emailed code is read and marked
afterwards, and the count of the wrong codes is read and written back.

* `move_of_advance`: what a step of a call can do.
* `codeOnce_step`: a step keeps what holds of a code, unless it marks an emailed code that has been
  used.
-/

namespace AdviserConstructor

namespace Auth

/-! ## Calls -/

/-- A factor. -/
inductive Factor
  | totp | email
  deriving DecidableEq, Repr

/-- A code that can be used once: a recovery code by its digest, an emailed one by its row. -/
inductive OneTimeCode
  | recovery (hash : String)
  | emailed (index : ℕ)
  deriving DecidableEq, Repr

/-- A call with its arguments. -/
inductive FactorCall
  | totp (code : String) (allowRecovery : Bool)
  | email (action code : String) (confirmEnrollment : Bool)
  | confirmation (action code : String)
  deriving DecidableEq, Repr

/-- What a call has made of the row of its factor in memory: the columns as it read them, the
verdict, and the value of `confirmed_at` that it has stamped. -/
structure Judgement where
  factor : Factor
  read : Lockout
  now : ℤ
  ok : Bool
  confirmedAt : Option ℤ := none
  deriving DecidableEq, Repr

/-- The row of the factor that `email_2fa.verify` has read, with its clock and
`confirm_enrollment`. -/
structure EmailRead where
  row : UserEmail2FA
  now : ℤ
  confirmEnrollment : Bool
  deriving DecidableEq, Repr

/-- How far a call has come. -/
inductive CallPhase
  | called (call : FactorCall)
  /-- `TotpService.verify` has read its row -/
  | readTotp (code : String) (allowRecovery : Bool) (row : UserTotp) (now : ℤ)
  /-- `email_2fa.verify` has read its row -/
  | readEmail (action code : String) (read : EmailRead)
  /-- the row of the emailed code has been read -/
  | selected (read : Option EmailRead) (index : ℕ) (now : ℤ)
  | marked (read : Option EmailRead)
  | judged (j : Judgement)
  /-- the row of the factor has been written -/
  | flushed (j : Judgement)
  | done (verdict : Verdict)
  deriving DecidableEq, Repr

/-- A call under way, with the code that it has used up and not yet committed. -/
structure CallState where
  phase : CallPhase
  consumed : Option (OneTimeCode × ℤ) := none
  deriving DecidableEq, Repr

/-- What a commit makes of the count of a factor. -/
inductive CountOutcome
  | success | lockout | counted
  deriving DecidableEq, Repr

/-- An entry of the log: a wrong code of a factor is judged, or a call commits, with the code that
it accepts and the outcome for its factor. -/
inductive FactorEvent
  | wrong (factor : Factor)
  | committed (code : Option OneTimeCode) (outcome : Option (Factor × CountOutcome))
  deriving DecidableEq, Repr

/-- The committed rows, the calls, and the log. -/
structure FactorSystem where
  db : UserRows
  calls : List CallState := []
  log : List FactorEvent := []
  deriving DecidableEq, Repr

/-! ## Rows -/

/-- The columns of a factor that count its wrong codes. -/
def UserRows.lockoutOf (db : UserRows) : Factor → Option Lockout
  | .totp => db.totp.map UserTotp.toLockout
  | .email => db.email2fa.map UserEmail2FA.toLockout

/-- The code is there and has not been used. -/
def UserRows.Unused (db : UserRows) : OneTimeCode → Prop
  | .recovery hash => ∃ c ∈ db.recoveryCodes, c.matches hash = true
  | .emailed index => ∃ c ∈ db.confirmations[index]?, c.consumedAt = none

instance (db : UserRows) (c : OneTimeCode) : Decidable (db.Unused c) :=
  match c with
  | .recovery hash => inferInstanceAs (Decidable (∃ c ∈ db.recoveryCodes, c.matches hash = true))
  | .emailed index =>
      inferInstanceAs (Decidable (∃ c ∈ db.confirmations[index]?, c.consumedAt = none))

/-- The code is used up: a recovery code by the update of its unused row, an emailed one by that of
its row. -/
def UserRows.consume (db : UserRows) : OneTimeCode × ℤ → UserRows
  | (.recovery hash, now) =>
      { db with recoveryCodes := (consumeRecoveryCode now hash db.recoveryCodes).1 }
  | (.emailed index, now) =>
      { db with
        confirmations := db.confirmations.modify index fun c => { c with consumedAt := some now } }

/-- The value of a column, if it has changed. -/
def changed {α : Type*} [DecidableEq α] (old new : α) : Option α :=
  if new = old then none else some new

/-- The columns of a factor's row that a flush writes. -/
structure RowUpdate where
  failedAttempts : Option ℕ
  lockedUntil : Option (Option ℤ)
  confirmedAt : Option ℤ
  deriving DecidableEq, Repr

def RowUpdate.isEmpty (u : RowUpdate) : Bool :=
  u.failedAttempts.isNone && u.lockedUntil.isNone && u.confirmedAt.isNone

/-- The written columns of a lockout. -/
def RowUpdate.lockout (u : RowUpdate) (l : Lockout) : Lockout where
  failedAttempts := u.failedAttempts.getD l.failedAttempts
  lockedUntil := u.lockedUntil.getD l.lockedUntil

/-- The update of the row of a factor. -/
def UserRows.write (db : UserRows) (factor : Factor) (u : RowUpdate) : UserRows :=
  match factor with
  | .totp =>
      { db with
        totp := db.totp.map fun row =>
          { u.lockout row.toLockout with
            secret := row.secret
            confirmedAt := u.confirmedAt.or row.confirmedAt } }
  | .email =>
      { db with
        email2fa := db.email2fa.map fun row =>
          { u.lockout row.toLockout with confirmedAt := u.confirmedAt.or row.confirmedAt } }

section

variable (deps : Deps) (cfg : Settings)

/-- The columns that a verdict changes. -/
def Judgement.update (j : Judgement) : RowUpdate :=
  let after := j.read.after cfg j.now j.ok
  { failedAttempts := changed j.read.failedAttempts after.failedAttempts
    lockedUntil := changed j.read.lockedUntil after.lockedUntil
    confirmedAt := j.confirmedAt }

def Judgement.outcome (j : Judgement) : CountOutcome :=
  if j.ok then .success
  else if cfg.totpMaxFailedAttempts ≤ j.read.failedAttempts + 1 then .lockout
  else .counted

/-- The row that `verify_confirmation` selects, if it has not expired. -/
def selectConfirmation (now : ℤ) (action code : String) (cs : List UserEmailConfirmation) :
    Option ℕ :=
  (cs.findIdx? fun c => c.isOutstanding action && decide (c.codeHash = deps.hashToken code)).filter
    fun index => !(cs[index]?).any fun c => decide (c.expiresAt < now)

/-- The code of an authenticator app is accepted. -/
def acceptsTotp (code : String) (row : UserTotp) (now : ℤ) : Bool :=
  deps.verifyTotp row.secret now code

def triesRecovery (code : String) (allowRecovery : Bool) (row : UserTotp) (now : ℤ) : Bool :=
  !acceptsTotp deps code row now && allowRecovery && row.confirmedAt.isSome

/-- The update of a recovery code finds an unused row. -/
def findsRecovery (db : UserRows) (code : String) (now : ℤ) : Bool :=
  (consumeRecoveryCode now (deps.hashToken code) db.recoveryCodes).2

/-- The wrong code that a call judges with its next step. -/
def CallPhase.judgesWrong (db : UserRows) (clock : ℤ) : CallPhase → Option Judgement
  | .readTotp code allowRecovery row now =>
      if acceptsTotp deps code row now ||
          triesRecovery deps code allowRecovery row now && findsRecovery deps db code clock then
        none
      else some { factor := .totp, read := row.toLockout, now := now, ok := false }
  | .readEmail action code read =>
      if (selectConfirmation deps clock action code db.confirmations).isSome then none
      else some { factor := .email, read := read.row.toLockout, now := read.now, ok := false }
  | _ => none

/-- The verdict on an emailed code that was accepted. -/
def EmailRead.accepted (read : EmailRead) : Judgement where
  factor := .email
  read := read.row.toLockout
  now := read.now
  ok := true
  confirmedAt :=
    if read.confirmEnrollment && read.row.confirmedAt.isNone then some read.now else none

/-- A step of a call: the call behind it, the committed rows, and the entry of the log; `none` if
the call has ended, or waits for a row that another call has written. -/
def CallState.advance (db : UserRows) (codeFree : OneTimeCode → Bool) (rowFree : Factor → Bool)
    (clock : ℤ) (q : CallState) : Option (CallState × UserRows × Option FactorEvent) :=
  match q.phase with
  | .called (.totp code allowRecovery) =>
      match db.totp with
      | none => some ({ q with phase := .done .refused }, db, none)
      | some row =>
          if row.isLocked clock then some ({ q with phase := .done .locked }, db, none)
          else some ({ q with phase := .readTotp code allowRecovery row clock }, db, none)
  | .called (.email action code confirmEnrollment) =>
      match db.email2fa with
      | none => some ({ q with phase := .done .refused }, db, none)
      | some row =>
          if row.isLocked clock then some ({ q with phase := .done .locked }, db, none)
          else some ({ q with phase := .readEmail action code ⟨row, clock, confirmEnrollment⟩ }, db,
            none)
  | .called (.confirmation action code) =>
      match selectConfirmation deps clock action code db.confirmations with
      | none => some ({ q with phase := .done .refused }, db, none)
      | some index => some ({ q with phase := .selected none index clock }, db, none)
  | .readTotp code allowRecovery row now =>
      if triesRecovery deps code allowRecovery row now &&
          !codeFree (.recovery (deps.hashToken code)) then none
      else
        match q.phase.judgesWrong deps db clock with
        | some j => some ({ q with phase := .judged j }, db, some (.wrong j.factor))
        | none =>
            let j : Judgement :=
              { factor := .totp
                read := row.toLockout
                now := now
                ok := true
                confirmedAt :=
                  if acceptsTotp deps code row now && row.confirmedAt.isNone then some now
                  else none }
            if acceptsTotp deps code row now then some ({ q with phase := .judged j }, db, none)
            else
              some (⟨.judged j, some (.recovery (deps.hashToken code), clock)⟩, db, none)
  | .readEmail action code read =>
      match selectConfirmation deps clock action code db.confirmations with
      | none =>
          let j : Judgement :=
            { factor := .email, read := read.row.toLockout, now := read.now, ok := false }
          some ({ q with phase := .judged j }, db, some (.wrong .email))
      | some index => some ({ q with phase := .selected (some read) index clock }, db, none)
  | .selected read index now =>
      if codeFree (.emailed index) then
        some (⟨.marked read, some (.emailed index, now)⟩, db, none)
      else none
  | .marked read =>
      some (⟨match read with
          | some read => .judged read.accepted
          | none => .done .accepted, none⟩,
        (q.consumed.map db.consume).getD db, some (.committed (q.consumed.map Prod.fst) none))
  | .judged j =>
      if (j.update cfg).isEmpty || rowFree j.factor then
        some ({ q with phase := .flushed j }, db, none)
      else none
  | .flushed j =>
      some (⟨.done (if j.ok then .accepted else .refused), none⟩,
        ((q.consumed.map db.consume).getD db).write j.factor (j.update cfg),
        some (.committed (q.consumed.map Prod.fst) (some (j.factor, j.outcome cfg))))
  | .done _ => none

/-! ## Runs -/

/-- A new call, or a step of one of the calls at a moment. -/
inductive FactorLabel
  | call (call : FactorCall)
  | advance (i : ℕ) (clock : ℤ)
  deriving DecidableEq, Repr

/-- No call has used up the code without having committed it. -/
def codeFree (calls : List CallState) (c : OneTimeCode) : Bool :=
  calls.all fun q => q.consumed.all fun used => decide (used.1 ≠ c)

/-- No call has written the row of the factor without having committed it. -/
def rowFree (calls : List CallState) (factor : Factor) : Bool :=
  calls.all fun q =>
    match q.phase with
    | .flushed j => decide (j.factor ≠ factor) || (j.update cfg).isEmpty
    | _ => true

def factorStep (s : FactorSystem) : FactorLabel → Option FactorSystem
  | .call call => some { s with calls := s.calls ++ [{ phase := .called call }] }
  | .advance i clock =>
      (s.calls[i]?).bind fun q =>
        (q.advance deps cfg s.db (codeFree s.calls) (rowFree cfg s.calls) clock).map
          fun (q', db, event) =>
            { db := db, calls := s.calls.set i q', log := s.log ++ event.toList }

end

/-- How often a code has been accepted. -/
def acceptedTimes (log : List FactorEvent) (c : OneTimeCode) : ℕ :=
  log.countP fun e =>
    match e with
    | .committed code _ => decide (code = some c)
    | .wrong _ => false

/-! ## What a step can do -/

/-- A wrong code that has been judged, and is not committed. -/
def CallPhase.pending : CallPhase → Option Judgement
  | .judged j | .flushed j => if j.ok then none else some j
  | _ => none

/-- The emailed code that has been read, and is not marked. -/
def CallPhase.selectedIndex : CallPhase → Option ℕ
  | .selected _ index _ => some index
  | _ => none

/-- What a step of a call can do. -/
inductive Move (deps : Deps) (cfg : Settings) (db : UserRows) (free : OneTimeCode → Bool)
    (clock : ℤ) : CallState → CallState → UserRows → Option FactorEvent → Prop
  /-- the call reads, or judges a code that is accepted -/
  | quiet {q : CallState} {phase : CallPhase} : q.phase.pending = none → phase.pending = none →
      Move deps cfg db free clock q { q with phase := phase } db none
  | flush {j : Judgement} {consumed : Option (OneTimeCode × ℤ)} :
      Move deps cfg db free clock ⟨.judged j, consumed⟩ ⟨.flushed j, consumed⟩ db none
  | wrong {q : CallState} {j : Judgement} : q.phase.judgesWrong deps db clock = some j →
      Move deps cfg db free clock q { q with phase := .judged j } db (some (.wrong j.factor))
  /-- the call uses up a code, and has not committed -/
  | consume {q : CallState} {phase : CallPhase} {c : OneTimeCode} {now : ℤ} :
      q.phase.pending = none → phase.pending = none → free c = true →
        (db.Unused c ∨ ∃ index ∈ q.phase.selectedIndex, c = .emailed index) →
          Move deps cfg db free clock q ⟨phase, some (c, now)⟩ db none
  | commitCode {q : CallState} {phase : CallPhase} : q.phase.pending = none →
      phase.pending = none →
        Move deps cfg db free clock q ⟨phase, none⟩ ((q.consumed.map db.consume).getD db)
          (some (.committed (q.consumed.map Prod.fst) none))
  | commit {j : Judgement} {consumed : Option (OneTimeCode × ℤ)} {verdict : Verdict} :
      Move deps cfg db free clock ⟨.flushed j, consumed⟩ ⟨.done verdict, none⟩
        (((consumed.map db.consume).getD db).write j.factor (j.update cfg))
        (some (.committed (consumed.map Prod.fst) (some (j.factor, j.outcome cfg))))

section

variable {deps : Deps} {cfg : Settings} {db db' : UserRows} {free : OneTimeCode → Bool}
  {row : Factor → Bool} {clock now : ℤ} {q q' : CallState} {event : Option FactorEvent}
  {j : Judgement}

theorem judgesWrong_ok (h : q.phase.judgesWrong deps db clock = some j) :
    j.ok = false ∧ q.phase.pending = none := by
  obtain ⟨phase, consumed⟩ := q
  cases phase with
  | readTotp code allowRecovery row now =>
    rw [CallPhase.judgesWrong] at h
    split at h
    · cases h
    · rw [← Option.some.inj h]
      exact ⟨rfl, rfl⟩
  | readEmail action code read =>
    rw [CallPhase.judgesWrong] at h
    split at h
    · cases h
    · rw [← Option.some.inj h]
      exact ⟨rfl, rfl⟩
  | called _ | selected _ _ _ | marked _ | judged _ | flushed _ | done _ =>
    exact absurd h (by simp [CallPhase.judgesWrong])

theorem unused_of_findsRecovery {code : String} (h : findsRecovery deps db code clock = true) :
    db.Unused (.recovery (deps.hashToken code)) := by
  have hone := of_decide_eq_true h
  exact List.countP_pos_iff.mp (by rw [hone]; exact Nat.one_pos)

section

variable {phase phase' : CallPhase} {consumed : Option (OneTimeCode × ℤ)}

theorem Move.of_quiet (hold : phase.pending = none) (hnew : phase'.pending = none)
    (h : some ((⟨phase', consumed⟩ : CallState), db, none) = some (q', db', event)) :
    Move deps cfg db free clock ⟨phase, consumed⟩ q' db' event := by
  obtain ⟨rfl, rfl, rfl⟩ : _ ∧ _ ∧ _ := by simpa using h
  exact Move.quiet hold hnew

theorem move_of_called {call : FactorCall}
    (h : CallState.advance deps cfg db free row clock ⟨.called call, consumed⟩ =
      some (q', db', event)) :
    Move deps cfg db free clock ⟨.called call, consumed⟩ q' db' event := by
  cases call with
  | totp code allowRecovery =>
    rw [CallState.advance] at h
    dsimp only at h
    split at h
    · exact Move.of_quiet rfl rfl h
    · split at h
      · exact Move.of_quiet rfl rfl h
      · exact Move.of_quiet rfl rfl h
  | email action code confirmEnrollment =>
    rw [CallState.advance] at h
    dsimp only at h
    split at h
    · exact Move.of_quiet rfl rfl h
    · split at h
      · exact Move.of_quiet rfl rfl h
      · exact Move.of_quiet rfl rfl h
  | confirmation action code =>
    rw [CallState.advance] at h
    dsimp only at h
    split at h
    · exact Move.of_quiet rfl rfl h
    · exact Move.of_quiet rfl rfl h

theorem move_of_readTotp {code : String} {allowRecovery : Bool} {totp : UserTotp}
    (h : CallState.advance deps cfg db free row clock ⟨.readTotp code allowRecovery totp now,
      consumed⟩ = some (q', db', event)) :
    Move deps cfg db free clock ⟨.readTotp code allowRecovery totp now, consumed⟩ q' db' event := by
  rw [CallState.advance] at h
  dsimp only at h
  split at h
  · cases h
  · rename_i hwait
    split at h
    · rename_i j hjudges
      obtain ⟨rfl, rfl, rfl⟩ : _ ∧ _ ∧ _ := by simpa using h
      exact Move.wrong hjudges
    · rename_i hjudges
      split at h
      · exact Move.of_quiet rfl rfl h
      · rename_i haccepts
        -- the code is none of the app's, and was not found wrong: it is a recovery code
        rw [CallPhase.judgesWrong] at hjudges
        split at hjudges
        · rename_i hok
          rw [Bool.not_eq_true] at haccepts
          rw [haccepts, Bool.false_or, Bool.and_eq_true] at hok
          rw [hok.1, Bool.true_and, Bool.not_eq_true', Bool.not_eq_false] at hwait
          obtain ⟨rfl, rfl, rfl⟩ : _ ∧ _ ∧ _ := by simpa using h
          exact Move.consume rfl rfl hwait (Or.inl (unused_of_findsRecovery hok.2))
        · cases hjudges

theorem move_of_readEmail {action code : String} {read : EmailRead}
    (h : CallState.advance deps cfg db free row clock ⟨.readEmail action code read, consumed⟩ =
      some (q', db', event)) :
    Move deps cfg db free clock ⟨.readEmail action code read, consumed⟩ q' db' event := by
  rw [CallState.advance] at h
  dsimp only at h
  split at h
  · rename_i hselect
    obtain ⟨rfl, rfl, rfl⟩ : _ ∧ _ ∧ _ := by simpa using h
    refine Move.wrong (q := ⟨.readEmail action code read, consumed⟩)
      (j := { factor := .email, read := read.row.toLockout, now := read.now, ok := false }) ?_
    rw [CallPhase.judgesWrong, hselect]
    rfl
  · exact Move.of_quiet rfl rfl h

end

/-- **A step of a call** is one of these moves. -/
theorem move_of_advance (h : q.advance deps cfg db free row clock = some (q', db', event)) :
    Move deps cfg db free clock q q' db' event := by
  obtain ⟨phase, consumed⟩ := q
  cases phase with
  | called call => exact move_of_called h
  | readTotp code allowRecovery totp now => exact move_of_readTotp h
  | readEmail action code read => exact move_of_readEmail h
  | selected read index now =>
    rw [CallState.advance] at h
    dsimp only at h
    split at h
    · rename_i hfree
      obtain ⟨rfl, rfl, rfl⟩ : _ ∧ _ ∧ _ := by simpa using h
      exact Move.consume rfl rfl hfree (Or.inr ⟨index, rfl, rfl⟩)
    · cases h
  | marked read =>
    rw [CallState.advance] at h
    obtain ⟨rfl, rfl, rfl⟩ : _ ∧ _ ∧ _ := by simpa using h
    refine Move.commitCode rfl ?_
    cases read with
    | none => rfl
    | some read => rfl
  | judged j =>
    rw [CallState.advance] at h
    dsimp only at h
    split at h
    · obtain ⟨rfl, rfl, rfl⟩ : _ ∧ _ ∧ _ := by simpa using h
      exact Move.flush
    · cases h
  | flushed j =>
    rw [CallState.advance] at h
    obtain ⟨rfl, rfl, rfl⟩ : _ ∧ _ ∧ _ := by simpa using h
    exact Move.commit
  | done verdict => exact absurd h (by simp [CallState.advance])

end

/-! ## Codes -/

/-- The call has used up the code, and not committed. -/
def CallState.Holds (q : CallState) (c : OneTimeCode) : Prop := ∃ now, q.consumed = some (c, now)

/-- What holds of a code throughout: no more than one call has used it up without having committed
it, nobody has accepted it before, and it is not accepted twice. -/
structure CodeOnce (c : OneTimeCode) (s : FactorSystem) : Prop where
  one : ∀ (i k : ℕ) (q r : CallState), s.calls[i]? = some q → s.calls[k]? = some r →
    q.Holds c → r.Holds c → i = k
  fresh : ∀ (i : ℕ) (q : CallState), s.calls[i]? = some q → q.Holds c →
    acceptedTimes s.log c = 0
  once : acceptedTimes s.log c ≤ 1
  spent : s.db.Unused c → acceptedTimes s.log c = 0

section

variable {c : OneTimeCode} {s : FactorSystem} {db : UserRows} {calls : List CallState}
  {i k : ℕ} {q q' r : CallState} {now : ℤ}

theorem getElem?_set_cases (h : (calls.set i q')[k]? = some r) :
    (k = i ∧ r = q') ∨ (k ≠ i ∧ calls[k]? = some r) := by
  rw [List.getElem?_set] at h
  by_cases hk : i = k
  · rw [if_pos hk] at h
    split at h
    · exact Or.inl ⟨hk.symm, (Option.some.inj h).symm⟩
    · cases h
  · rw [if_neg hk] at h
    exact Or.inr ⟨fun hsame => hk hsame.symm, h⟩

theorem not_unused_consume : ¬ (db.consume (c, now)).Unused c := by
  cases c with
  | recovery hash =>
    rintro ⟨d, hd, hmatches⟩
    obtain ⟨e, -, rfl⟩ := List.mem_map.mp hd
    split at hmatches
    · rw [UserRecoveryCode.matches, Option.isNone_some, Bool.and_false] at hmatches
      exact Bool.false_ne_true hmatches
    · rename_i hnot
      exact hnot hmatches
  | emailed index =>
    rintro ⟨d, hd, hnone⟩
    change d ∈ (db.confirmations.modify index _)[index]? at hd
    rw [List.getElem?_modify_eq] at hd
    obtain ⟨e, -, rfl⟩ := Option.map_eq_some_iff.mp hd
    cases hnone

theorem unused_of_consume {used : OneTimeCode × ℤ} (h : (db.consume used).Unused c) :
    db.Unused c := by
  obtain ⟨used, now⟩ := used
  cases used with
  | recovery hash =>
    cases c with
    | recovery hash' =>
      obtain ⟨d, hd, hmatches⟩ := h
      obtain ⟨e, he, rfl⟩ := List.mem_map.mp hd
      split at hmatches
      · rw [UserRecoveryCode.matches, Option.isNone_some, Bool.and_false] at hmatches
        exact absurd hmatches Bool.false_ne_true
      · exact ⟨e, he, hmatches⟩
    | emailed index => exact h
  | emailed index =>
    cases c with
    | recovery hash => exact h
    | emailed index' =>
      obtain ⟨d, hd, hnone⟩ := h
      change d ∈ (db.confirmations.modify index _)[index']? at hd
      rw [List.getElem?_modify] at hd
      obtain ⟨e, he, rfl⟩ := Option.map_eq_some_iff.mp hd
      refine ⟨e, he, ?_⟩
      split at hnone
      · cases hnone
      · exact hnone

theorem unused_write {factor : Factor} {u : RowUpdate} :
    (db.write factor u).Unused c ↔ db.Unused c := by
  cases factor <;> cases c <;> rfl

theorem unused_commit {consumed : Option (OneTimeCode × ℤ)}
    (h : ((consumed.map db.consume).getD db).Unused c) :
    db.Unused c ∧ consumed.map Prod.fst ≠ some c := by
  cases consumed with
  | none => exact ⟨h, by simp⟩
  | some used =>
    refine ⟨unused_of_consume h, fun hsame => ?_⟩
    obtain rfl := Option.some.inj hsame
    exact not_unused_consume h

theorem acceptedTimes_of_accepts (log : List FactorEvent)
    (outcome : Option (Factor × CountOutcome)) :
    acceptedTimes (log ++ [.committed (some c) outcome]) c = acceptedTimes log c + 1 := by
  rw [acceptedTimes, List.countP_append, List.countP_singleton]
  exact congrArg _ (if_pos (decide_eq_true rfl))

theorem acceptedTimes_of_other {e : FactorEvent} (log : List FactorEvent)
    (h : ∀ outcome, e ≠ .committed (some c) outcome) :
    acceptedTimes (log ++ [e]) c = acceptedTimes log c := by
  rw [acceptedTimes, List.countP_append, List.countP_singleton]
  refine congrArg _ (if_neg fun haccepts => ?_)
  cases e with
  | wrong factor => exact Bool.false_ne_true haccepts
  | committed code outcome => exact h outcome (congrArg (FactorEvent.committed · outcome)
      (of_decide_eq_true haccepts))

theorem CodeOnce.keep (h : CodeOnce c s) (hq : s.calls[i]? = some q)
    (hholds : q'.Holds c → q.Holds c) {e : Option FactorEvent}
    (he : ∀ a ∈ e, ∀ outcome, a ≠ .committed (some c) outcome) {db' : UserRows}
    (hdb : db'.Unused c → s.db.Unused c) :
    CodeOnce c { db := db', calls := s.calls.set i q', log := s.log ++ e.toList } := by
  have hlog : acceptedTimes (s.log ++ e.toList) c = acceptedTimes s.log c := by
    cases e with
    | none => rw [Option.toList_none, List.append_nil]
    | some e => rw [Option.toList_some, acceptedTimes_of_other s.log (he e rfl)]
  have hback : ∀ {k : ℕ} {r : CallState}, (s.calls.set i q')[k]? = some r → r.Holds c →
      ∃ r', s.calls[k]? = some r' ∧ r'.Holds c := by
    intro k r hr hrc
    rcases getElem?_set_cases hr with ⟨rfl, rfl⟩ | ⟨-, hr⟩
    · exact ⟨q, hq, hholds hrc⟩
    · exact ⟨r, hr, hrc⟩
  refine ⟨fun k l r t hr ht hrc htc => ?_, fun k r hr hrc => ?_, ?_, fun hunused => ?_⟩
  · obtain ⟨r', hr', hrc'⟩ := hback hr hrc
    obtain ⟨t', ht', htc'⟩ := hback ht htc
    exact h.one k l r' t' hr' ht' hrc' htc'
  · obtain ⟨r', hr', hrc'⟩ := hback hr hrc
    exact hlog.trans (h.fresh k r' hr' hrc')
  · exact hlog ▸ h.once
  · exact hlog.trans (h.spent (hdb hunused))

theorem CodeOnce.use (h : CodeOnce c s) (hfree : codeFree s.calls c = true)
    (hunused : s.db.Unused c) : CodeOnce c { s with calls := s.calls.set i q' } := by
  have hnone : ∀ {k : ℕ} {r : CallState}, s.calls[k]? = some r → ¬ r.Holds c := by
    rintro k r hr ⟨now, hconsumed⟩
    have hall := List.all_eq_true.mp hfree r (List.mem_of_getElem? hr)
    rw [hconsumed] at hall
    exact of_decide_eq_true hall rfl
  have honly : ∀ {k : ℕ} {r : CallState}, (s.calls.set i q')[k]? = some r → r.Holds c → k = i := by
    intro k r hr hrc
    rcases getElem?_set_cases hr with ⟨hk, -⟩ | ⟨-, hr⟩
    · exact hk
    · exact absurd hrc (hnone hr)
  exact ⟨fun k l r t hr ht hrc htc => (honly hr hrc).trans (honly ht htc).symm,
    fun k r hr hrc => h.spent hunused, h.once, h.spent⟩

theorem CodeOnce.accept (h : CodeOnce c s) (hq : s.calls[i]? = some q) (hqc : q.Holds c)
    (hnot : ¬ q'.Holds c) (outcome : Option (Factor × CountOutcome)) {db' : UserRows}
    (hdb : ¬ db'.Unused c) :
    CodeOnce c { db := db', calls := s.calls.set i q'
                 log := s.log ++ [.committed (some c) outcome] } := by
  have hnone : ∀ {k : ℕ} {r : CallState}, (s.calls.set i q')[k]? = some r → ¬ r.Holds c := by
    intro k r hr hrc
    rcases getElem?_set_cases hr with ⟨-, rfl⟩ | ⟨hk, hr⟩
    · exact hnot hrc
    · exact hk (h.one k i r q hr hq hrc hqc)
  have hzero := h.fresh i q hq hqc
  refine ⟨fun k l r t hr ht hrc htc => absurd hrc (hnone hr),
    fun k r hr hrc => absurd hrc (hnone hr), ?_, fun hunused => absurd hunused hdb⟩
  show acceptedTimes (s.log ++ [.committed (some c) outcome]) c ≤ 1
  exact Nat.le_of_eq ((acceptedTimes_of_accepts s.log outcome).trans (congrArg (· + 1) hzero))

theorem CodeOnce.committed (h : CodeOnce c s) (hq : s.calls[i]? = some q)
    (hnone : q'.consumed = none) {outcome : Option (Factor × CountOutcome)} {db' : UserRows}
    (hdb : db'.Unused c → s.db.Unused c ∧ q.consumed.map Prod.fst ≠ some c) :
    CodeOnce c { db := db', calls := s.calls.set i q'
                 log := s.log ++ [.committed (q.consumed.map Prod.fst) outcome] } := by
  have hnot : ¬ q'.Holds c := by
    rintro ⟨now, hconsumed⟩
    exact absurd (hnone.symm.trans hconsumed) (by simp)
  by_cases hqc : q.Holds c
  · obtain ⟨now, hconsumed⟩ := hqc
    have hcode : q.consumed.map Prod.fst = some c := by
      rw [hconsumed]
      rfl
    rw [hcode]
    exact h.accept hq ⟨now, hconsumed⟩ hnot outcome fun hunused => (hdb hunused).2 hcode
  · refine h.keep hq (fun hholds => absurd hholds hnot)
      (e := some (.committed (q.consumed.map Prod.fst) outcome)) (fun a ha outcome' heq => ?_)
      fun hunused => (hdb hunused).1
    rw [← Option.some.inj (Option.mem_def.mp ha)] at heq
    obtain ⟨⟨code, now⟩, hconsumed, hcode⟩ :=
      Option.map_eq_some_iff.mp (FactorEvent.committed.inj heq).1
    refine hqc ⟨now, hconsumed.trans ?_⟩
    rw [← hcode]

variable {deps : Deps} {cfg : Settings} {s' : FactorSystem} {label : FactorLabel}

/-- An emailed code is marked while it is unused. -/
def MarksUnused (s : FactorSystem) : FactorLabel → Prop
  | .call _ => True
  | .advance i _ => ∀ q ∈ s.calls[i]?, ∀ index ∈ q.phase.selectedIndex,
      s.db.Unused (.emailed index)

theorem CodeOnce.move {clock : ℤ} {db' : UserRows} {event : Option FactorEvent} (h : CodeOnce c s)
    (hq : s.calls[i]? = some q) (hmove : Move deps cfg s.db (codeFree s.calls) clock q q' db' event)
    (hmarks : ∀ index ∈ q.phase.selectedIndex, c = .emailed index → s.db.Unused c) :
    CodeOnce c { db := db', calls := s.calls.set i q', log := s.log ++ event.toList } := by
  have hsilent : ∀ a ∈ (none : Option FactorEvent), ∀ outcome, a ≠ .committed (some c) outcome :=
    fun a ha => absurd ha (by simp)
  cases hmove with
  | quiet _ _ =>
    refine h.keep hq ?_ hsilent id
    exact fun hholds => hholds
  | flush =>
    refine h.keep hq ?_ hsilent id
    exact fun hholds => hholds
  | wrong _ =>
    refine h.keep hq ?_ (fun a ha outcome heq => ?_) id
    · exact fun hholds => hholds
    · rw [← Option.some.inj (Option.mem_def.mp ha)] at heq
      cases heq
  | @consume _ phase used now _ _ hfree hused =>
    by_cases hsame : used = c
    · subst hsame
      rw [Option.toList_none, List.append_nil]
      refine h.use hfree ?_
      rcases hused with hunused | ⟨index, hindex, hemailed⟩
      · exact hunused
      · exact hmarks index hindex hemailed
    · refine h.keep hq ?_ hsilent id
      rintro ⟨now', hconsumed⟩
      exact absurd (Prod.mk.inj (Option.some.inj hconsumed)).1 hsame
  | commitCode _ _ => exact h.committed hq rfl unused_commit
  | commit => exact h.committed hq rfl fun hunused => unused_commit (unused_write.mp hunused)

/-- **Codes**: a step keeps a code, unless it marks it when it has been used. -/
theorem codeOnce_step (h : CodeOnce c s)
    (hmarks : (∃ index, c = .emailed index) → MarksUnused s label)
    (hstep : factorStep deps cfg s label = some s') : CodeOnce c s' := by
  cases label with
  | call call =>
    obtain rfl := Option.some.inj hstep
    have hback : ∀ {k : ℕ} {r : CallState},
        (s.calls ++ [{ phase := .called call }])[k]? = some r → r.Holds c →
          s.calls[k]? = some r := by
      intro k r hr hrc
      rw [List.getElem?_append] at hr
      split at hr
      · exact hr
      · obtain ⟨now, hconsumed⟩ := hrc
        have hmem := List.mem_singleton.mp (List.mem_of_getElem? hr)
        rw [hmem] at hconsumed
        cases hconsumed
    exact ⟨fun k l r t hr ht hrc htc => h.one k l r t (hback hr hrc) (hback ht htc) hrc htc,
      fun k r hr hrc => h.fresh k r (hback hr hrc) hrc, h.once, h.spent⟩
  | advance i clock =>
    obtain ⟨q, hq, hadvance⟩ := Option.bind_eq_some_iff.mp hstep
    obtain ⟨⟨q', db', event⟩, hmoved, rfl⟩ := Option.map_eq_some_iff.mp hadvance
    refine h.move hq (move_of_advance hmoved) fun index hindex hemailed => ?_
    rw [hemailed]
    exact hmarks ⟨index, hemailed⟩ q hq index hindex

theorem codeOnce_start (db : UserRows) (c : OneTimeCode) : CodeOnce c { db := db } :=
  ⟨fun _ _ _ _ h => absurd h (by simp), fun _ _ h => absurd h (by simp), Nat.zero_le _,
    fun _ => rfl⟩

end

end Auth

end AdviserConstructor
