import Mathlib.Data.Int.Notation
import Mathlib.Data.List.Basic

/-!
# Second factors

`app/services/totp.py`, `app/services/email_2fa.py`, `app/services/email_confirm.py` and
`app/services/two_factor.py`: a user has up to two second factors, a shared secret of an
authenticator app and the mailbox of the account.  Each has a row that is pending until a code
confirms it, and each is locked for a while after too many wrong codes.

`pyotp` and the digest of the stored codes are given, the database transactions of a request are
taken together, and the secrets and codes that a request draws at random come with it.

* `totpVerify_refused`: a code that is neither accepted nor a recovery code changes no more than the
  count of the wrong codes.
* `emailVerify_refused`: nor does a code that was not emailed.
-/

namespace AdviserConstructor

namespace Auth

/-- What is used of `pyotp` and of `hashlib`. -/
structure Deps where
  /-- `pyotp.TOTP(secret).verify(code, valid_window=1)` at a time. -/
  verifyTotp : String → ℤ → String → Bool
  hashToken : String → String

/-- The settings; `mailConfigured` says that a mail provider is. -/
structure Settings where
  mailConfigured : Bool := true
  totpMaxFailedAttempts : ℕ := 5
  totpLockoutMinutes : ℕ := 15
  emailConfirmCodeTtlMinutes : ℕ := 10
  jwtStepUpTokenExpireMinutes : ℕ := 5
  stepUpRequire2fa : Bool := false

/-- The columns of either factor that count its wrong codes. -/
structure Lockout where
  failedAttempts : ℕ := 0
  lockedUntil : Option ℤ := none
  deriving DecidableEq, Repr

/-- `UserTotp`. -/
structure UserTotp extends Lockout where
  secret : String
  confirmedAt : Option ℤ := none
  deriving DecidableEq, Repr

/-- `UserEmail2FA`. -/
structure UserEmail2FA extends Lockout where
  confirmedAt : Option ℤ := none
  deriving DecidableEq, Repr

/-- `UserRecoveryCode`. -/
structure UserRecoveryCode where
  codeHash : String
  usedAt : Option ℤ := none
  deriving DecidableEq, Repr

/-- `UserEmailConfirmation`. -/
structure UserEmailConfirmation where
  action : String
  codeHash : String
  expiresAt : ℤ
  consumedAt : Option ℤ := none
  deriving DecidableEq, Repr

/-- What is stored of a user; the newest confirmation comes first. -/
structure UserRows where
  email : String
  totp : Option UserTotp := none
  recoveryCodes : List UserRecoveryCode := []
  email2fa : Option UserEmail2FA := none
  confirmations : List UserEmailConfirmation := []
  usedJtis : List String := []
  deriving DecidableEq, Repr

/-- What a verification comes to. -/
inductive Verdict where
  | locked | refused | accepted
  deriving DecidableEq, Repr

/-! ## Lockouts -/

def Lockout.isLocked (l : Lockout) (now : ℤ) : Bool := l.lockedUntil.any fun u => decide (now < u)

/-- The lockout behind a verification. -/
def Lockout.after (cfg : Settings) (now : ℤ) (ok : Bool) (l : Lockout) : Lockout :=
  if ok then { failedAttempts := 0, lockedUntil := none }
  else if cfg.totpMaxFailedAttempts ≤ l.failedAttempts + 1 then
    { failedAttempts := 0, lockedUntil := some (now + cfg.totpLockoutMinutes * 60) }
  else { l with failedAttempts := l.failedAttempts + 1 }

section

variable (deps : Deps) (cfg : Settings)

/-! ## Authenticator apps -/

/-- `TotpService.is_enabled`. -/
def UserRows.totpEnabled (s : UserRows) : Bool := s.totp.any fun row => row.confirmedAt.isSome

/-- `TotpService.enroll`, where `secret` and `codes` have been drawn. -/
def totpEnroll (secret : String) (codes : List String) (s : UserRows) : UserRows :=
  let lockout : Lockout := (s.totp.map UserTotp.toLockout).getD {}
  { s with
    totp := some { lockout with secret := secret, confirmedAt := none }
    recoveryCodes := codes.map fun code => { codeHash := deps.hashToken code } }

/-- The recovery code is the one asked for, and unused. -/
def UserRecoveryCode.matches (hash : String) (c : UserRecoveryCode) : Bool :=
  decide (c.codeHash = hash) && c.usedAt.isNone

/-- `_consume_recovery_code`: the codes behind the update, and whether one row was updated. -/
def consumeRecoveryCode (now : ℤ) (hash : String) (codes : List UserRecoveryCode) :
    List UserRecoveryCode × Bool :=
  (codes.map fun c => if c.matches hash then { c with usedAt := some now } else c,
    decide (codes.countP (UserRecoveryCode.matches hash) = 1))

/-- `TotpService.verify`. -/
def totpVerify (now : ℤ) (code : String) (allowRecovery : Bool) (s : UserRows) :
    UserRows × Verdict :=
  match s.totp with
  | none => (s, .refused)
  | some row =>
      if row.isLocked now then (s, .locked)
      else
        let accepted := deps.verifyTotp row.secret now code
        let confirmedAt :=
          if accepted && row.confirmedAt.isNone then some now else row.confirmedAt
        let consumed : List UserRecoveryCode × Bool :=
          if !accepted && allowRecovery && confirmedAt.isSome then
            consumeRecoveryCode now (deps.hashToken code) s.recoveryCodes
          else (s.recoveryCodes, false)
        let ok := accepted || consumed.2
        ({ s with
            totp := some { row.toLockout.after cfg now ok with
              secret := row.secret
              confirmedAt := confirmedAt }
            recoveryCodes := consumed.1 },
          if ok then .accepted else .refused)

/-- `TotpService.disable`. -/
def totpDisable (s : UserRows) : UserRows := { s with totp := none, recoveryCodes := [] }

/-! ## Emailed codes -/

/-- The confirmation is of an action, and unused. -/
def UserEmailConfirmation.isOutstanding (action : String) (c : UserEmailConfirmation) : Bool :=
  decide (c.action = action) && c.consumedAt.isNone

/-- `request_confirmation`, where `code` has been drawn; the email goes out afterwards. -/
def requestConfirmation (now : ℤ) (action code : String) (s : UserRows) : UserRows :=
  { s with
    confirmations :=
      { action := action
        codeHash := deps.hashToken code
        expiresAt := now + cfg.emailConfirmCodeTtlMinutes * 60 } ::
      s.confirmations.map fun c =>
        if c.isOutstanding action then { c with consumedAt := some now } else c }

/-- The newest outstanding code of an action is used up, if it is the one and has not expired. -/
def consumeConfirmation (now : ℤ) (action hash : String) :
    List UserEmailConfirmation → Option (List UserEmailConfirmation)
  | [] => none
  | c :: cs =>
      if c.isOutstanding action ∧ c.codeHash = hash then
        if c.expiresAt < now then none else some ({ c with consumedAt := some now } :: cs)
      else (consumeConfirmation now action hash cs).map fun cs => c :: cs

/-- `verify_confirmation`. -/
def verifyConfirmation (now : ℤ) (action code : String) (s : UserRows) : UserRows × Bool :=
  match consumeConfirmation now action (deps.hashToken code) s.confirmations with
  | none => (s, false)
  | some confirmations => ({ s with confirmations := confirmations }, true)

/-- `ACTION_ENROLL`. -/
def actionEnroll : String := "email_2fa_enroll"

/-- `ACTION_STEP_UP`. -/
def actionStepUp : String := "email_2fa_step_up"

/-- `email_2fa.is_enabled`. -/
def UserRows.emailEnabled (s : UserRows) : Bool := s.email2fa.any fun row => row.confirmedAt.isSome

/-- `send_enrollment_code`. -/
def sendEnrollmentCode (now : ℤ) (code : String) (s : UserRows) : UserRows :=
  requestConfirmation deps cfg now actionEnroll code
    { s with email2fa := some (s.email2fa.getD {}) }

/-- `email_2fa.verify`. -/
def emailVerify (now : ℤ) (action code : String) (confirmEnrollment : Bool) (s : UserRows) :
    UserRows × Verdict :=
  match s.email2fa with
  | none => (s, .refused)
  | some row =>
      if row.isLocked now then (s, .locked)
      else
        let checked := verifyConfirmation deps now action code s
        let ok := checked.2
        let confirmedAt :=
          if ok && confirmEnrollment && row.confirmedAt.isNone then some now else row.confirmedAt
        ({ checked.1 with
            email2fa := some { row.toLockout.after cfg now ok with confirmedAt := confirmedAt } },
          if ok then .accepted else .refused)

/-- `email_2fa.disable`. -/
def emailDisable (s : UserRows) : UserRows := { s with email2fa := none }

/-- `has_second_factor`. -/
def hasSecondFactor (s : UserRows) : Bool :=
  s.totpEnabled || (cfg.mailConfigured && s.emailEnabled)

end

/-! ## What a wrong code changes -/

section

variable {deps : Deps} {cfg : Settings} {s : UserRows} {now : ℤ} {code action : String}
  {flag : Bool}

theorem consumeRecoveryCode_refused {hash : String} {codes : List UserRecoveryCode}
    (h : ∀ c ∈ codes, c.codeHash ≠ hash) :
    consumeRecoveryCode now hash codes = (codes, false) := by
  have hnone : ∀ c ∈ codes, c.matches hash = false := fun c hc => by
    rw [UserRecoveryCode.matches, decide_eq_false (h c hc), Bool.false_and]
  have hmap : codes.map (fun c => if c.matches hash then { c with usedAt := some now } else c) =
      codes := by
    conv_rhs => rw [← List.map_id codes]
    refine List.map_congr_left fun c hc => ?_
    rw [hnone c hc]
    rfl
  have hcount : codes.countP (UserRecoveryCode.matches hash) = 0 :=
    List.countP_eq_zero.mpr fun c hc => by rw [hnone c hc]; nofun
  rw [consumeRecoveryCode, hmap, hcount]
  rfl

/-- **A wrong code of an authenticator app** changes no more than the count of the wrong codes. -/
theorem totpVerify_refused {row : UserTotp} (hrow : s.totp = some row)
    (hcode : deps.verifyTotp row.secret now code = false)
    (hrecovery : ∀ c ∈ s.recoveryCodes, c.codeHash ≠ deps.hashToken code) :
    ∃ lockout : Lockout, (totpVerify deps cfg now code flag s).1 =
        { s with totp := some { lockout with
            secret := row.secret
            confirmedAt := row.confirmedAt } } ∧
      (totpVerify deps cfg now code flag s).2 ≠ .accepted := by
  rw [totpVerify, hrow]
  by_cases hlocked : row.isLocked now = true
  · simp only [hlocked, if_true]
    refine ⟨row.toLockout, ?_, nofun⟩
    rw [← hrow]
  · have hconsumed : (if !false && flag && row.confirmedAt.isSome then
        consumeRecoveryCode now (deps.hashToken code) s.recoveryCodes
        else (s.recoveryCodes, false)) = (s.recoveryCodes, false) := by
      rw [consumeRecoveryCode_refused hrecovery, ite_self]
    simp only [hlocked, hcode, Bool.false_and, Bool.false_eq_true, if_false, hconsumed]
    exact ⟨_, rfl, nofun⟩

/-- No outstanding code has the digest of a code. -/
def NotEmailed (deps : Deps) (s : UserRows) (code : String) : Prop :=
  ∀ c ∈ s.confirmations, c.consumedAt = none → c.codeHash ≠ deps.hashToken code

theorem verifyConfirmation_refused (h : NotEmailed deps s code) :
    verifyConfirmation deps now action code s = (s, false) := by
  have hnone : ∀ cs : List UserEmailConfirmation,
      (∀ c ∈ cs, c.consumedAt = none → c.codeHash ≠ deps.hashToken code) →
        consumeConfirmation now action (deps.hashToken code) cs = none := by
    intro cs hcs
    induction cs with
    | nil => rfl
    | cons c cs ih =>
      have hother : ¬(c.isOutstanding action = true ∧ c.codeHash = deps.hashToken code) := by
        rintro ⟨houtstanding, hhash⟩
        rw [UserEmailConfirmation.isOutstanding, Bool.and_eq_true,
          Option.isNone_iff_eq_none] at houtstanding
        exact hcs c List.mem_cons_self houtstanding.2 hhash
      rw [consumeConfirmation, if_neg hother, ih fun d hd => hcs d (List.mem_cons_of_mem c hd)]
      rfl
  rw [verifyConfirmation, hnone s.confirmations h]

/-- **A code that was not emailed** changes no more than the count of the wrong codes. -/
theorem emailVerify_refused (h : NotEmailed deps s code) :
    (emailVerify deps cfg now action code flag s).2 ≠ .accepted ∧
      ((emailVerify deps cfg now action code flag s).1 = s ∨
        ∃ row lockout, s.email2fa = some row ∧ (emailVerify deps cfg now action code flag s).1 =
          { s with email2fa := some { (lockout : Lockout) with
              confirmedAt := row.confirmedAt } }) := by
  rw [emailVerify]
  cases hrow : s.email2fa with
  | none => exact ⟨nofun, .inl rfl⟩
  | some row =>
    by_cases hlocked : row.isLocked now = true
    · simp only [hlocked, if_true]
      exact ⟨nofun, .inl trivial⟩
    · simp only [hlocked, verifyConfirmation_refused h, Bool.false_eq_true, if_false]
      exact ⟨nofun, .inr ⟨row, _, rfl, rfl⟩⟩

end

end Auth

end AdviserConstructor
