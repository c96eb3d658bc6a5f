import AdviserConstructor.Auth.SecondFactors
import AdviserConstructor.Library.StepSystem

/-!
# Step-up

`app/api/v1/endpoints/auth.py` and `app/api/deps.py`: a critical request needs a step-up token,
which is minted for a fresh code of a second factor.  A factor is disabled by a critical request,
but enrolled by an ordinary one: an authenticator app unless there is one already, and the mailbox
at any time.

The requests are those that are made with the access token of one user.  What a party makes of them
who has the access token and nothing else is a run of such requests, in which it presents no code of
a factor that was there before.

* `gate_refused`: without a token that was minted for the user, nothing critical is done.
* `sessionOnly_iff`: whatever such a party asks for, no token is minted, no critical request passes
  and no factor is lost, exactly if an authenticator app was enrolled before and the party does not
  read the mail of the account.
* `sessionOnly_strips_email`: a party that enrols an authenticator app of its own disables the
  mailbox of a user who had no app.
-/

namespace AdviserConstructor

namespace Auth

/-! ## Requests -/

/-- The claims of a step-up token. -/
structure StepUpToken where
  subject : String
  jti : String
  expiresAt : ℤ
  deriving DecidableEq, Repr

/-- The header `X-Step-Up-Token`. -/
inductive StepUpHeader where
  | missing
  /-- what is presented is not a step-up token that the server has signed -/
  | invalid
  | token (t : StepUpToken)
  deriving DecidableEq, Repr

/-- `StepUpRequest.method`. -/
inductive Method where
  | totp | email
  deriving DecidableEq, Repr

/-- The requests of a user.  `allowed` is the answer of the rate limiter, `delivered` that of the
mail provider, `recorded` says that Redis has answered, and the secrets, codes and identifiers that
are not presented are those that the server draws. -/
inductive Request where
  | enroll2fa (secret : String) (codes : List String)
  | verify2fa (code : String)
  | status2fa
  | requestStepUpEmailCode (allowed : Bool) (drawn : String) (delivered : Bool)
  | stepUp2fa (method : Method) (code jti : String)
  | disable2fa (header : StepUpHeader) (recorded : Bool)
  | enrollEmail2fa (allowed : Bool) (drawn : String) (delivered : Bool)
  | confirmEmail2fa (allowed : Bool) (code : String)
  | statusEmail2fa
  | disableEmail2fa (header : StepUpHeader) (recorded : Bool)
  | requestEmailConfirmation (allowed : Bool) (action drawn : String) (delivered : Bool)
  | verifyEmailConfirmation (allowed : Bool) (action code : String)
  /-- any other endpoint that depends on `RequireStepUp` -/
  | critical (header : StepUpHeader) (recorded : Bool)
  deriving DecidableEq, Repr

/-- The body of a reply. -/
inductive Body where
  | detail (text : String)
  | totpEnroll (secret : String) (codes : List String)
  | enabled (enabled : Bool)
  | emailStatus (enabled available : Bool)
  | sent
  | stepUp (t : StepUpToken)
  | confirmed (confirmed : Bool)
  | done
  deriving DecidableEq, Repr

/-- A reply; `authorized` says that `require_step_up` has let the request pass. -/
structure Reply where
  status : ℕ
  body : Body
  authorized : Bool := false
  deriving DecidableEq, Repr

def refuse (status : ℕ) (text : String) : Reply where
  status := status
  body := .detail text

/-- `_locked_response`. -/
def lockedResponse : Reply := refuse 429 "Too many 2FA attempts. Try again later."

def rateLimited (text : String) : Reply := refuse 429 text

section

variable (deps : Deps) (cfg : Settings)

/-! ## The gate -/

/-- `require_step_up`: the rows behind it, and the refusal, unless the request passes. -/
def requireStepUp (now : ℤ) (header : StepUpHeader) (recorded : Bool) (s : UserRows) :
    UserRows × Option Reply :=
  if !hasSecondFactor cfg s then
    if cfg.stepUpRequire2fa then
      (s, some (refuse 403
        "This action requires two-factor authentication. Enable 2FA first."))
    else (s, none)
  else
    match header with
    | .missing | .invalid =>
        (s, some (refuse 403 "A valid step-up (2FA) authorization is required for this action."))
    | .token t =>
        if t.expiresAt < now then
          (s, some (refuse 403 "Step-up authorization has expired — re-enter your 2FA code."))
        else if t.subject ≠ s.email then
          (s, some (refuse 403 "Step-up authorization does not match the current user."))
        else if !recorded || t.jti ∈ s.usedJtis then
          (s, some (refuse 403 "This step-up authorization has already been used."))
        else ({ s with usedJtis := t.jti :: s.usedJtis }, none)

/-- A request behind the gate that changes the rows by `change`. -/
def gated (now : ℤ) (header : StepUpHeader) (recorded : Bool) (change : UserRows → UserRows)
    (body : Body) (s : UserRows) : UserRows × Reply :=
  match requireStepUp cfg now header recorded s with
  | (s, some reply) => (s, reply)
  | (s, none) => (change s, { status := 200, body := body, authorized := true })

/-! ## Endpoints -/

def verdictReply (text : String) (accepted : Reply) : Verdict → Reply
  | .locked => lockedResponse
  | .refused => refuse 400 text
  | .accepted => accepted

/-- The reply behind an email: the provider may fail when all has been written. -/
def sentReply (delivered : Bool) : Reply :=
  if delivered then { status := 200, body := .sent } else refuse 500 "Internal Server Error"

/-- `create_step_up_token`. -/
def createStepUpToken (now : ℤ) (subject jti : String) : StepUpToken where
  subject := subject
  jti := jti
  expiresAt := now + cfg.jwtStepUpTokenExpireMinutes * 60

/-- `step_up_2fa`. -/
def stepUp (now : ℤ) (method : Method) (code jti : String) (s : UserRows) : UserRows × Reply :=
  let minted : Reply := { status := 200, body := .stepUp (createStepUpToken cfg now s.email jti) }
  match method with
  | .email =>
      if !s.emailEnabled then
        (s, refuse 400 "Email-based two-factor authentication is not enabled.")
      else
        let checked := emailVerify deps cfg now actionStepUp code false s
        (checked.1, verdictReply "Invalid 2FA code." minted checked.2)
  | .totp =>
      if !s.totpEnabled then (s, refuse 400 "2FA is not enabled.")
      else
        let checked := totpVerify deps cfg now code true s
        (checked.1, verdictReply "Invalid 2FA code." minted checked.2)

/-- What a request makes of the rows of its user, and the reply. -/
def handle (now : ℤ) (s : UserRows) : Request → UserRows × Reply
  | .enroll2fa secret codes =>
      if s.totpEnabled then
        (s, refuse 409 "2FA is already enabled. Disable it before re-enrolling.")
      else (totpEnroll deps secret codes s, { status := 200, body := .totpEnroll secret codes })
  | .verify2fa code =>
      let checked := totpVerify deps cfg now code false s
      (checked.1,
        verdictReply "Invalid 2FA code." { status := 200, body := .enabled true } checked.2)
  | .status2fa => (s, { status := 200, body := .enabled s.totpEnabled })
  | .requestStepUpEmailCode allowed drawn delivered =>
      if !s.emailEnabled then
        (s, refuse 400 "Email-based two-factor authentication is not enabled.")
      else if !allowed then (s, rateLimited "Too many requests. Please wait and try again.")
      else if !cfg.mailConfigured then (s, refuse 500 "Internal Server Error")
      else (requestConfirmation deps cfg now actionStepUp drawn s, sentReply delivered)
  | .stepUp2fa method code jti => stepUp deps cfg now method code jti s
  | .disable2fa header recorded => gated cfg now header recorded totpDisable (.enabled false) s
  | .enrollEmail2fa allowed drawn delivered =>
      if !cfg.mailConfigured then
        (s, refuse 503 "Email-based two-factor authentication is not configured.")
      else if !allowed then (s, rateLimited "Too many requests. Please wait and try again.")
      else (sendEnrollmentCode deps cfg now drawn s, sentReply delivered)
  | .confirmEmail2fa allowed code =>
      if !allowed then (s, rateLimited "Too many requests. Please wait and try again.")
      else
        let checked := emailVerify deps cfg now actionEnroll code true s
        (checked.1,
          verdictReply "Invalid or expired code." { status := 200, body := .emailStatus true true }
            checked.2)
  | .statusEmail2fa =>
      (s, { status := 200, body := .emailStatus s.emailEnabled cfg.mailConfigured })
  | .disableEmail2fa header recorded =>
      gated cfg now header recorded emailDisable (.emailStatus false cfg.mailConfigured) s
  | .requestEmailConfirmation allowed action drawn delivered =>
      if !cfg.mailConfigured then (s, refuse 503 "Email confirmation is not configured.")
      else if !allowed then
        (s, rateLimited "Too many confirmation requests. Please wait and try again.")
      else (requestConfirmation deps cfg now action drawn s, sentReply delivered)
  | .verifyEmailConfirmation allowed action code =>
      if !allowed then
        (s, rateLimited "Too many confirmation attempts. Please wait and try again.")
      else
        let checked := verifyConfirmation deps now action code s
        (checked.1, { status := 200, body := .confirmed checked.2 })
  | .critical header recorded => gated cfg now header recorded id .done s

/-! ## Runs -/

/-- The rows of the user, and the replies so far. -/
structure Session where
  rows : UserRows
  replies : List Reply := []
  deriving DecidableEq, Repr

def step (s : Session) (a : ℤ × Request) : Option Session :=
  let answered := handle deps cfg a.1 s.rows a.2
  some { rows := answered.1, replies := answered.2 :: s.replies }

/-! ## A party that has the access token -/

/-- A party that has the access token of the user; it may read the mail of the account. -/
structure Party where
  readsMail : Bool

/-- The code is none of the authenticator app, if one was confirmed before, and none of its recovery
codes. -/
def NoTotpCode (before : UserRows) (now : ℤ) (code : String) : Prop :=
  ∀ row, before.totp = some row → row.confirmedAt ≠ none →
    deps.verifyTotp row.secret now code = false ∧
      ∀ c ∈ before.recoveryCodes, c.codeHash ≠ deps.hashToken code

/-- A header that the party can present: a token for the user is one that it was sent. -/
def CanPresent (s : Session) : StepUpHeader → Prop
  | .token t => t.subject = s.rows.email → ∃ r ∈ s.replies, r.body = .stepUp t
  | _ => True

/-- A request that the party can make. -/
def CanAsk (before : UserRows) (party : Party) (s : Session) (a : ℤ × Request) : Prop :=
  match a.2 with
  | .verify2fa code | .stepUp2fa .totp code _ => NoTotpCode deps before a.1 code
  | .stepUp2fa .email code _ | .confirmEmail2fa _ code | .verifyEmailConfirmation _ _ code =>
      party.readsMail = false → NotEmailed deps s.rows code
  | .disable2fa header _ | .disableEmail2fa header _ | .critical header _ => CanPresent s header
  | _ => True

/-- The confirmed factors of `before` are those of `after`, as they were. -/
structure FactorsKept (before after : UserRows) : Prop where
  totp : ∀ row, before.totp = some row → row.confirmedAt ≠ none →
    ∃ row', after.totp = some row' ∧ row'.secret = row.secret ∧
      row'.confirmedAt = row.confirmedAt ∧ after.recoveryCodes = before.recoveryCodes
  email : ∀ row, before.email2fa = some row → row.confirmedAt ≠ none →
    ∃ row', after.email2fa = some row' ∧ row'.confirmedAt = row.confirmedAt

/-- No step-up token has been minted, no critical request has passed, and the factors are kept. -/
structure Withheld (before : UserRows) (s : Session) : Prop where
  minted : ∀ r ∈ s.replies, ∀ t, r.body ≠ .stepUp t
  passed : ∀ r ∈ s.replies, r.authorized = false
  kept : FactorsKept before s.rows

/-- Whatever the party asks for, all is withheld. -/
def SessionOnly (before : UserRows) (party : Party) : Prop :=
  ∀ as t, StepSystem.AlongRun (step deps cfg) (CanAsk deps before party) ⟨before, []⟩ as →
    StepSystem.run (step deps cfg) ⟨before, []⟩ as = some t → Withheld before t

end

/-! ## What a party without codes is refused -/

section

variable {deps : Deps} {cfg : Settings} {before : UserRows} {party : Party} {s : Session} {now : ℤ}

/-- An answer that withholds all that the party is after. -/
structure Harmless (before : UserRows) (answered : UserRows × Reply) : Prop where
  minted : ∀ t, answered.2.body ≠ .stepUp t
  passed : answered.2.authorized = false
  kept : FactorsKept before answered.1

theorem FactorsKept.congr {after after' : UserRows} (h : FactorsKept before after)
    (htotp : after'.totp = after.totp) (hrecovery : after'.recoveryCodes = after.recoveryCodes)
    (hemail : after'.email2fa = after.email2fa) : FactorsKept before after' := by
  constructor
  · intro row hrow hconfirmed
    rw [htotp, hrecovery]
    exact h.totp row hrow hconfirmed
  · intro row hrow hconfirmed
    rw [hemail]
    exact h.email row hrow hconfirmed

theorem harmless_refuse (h : FactorsKept before s.rows) (status : ℕ) (text : String) :
    Harmless before (s.rows, refuse status text) := ⟨nofun, rfl, h⟩

theorem harmless_sentReply {rows : UserRows} (h : FactorsKept before rows) (delivered : Bool) :
    Harmless before (rows, sentReply delivered) := by
  cases delivered with
  | false => exact ⟨nofun, rfl, h⟩
  | true => exact ⟨nofun, rfl, h⟩

theorem harmless_verdictReply {rows : UserRows} {verdict : Verdict} (text : String)
    (accepted : Reply)
    (h : FactorsKept before rows) (hverdict : verdict ≠ .accepted) :
    Harmless before (rows, verdictReply text accepted verdict) := by
  cases verdict with
  | locked => exact ⟨nofun, rfl, h⟩
  | refused => exact ⟨nofun, rfl, h⟩
  | accepted => exact absurd rfl hverdict

/-- **The gate.**  Without a token that was minted for the user, nothing critical is done. -/
theorem gate_refused {header : StepUpHeader} {recorded : Bool} {change : UserRows → UserRows}
    {body : Body} (hfactor : hasSecondFactor cfg s.rows = true) (hpresent : CanPresent s header)
    (hminted : ∀ r ∈ s.replies, ∀ t, r.body ≠ .stepUp t) :
    ∃ text, gated cfg now header recorded change body s.rows = (s.rows, refuse 403 text) := by
  have hgate : ∃ text,
      requireStepUp cfg now header recorded s.rows = (s.rows, some (refuse 403 text)) := by
    simp only [requireStepUp.eq_def, hfactor, Bool.not_true]
    cases header with
    | missing => exact ⟨_, rfl⟩
    | invalid => exact ⟨_, rfl⟩
    | token t =>
      simp only
      by_cases hexpired : t.expiresAt < now
      · rw [if_pos hexpired]
        exact ⟨_, rfl⟩
      · rw [if_neg hexpired]
        have hsubject : t.subject ≠ s.rows.email := by
          intro hsubject
          obtain ⟨r, hr, hbody⟩ := hpresent hsubject
          exact hminted r hr t hbody
        rw [if_pos hsubject]
        exact ⟨_, rfl⟩
  obtain ⟨text, hgate⟩ := hgate
  refine ⟨text, ?_⟩
  rw [gated, hgate]

theorem kept_totpVerify {row row' : UserTotp} {code : String} {flag : Bool}
    (hrow : before.totp = some row) (hconfirmed : row.confirmedAt ≠ none)
    (hkept : FactorsKept before s.rows) (hcode : NoTotpCode deps before now code)
    (hnow : s.rows.totp = some row') :
    FactorsKept before (totpVerify deps cfg now code flag s.rows).1 ∧
      (totpVerify deps cfg now code flag s.rows).2 ≠ .accepted := by
  obtain ⟨row'', hrow'', hsecret, hstamp, hrecovery⟩ := hkept.totp row hrow hconfirmed
  obtain rfl := Option.some.inj (hnow.symm.trans hrow'')
  obtain ⟨hwrong, hno⟩ := hcode row hrow hconfirmed
  obtain ⟨lockout, hrows, hverdict⟩ := @totpVerify_refused deps cfg s.rows now code flag row' hnow
    (by rw [hsecret]; exact hwrong) (by rw [hrecovery]; exact hno)
  refine ⟨?_, hverdict⟩
  rw [hrows]
  constructor
  · intro other hother _
    obtain rfl := Option.some.inj (hrow.symm.trans hother)
    exact ⟨_, rfl, hsecret, hstamp, hrecovery⟩
  · exact hkept.email

theorem kept_emailVerify {code action : String} {flag : Bool} (hkept : FactorsKept before s.rows)
    (hcode : NotEmailed deps s.rows code) :
    FactorsKept before (emailVerify deps cfg now action code flag s.rows).1 ∧
      (emailVerify deps cfg now action code flag s.rows).2 ≠ .accepted := by
  obtain ⟨hverdict, hrows⟩ := @emailVerify_refused deps cfg s.rows now code action flag hcode
  refine ⟨?_, hverdict⟩
  rcases hrows with hrows | ⟨row, lockout, hrow, hrows⟩
  · rw [hrows]
    exact hkept
  · rw [hrows]
    refine ⟨hkept.totp, fun other hother hconfirmed => ?_⟩
    obtain ⟨row', hrow', hstamp⟩ := hkept.email other hother hconfirmed
    obtain rfl := Option.some.inj (hrow.symm.trans hrow')
    exact ⟨_, rfl, hstamp⟩

theorem harmless_handle {row : UserTotp} {a : ℤ × Request} (hrow : before.totp = some row)
    (hconfirmed : row.confirmedAt ≠ none) (hparty : party.readsMail = false)
    (h : Withheld before s) (hask : CanAsk deps before party s a) :
    Harmless before (handle deps cfg a.1 s.rows a.2) := by
  obtain ⟨row', hrow', hsecret, hstamp, hrecovery⟩ := h.kept.totp row hrow hconfirmed
  have henabled : s.rows.totpEnabled = true := by
    rw [UserRows.totpEnabled, hrow', Option.any_some, hstamp]
    exact Option.isSome_iff_ne_none.mpr hconfirmed
  have hfactor : hasSecondFactor cfg s.rows = true := by
    rw [hasSecondFactor, henabled, Bool.true_or]
  have hgated : ∀ header recorded change body, CanPresent s header →
      Harmless before (gated cfg a.1 header recorded change body s.rows) := by
    intro header recorded change body hpresent
    obtain ⟨text, hgate⟩ := @gate_refused cfg s a.1 header recorded change body hfactor hpresent
      h.minted
    rw [hgate]
    exact harmless_refuse h.kept 403 text
  have hsent : ∀ action drawn, FactorsKept before
      (requestConfirmation deps cfg a.1 action drawn s.rows) := fun action drawn =>
    h.kept.congr rfl rfl rfl
  obtain ⟨now, request⟩ := a
  cases request with
  | enroll2fa secret codes =>
    rw [handle, henabled]
    exact harmless_refuse h.kept _ _
  | verify2fa code =>
    obtain ⟨hkept, hverdict⟩ :=
      @kept_totpVerify deps cfg before s now row row' code false hrow hconfirmed h.kept hask hrow'
    exact harmless_verdictReply _ _ hkept hverdict
  | status2fa => exact ⟨nofun, rfl, h.kept⟩
  | requestStepUpEmailCode allowed drawn delivered =>
    rw [handle]
    split
    · exact harmless_refuse h.kept _ _
    · split
      · exact harmless_refuse h.kept _ _
      · split
        · exact harmless_refuse h.kept _ _
        · exact harmless_sentReply (hsent _ _) delivered
  | stepUp2fa method code jti =>
    rw [handle]
    cases method with
    | totp =>
      obtain ⟨hkept, hverdict⟩ :=
        @kept_totpVerify deps cfg before s now row row' code true hrow hconfirmed h.kept hask hrow'
      rw [stepUp, henabled]
      exact harmless_verdictReply _ _ hkept hverdict
    | email =>
      obtain ⟨hkept, hverdict⟩ :=
        @kept_emailVerify deps cfg before s now code actionStepUp false h.kept (hask hparty)
      rw [stepUp]
      split
      · exact harmless_refuse h.kept _ _
      · exact harmless_verdictReply _ _ hkept hverdict
  | disable2fa header recorded => exact hgated header recorded _ _ hask
  | enrollEmail2fa allowed drawn delivered =>
    rw [handle]
    split
    · exact harmless_refuse h.kept _ _
    · split
      · exact harmless_refuse h.kept _ _
      · refine @harmless_sentReply before (sendEnrollmentCode deps cfg now drawn s.rows)
          ⟨h.kept.totp, fun other hother hstamped => ?_⟩ delivered
        obtain ⟨mail, hmail, hmailStamp⟩ := h.kept.email other hother hstamped
        refine ⟨mail, ?_, hmailStamp⟩
        show some (s.rows.email2fa.getD {}) = some mail
        rw [hmail]
        rfl
  | confirmEmail2fa allowed code =>
    obtain ⟨hkept, hverdict⟩ :=
      @kept_emailVerify deps cfg before s now code actionEnroll true h.kept (hask hparty)
    rw [handle]
    split
    · exact harmless_refuse h.kept _ _
    · exact harmless_verdictReply _ _ hkept hverdict
  | statusEmail2fa => exact ⟨nofun, rfl, h.kept⟩
  | disableEmail2fa header recorded => exact hgated header recorded _ _ hask
  | requestEmailConfirmation allowed action drawn delivered =>
    rw [handle]
    split
    · exact harmless_refuse h.kept _ _
    · split
      · exact harmless_refuse h.kept _ _
      · exact harmless_sentReply (hsent _ _) delivered
  | verifyEmailConfirmation allowed action code =>
    have hrefused := @verifyConfirmation_refused deps s.rows now code action (hask hparty)
    rw [handle]
    split
    · exact harmless_refuse h.kept _ _
    · simp only [hrefused]
      exact ⟨nofun, rfl, h.kept⟩
  | critical header recorded => exact hgated header recorded _ _ hask

theorem sessionOnly_of_totp (h : before.totpEnabled = true) (hparty : party.readsMail = false) :
    SessionOnly deps cfg before party := by
  obtain ⟨row, hrow, hconfirmed⟩ : ∃ row, before.totp = some row ∧ row.confirmedAt ≠ none := by
    rw [UserRows.totpEnabled] at h
    cases hrow : before.totp with
    | none =>
      rw [hrow] at h
      cases h
    | some row =>
      rw [hrow] at h
      exact ⟨row, rfl, Option.isSome_iff_ne_none.mp h⟩
  intro as t hask hrun
  refine StepSystem.invariant_of_alongRun (step deps cfg) (P := CanAsk deps before party)
    (fun s a s' hs ha hstep => ?_) ?_ hask hrun
  · have hharmless := @harmless_handle deps cfg before party s row a hrow hconfirmed hparty hs ha
    cases hstep
    refine ⟨?_, ?_, hharmless.kept⟩
    · intro r hr
      rcases List.mem_cons.mp hr with rfl | hold
      · exact hharmless.minted
      · exact hs.minted r hold
    · intro r hr
      rcases List.mem_cons.mp hr with rfl | hold
      · exact hharmless.passed
      · exact hs.passed r hold
  · refine ⟨fun r hr => absurd hr List.not_mem_nil, fun r hr => absurd hr List.not_mem_nil, ?_⟩
    exact ⟨fun row hrow _ => ⟨row, hrow, rfl, rfl, rfl⟩, fun row hrow _ => ⟨row, hrow, rfl⟩⟩

/-! ## What a party can enrol -/

theorem totpVerify_accepted {rows : UserRows} {row : UserTotp} {code : String} {flag : Bool}
    (hrow : rows.totp = some row) (hlocked : row.isLocked now = false)
    (hcode : deps.verifyTotp row.secret now code = true) :
    ∃ row', totpVerify deps cfg now code flag rows = ({ rows with totp := some row' }, .accepted) ∧
      row'.secret = row.secret ∧ row'.confirmedAt.isSome = true ∧ row'.isLocked now = false := by
  rw [totpVerify, hrow]
  simp only [hlocked, hcode, Bool.not_true, Bool.false_and, Bool.false_eq_true, if_false,
    Bool.true_or, if_true]
  refine ⟨_, rfl, rfl, ?_, rfl⟩
  cases row.confirmedAt with
  | none => rfl
  | some stamp => rfl

theorem emailVerify_accepted {rows : UserRows} {row : UserEmail2FA} {code action : String}
    {flag : Bool} (hrow : rows.email2fa = some row) (hlocked : row.isLocked now = false) :
    ∃ row' confirmations,
      emailVerify deps cfg now action code flag
          (requestConfirmation deps cfg now action code rows) =
        ({ rows with email2fa := some row', confirmations := confirmations }, .accepted) ∧
      (flag || row.confirmedAt.isSome → row'.confirmedAt.isSome = true) ∧
      row'.isLocked now = false := by
  have hrow' : (requestConfirmation deps cfg now action code rows).email2fa = some row := hrow
  have hfresh : ¬now + (cfg.emailConfirmCodeTtlMinutes : ℤ) * 60 < now := by omega
  have hchecked : ∃ confirmations, verifyConfirmation deps now action code
      (requestConfirmation deps cfg now action code rows) =
        ({ rows with confirmations := confirmations }, true) := by
    refine ⟨{ action := action
              codeHash := deps.hashToken code
              expiresAt := now + cfg.emailConfirmCodeTtlMinutes * 60
              consumedAt := some now } ::
      rows.confirmations.map fun c =>
        if c.isOutstanding action then { c with consumedAt := some now } else c, ?_⟩
    simp only [verifyConfirmation, requestConfirmation, consumeConfirmation,
      UserEmailConfirmation.isOutstanding, decide_true, Option.isNone_none, Bool.and_self,
      and_self, if_true, hfresh, if_false]
  obtain ⟨confirmations, hchecked⟩ := hchecked
  rw [emailVerify, hrow']
  simp only [hlocked, hchecked, Bool.false_eq_true, if_false, if_true]
  refine ⟨_, confirmations, rfl, ?_, rfl⟩
  intro hstamp
  cases hconfirmed : row.confirmedAt with
  | none =>
    rw [hconfirmed, Option.isSome_none, Bool.or_false] at hstamp
    rw [hstamp]
    rfl
  | some stamp =>
    rw [Option.isNone_some, Bool.and_false]
    rfl

theorem isLocked_getD (l : Lockout) : l.isLocked (l.lockedUntil.getD 0) = false := by
  rw [Lockout.isLocked]
  cases l.lockedUntil with
  | none => rfl
  | some until_ => exact decide_eq_false (Int.lt_irrefl until_)

theorem not_withheld_of_minted {t : StepUpToken} {reply : Reply} {rest : List Reply}
    {rows : UserRows} (h : reply.body = .stepUp t) : ¬Withheld before ⟨rows, reply :: rest⟩ :=
  fun hwithheld => hwithheld.minted reply List.mem_cons_self t h

theorem not_sessionOnly_of_noTotp
    (hcodes : ∀ secret now, ∃ code, deps.verifyTotp secret now code = true)
    (h : before.totpEnabled = false) : ¬SessionOnly deps cfg before party := by
  intro honly
  -- an app that is pending may be locked
  obtain ⟨now, hlocked⟩ : ∃ now,
      ((before.totp.map UserTotp.toLockout).getD {}).isLocked now = false :=
    ⟨_, isLocked_getD _⟩
  obtain ⟨code, hcode⟩ := hcodes "" now
  have hno : NoTotpCode deps before now code := by
    intro row hrow hconfirmed
    rw [UserRows.totpEnabled, hrow, Option.any_some] at h
    exact absurd (Option.isSome_iff_ne_none.mpr hconfirmed) (by rw [h]; nofun)
  obtain ⟨row, hverify, hsecret, hstamp, hunlocked⟩ :=
    @totpVerify_accepted deps cfg now (totpEnroll deps "" [] before) _ code false rfl hlocked hcode
  obtain ⟨row', hagain, _⟩ := @totpVerify_accepted deps cfg now
    { totpEnroll deps "" [] before with totp := some row } row code true rfl hunlocked
    (by rw [hsecret]; exact hcode)
  have henabled : ({ totpEnroll deps "" [] before with totp := some row } : UserRows).totpEnabled =
      true := hstamp
  have hfirst : handle deps cfg now before (.enroll2fa "" []) =
      (totpEnroll deps "" [] before, { status := 200, body := .totpEnroll "" [] }) := by
    rw [handle, h]
    rfl
  have hsecond : handle deps cfg now (totpEnroll deps "" [] before) (.verify2fa code) =
      ({ totpEnroll deps "" [] before with totp := some row },
        { status := 200, body := .enabled true }) := by
    rw [handle, hverify]
    rfl
  obtain ⟨t, hthird⟩ : ∃ t, (handle deps cfg now
      { totpEnroll deps "" [] before with totp := some row } (.stepUp2fa .totp code "")).2.body =
        .stepUp t := by
    rw [handle, stepUp, henabled, hagain]
    exact ⟨_, rfl⟩
  have hrun := honly [(now, .enroll2fa "" []), (now, .verify2fa code),
    (now, .stepUp2fa .totp code "")] _ ?_ rfl
  · refine not_withheld_of_minted (t := t) ?_ hrun
    rw [hfirst, hsecond]
    exact hthird
  · exact ⟨trivial, hno, hno, trivial⟩

theorem not_sessionOnly_of_mail (hmail : cfg.mailConfigured = true) (h : party.readsMail = true) :
    ¬SessionOnly deps cfg before party := by
  intro honly
  obtain ⟨now, hlocked⟩ : ∃ now, (before.email2fa.getD {}).toLockout.isLocked now = false :=
    ⟨_, isLocked_getD _⟩
  obtain ⟨row, confirmations, hverify, hstamp, hunlocked⟩ :=
    @emailVerify_accepted deps cfg now { before with email2fa := some (before.email2fa.getD {}) } _
      "" actionEnroll true rfl hlocked
  obtain ⟨row', confirmations', hagain, _⟩ :=
    @emailVerify_accepted deps cfg now
      { before with email2fa := some row, confirmations := confirmations } row
      "" actionStepUp false rfl hunlocked
  have henabled : ({ before with
      email2fa := some row, confirmations := confirmations } : UserRows).emailEnabled = true :=
    hstamp rfl
  have hfirst : handle deps cfg now before (.enrollEmail2fa true "" true) =
      (sendEnrollmentCode deps cfg now "" before, { status := 200, body := .sent }) := by
    rw [handle, hmail]
    rfl
  have hsecond : handle deps cfg now (sendEnrollmentCode deps cfg now "" before)
        (.confirmEmail2fa true "") =
      ({ before with email2fa := some row, confirmations := confirmations },
        { status := 200, body := .emailStatus true true }) := by
    rw [handle, sendEnrollmentCode, hverify]
    rfl
  have hthird : handle deps cfg now
        { before with email2fa := some row, confirmations := confirmations }
        (.requestStepUpEmailCode true "" true) =
      (requestConfirmation deps cfg now actionStepUp ""
        { before with email2fa := some row, confirmations := confirmations },
        { status := 200, body := .sent }) := by
    rw [handle, henabled, hmail]
    rfl
  obtain ⟨t, hfourth⟩ : ∃ t, (handle deps cfg now
      (requestConfirmation deps cfg now actionStepUp ""
        { before with email2fa := some row, confirmations := confirmations })
      (.stepUp2fa .email "" "")).2.body = .stepUp t := by
    have henabled' : (requestConfirmation deps cfg now actionStepUp ""
        { before with
          email2fa := some row, confirmations := confirmations }).emailEnabled = true := henabled
    rw [handle, stepUp, henabled', hagain]
    exact ⟨_, rfl⟩
  have hrun := honly [(now, .enrollEmail2fa true "" true), (now, .confirmEmail2fa true ""),
    (now, .requestStepUpEmailCode true "" true), (now, .stepUp2fa .email "" "")] _ ?_ rfl
  · refine not_withheld_of_minted (t := t) ?_ hrun
    rw [hfirst, hsecond, hthird]
    exact hfourth
  · have hreads : ∀ rows : UserRows, party.readsMail = false → NotEmailed deps rows "" :=
      fun rows hnot => absurd (h.symm.trans hnot) nofun
    exact ⟨trivial, hreads _, trivial, hreads _, trivial⟩

/-- **A session is not enough** exactly if an authenticator app was confirmed before, and the party
does not read the mail of the account. -/
theorem sessionOnly_iff (hmail : cfg.mailConfigured = true)
    (hcodes : ∀ secret now, ∃ code, deps.verifyTotp secret now code = true) :
    SessionOnly deps cfg before party ↔
      before.totpEnabled = true ∧ party.readsMail = false := by
  constructor
  · intro honly
    refine ⟨?_, ?_⟩
    · by_contra h
      exact not_sessionOnly_of_noTotp hcodes (Bool.eq_false_iff.mpr h) honly
    · by_contra h
      exact not_sessionOnly_of_mail hmail (Bool.not_eq_false _ |>.mp h) honly
  · rintro ⟨h, hparty⟩
    exact sessionOnly_of_totp h hparty

end

/-- A stand-in for `pyotp` that knows the code of one secret at the time 1700000000, and for the
digest. -/
def sampleDeps : Deps where
  verifyTotp secret _ code :=
    decide (code = if secret = "JBSWY3DPEHPK3PXP" then "324550" else "000000")
  hashToken token := token

/-- A user whose only second factor is the mailbox. -/
def mailOnly : UserRows where
  email := "user@example.com"
  email2fa := some { confirmedAt := some 1600000000 }

def bothFactors : UserRows :=
  { mailOnly with totp := some { secret := "MFRGGZDFMZTWQ2LK", confirmedAt := some 1600000000 } }

/-- A party without mail, against a user who has both factors. -/
theorem sessionOnly_bothFactors : SessionOnly sampleDeps {} bothFactors ⟨false⟩ :=
  (sessionOnly_iff rfl fun _ _ => ⟨_, decide_eq_true rfl⟩).mpr ⟨rfl, rfl⟩

/-- A session that enrols an app of its own disables the mailbox. -/
theorem sessionOnly_strips_email :
    ¬∀ (deps : Deps) (cfg : Settings) (before : UserRows) (party : Party),
      cfg.mailConfigured = true →
      (∀ secret now, ∃ code, deps.verifyTotp secret now code = true) →
      before.totpEnabled = true ∨ before.emailEnabled = true →
      (before.emailEnabled = true → party.readsMail = false) →
      SessionOnly deps cfg before party := by
  intro h
  have honly := h sampleDeps {} mailOnly ⟨false⟩ rfl (fun _ _ => ⟨_, decide_eq_true rfl⟩)
    (.inr rfl) fun _ => rfl
  have hno : ∀ code, NoTotpCode sampleDeps mailOnly 1700000000 code := fun _ _ => nofun
  obtain ⟨row, hrow, _⟩ := (honly
    [(1700000000, .enroll2fa "JBSWY3DPEHPK3PXP" ["0123456789abcdef"]),
      (1700000000, .verify2fa "324550"), (1700000000, .stepUp2fa .totp "324550" "jti"),
      (1700000000, .disableEmail2fa
        (.token { subject := "user@example.com", jti := "jti", expiresAt := 1700000300 }) true)]
    _ ⟨trivial, hno _, hno _, fun _ => ⟨_, List.mem_cons_self, rfl⟩, trivial⟩ rfl).kept.email _ rfl
    nofun
  cases hrow

end Auth

end AdviserConstructor
