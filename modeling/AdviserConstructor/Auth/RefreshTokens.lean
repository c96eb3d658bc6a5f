import AdviserConstructor.Library.Slots
import AdviserConstructor.Library.StepSystem
import Mathlib.Data.Int.Notation

/-!
# Refresh tokens

`_issue_token_pair` and `refresh_access_token` of `app/api/v1/endpoints/auth.py`, with
`create_refresh_token` and `decode_refresh_token` of `app/core/auth.py`.  A refresh token is a
signed token with a row of its own; it is exchanged for a new pair, and its row is revoked then.

Any number of refreshes run at once.  One reads the row of its token, then the user, and writes and
commits at the end; it locks nothing in between, so another one may have read the same row.  A row
that is written is written again by whoever has read it.

What is kept of a row besides its columns is the row that it was exchanged for, and the row of the
sign-in that it goes back to.  No step reads either.

* `tokenMove_of_advance`: what a step can do to the rows.
* `tokensSound_step`: a row that has been exchanged is revoked, and its successors are of its user.
* `rotation_of_serial`: **one refresh token for each sign-in**, in every run in which no refresh
  reads a row that another one has read and not yet committed.
-/

namespace AdviserConstructor

namespace Auth

/-! ## Tokens -/

/-- What the server signs into a refresh token.  It signs the identifier of a user as the subject,
and no other. -/
structure RefreshClaims where
  userId : ℕ
  jti : String
  expiresAt : ℤ
  deriving DecidableEq, Repr

/-- What a request presents. -/
inductive PresentedToken
  /-- not a token that the server has signed -/
  | invalid
  | other (expiresAt : ℤ)
  | signed (claims : RefreshClaims)
  deriving DecidableEq, Repr

/-- `RefreshToken`. -/
structure RefreshToken where
  userId : ℕ
  tokenHash : String
  expiresAt : ℤ
  revokedAt : Option ℤ := none
  deriving DecidableEq, Repr

/-- A row, the row that it was exchanged for, and the row of its sign-in. -/
structure StoredToken extends RefreshToken where
  parent : Option ℕ
  root : ℕ
  deriving DecidableEq, Repr

/-- The reply to a refresh. -/
inductive RefreshReply
  | pair (row : ℕ) (claims : RefreshClaims)
  | unauthorized (detail : String)
  | serverError
  deriving DecidableEq, Repr

/-- How far a refresh has come. -/
inductive RefreshCall
  | called (token : PresentedToken)
  /-- the row of the token has been read, and may be exchanged -/
  | selected (row : ℕ)
  /-- the user has been read, and is active -/
  | issuing (row : ℕ)
  /-- the row is to be revoked, and the request refused -/
  | revoking (row : ℕ) (detail : String)
  | replied (reply : RefreshReply)
  deriving DecidableEq, Repr

/-- The row that a call is about to exchange. -/
def RefreshCall.holds : RefreshCall → Option ℕ
  | .selected row | .issuing row => some row
  | _ => none

/-- The committed rows, the active users and the refreshes. -/
structure TokenSystem where
  rows : List StoredToken := []
  activeUsers : List ℕ := []
  calls : List RefreshCall := []
  deriving DecidableEq, Repr

/-- One move of a sign-in, of an administrator or of a refresh.  The identifiers are those that the
server draws. -/
inductive TokenStep
  /-- `_issue_token_pair` behind a sign-up or a sign-in, with its commit -/
  | issue (userId : ℕ) (now : ℤ) (jti : String)
  | activate (userId : ℕ)
  | deactivate (userId : ℕ)
  | call (token : PresentedToken)
  /-- the token is decoded and its row read -/
  | read (call : ℕ) (now : ℤ)
  | loadUser (call : ℕ)
  | commit (call : ℕ) (now : ℤ) (jti : String)
  /-- a refresh is cancelled, or the database fails: nothing is written -/
  | fail (call : ℕ)
  deriving DecidableEq, Repr

section

variable (digest : RefreshClaims → String) (expireDays : ℕ)

/-- `create_refresh_token`. -/
def createRefreshToken (userId : ℕ) (now : ℤ) (jti : String) : RefreshClaims where
  userId := userId
  jti := jti
  expiresAt := now + expireDays * 86400

/-- The first row with a digest; no two rows have the same. -/
def findToken (rows : List StoredToken) (hash : String) : Option ℕ :=
  rows.findIdx? fun row => row.tokenHash = hash

/-- `_issue_token_pair` adds a row, unless there is one with its digest. -/
def addToken (rows : List StoredToken) (claims : RefreshClaims) (parent : Option ℕ) (root : ℕ) :
    Option (List StoredToken) :=
  if findToken rows (digest claims) = none then
    some (rows ++ [{
      userId := claims.userId
      tokenHash := digest claims
      expiresAt := claims.expiresAt
      parent := parent
      root := root }])
  else none

/-- The write of `revoked_at`. -/
def revokeToken (rows : List StoredToken) (i : ℕ) (now : ℤ) : List StoredToken :=
  rows.modify i fun row => { row with revokedAt := some now }

/-- `refresh_access_token` down to the read of the user. -/
def selectToken (rows : List StoredToken) (now : ℤ) : PresentedToken → RefreshCall
  | .invalid => .replied (.unauthorized "Invalid refresh token.")
  | .other expiresAt =>
      .replied (.unauthorized
        (if expiresAt < now then "Refresh token has expired." else "Invalid refresh token."))
  | .signed claims =>
      if claims.expiresAt < now then .replied (.unauthorized "Refresh token has expired.")
      else
        match findToken rows (digest claims) with
        | none => .replied (.unauthorized "Invalid refresh token.")
        | some i =>
            match rows[i]? with
            | none => .replied (.unauthorized "Invalid refresh token.")
            | some row =>
                if row.userId ≠ claims.userId then
                  .replied (.unauthorized "Invalid refresh token.")
                else if row.revokedAt ≠ none then
                  .replied (.unauthorized "Refresh token already used.")
                else if row.expiresAt ≤ now then .revoking i "Refresh token has expired."
                else .selected i

/-- The exchange of a row: the writes of a refresh that goes through, if they can be committed. -/
def exchangeToken (rows : List StoredToken) (i : ℕ) (now : ℤ) (jti : String) :
    Option (List StoredToken × RefreshClaims) :=
  match rows[i]? with
  | none => none
  | some row =>
      let claims := createRefreshToken expireDays row.userId now jti
      (addToken digest (revokeToken rows i now) claims (some i) row.root).map (·, claims)

namespace TokenSystem

def advance (s : TokenSystem) : TokenStep → Option TokenSystem
  | .issue userId now jti =>
      let claims := createRefreshToken expireDays userId now jti
      some { s with rows := (addToken digest s.rows claims none s.rows.length).getD s.rows }
  | .activate userId => some { s with activeUsers := userId :: s.activeUsers }
  | .deactivate userId => some { s with activeUsers := s.activeUsers.filter (· ≠ userId) }
  | .call token => some { s with calls := s.calls ++ [.called token] }
  | .read c now =>
      match s.calls[c]? with
      | some (.called token) =>
          some { s with calls := s.calls.set c (selectToken digest s.rows now token) }
      | _ => none
  | .loadUser c =>
      match s.calls[c]? with
      | some (.selected i) =>
          if (s.rows[i]?).any fun row => decide (row.userId ∈ s.activeUsers) then
            some { s with calls := s.calls.set c (.issuing i) }
          else
            some { s with
              calls := s.calls.set c (.revoking i "Could not validate credentials.") }
      | _ => none
  | .commit c now jti =>
      match s.calls[c]? with
      | some (.issuing i) =>
          match exchangeToken digest expireDays s.rows i now jti with
          | some (rows, claims) =>
              some { s with
                rows := rows
                calls := s.calls.set c (.replied (.pair s.rows.length claims)) }
          | none => some { s with calls := s.calls.set c (.replied .serverError) }
      | some (.revoking i detail) =>
          some { s with
            rows := revokeToken s.rows i now
            calls := s.calls.set c (.replied (.unauthorized detail)) }
      | _ => none
  | .fail c =>
      match s.calls[c]? with
      | some (.replied _) | none => none
      | _ => some { s with calls := s.calls.set c (.replied .serverError) }

end TokenSystem

end

/-! ## Rows -/

section

variable {digest : RefreshClaims → String} {expireDays : ℕ} {rows rows' : List StoredToken}
  {i j k : ℕ} {now : ℤ}

/-- A row as it is later: it may have been revoked meanwhile, and nothing else. -/
structure StoredToken.Later (old row : StoredToken) : Prop where
  userId : row.userId = old.userId
  parent : row.parent = old.parent
  root : row.root = old.root
  revoked : old.revokedAt ≠ none → row.revokedAt ≠ none

theorem getElem?_revokeToken (rows : List StoredToken) (i j : ℕ) (now : ℤ) :
    (revokeToken rows i now)[j]? =
      rows[j]?.map fun row => if i = j then { row with revokedAt := some now } else row :=
  List.getElem?_modify _ _ _ _

theorem before_revokeToken {row : StoredToken} (h : (revokeToken rows i now)[j]? = some row) :
    ∃ old, rows[j]? = some old ∧ old.Later row ∧ (i = j → row.revokedAt ≠ none) := by
  rw [getElem?_revokeToken, Option.map_eq_some_iff] at h
  obtain ⟨old, hold, rfl⟩ := h
  refine ⟨old, hold, ?_, ?_⟩
  · split
    · exact ⟨rfl, rfl, rfl, fun _ => Option.some_ne_none now⟩
    · exact ⟨rfl, rfl, rfl, id⟩
  · intro hij
    rw [if_pos hij]
    exact Option.some_ne_none now

theorem after_revokeToken (i : ℕ) (now : ℤ) {old : StoredToken} (h : rows[j]? = some old) :
    ∃ row, (revokeToken rows i now)[j]? = some row ∧ old.Later row := by
  have hrow := getElem?_revokeToken rows i j now
  rw [h] at hrow
  obtain ⟨old', hold', hlater, -⟩ := before_revokeToken hrow
  obtain rfl := Option.some.inj (h.symm.trans hold')
  exact ⟨_, hrow, hlater⟩

theorem addToken_eq_some {claims : RefreshClaims} {parent : Option ℕ} {root : ℕ}
    (h : addToken digest rows claims parent root = some rows') :
    ∃ new : StoredToken, rows' = rows ++ [new] ∧ new.userId = claims.userId ∧
      new.parent = parent ∧ new.root = root ∧ new.revokedAt = none := by
  unfold addToken at h
  split at h
  · obtain rfl := Option.some.inj h
    exact ⟨_, rfl, rfl, rfl, rfl, rfl⟩
  · cases h

/-- **An exchange** revokes the row, and adds one that goes back to the same sign-in. -/
theorem exchangeToken_eq_some {jti : String} {claims : RefreshClaims}
    (h : exchangeToken digest expireDays rows i now jti = some (rows', claims)) :
    ∃ old new : StoredToken, rows[i]? = some old ∧ rows' = revokeToken rows i now ++ [new] ∧
      new.userId = old.userId ∧ new.parent = some i ∧ new.root = old.root ∧
      new.revokedAt = none := by
  unfold exchangeToken at h
  split at h
  · cases h
  · next old hold =>
    obtain ⟨added, hadded, heq⟩ := Option.map_eq_some_iff.mp h
    obtain ⟨rfl, -⟩ := Prod.mk.injEq .. ▸ heq
    obtain ⟨new, hnew, huser, hparent, hroot, hlive⟩ := addToken_eq_some hadded
    exact ⟨old, new, hold, hnew, huser, hparent, hroot, hlive⟩

theorem row_of_selected {token : PresentedToken}
    (h : selectToken digest rows now token = .selected i) :
    ∃ row, rows[i]? = some row ∧ row.revokedAt = none := by
  unfold selectToken at h
  cases token with
  | invalid => cases h
  | other => cases h
  | signed claims =>
    simp only at h
    split at h
    · cases h
    · split at h
      · cases h
      · next i' _ =>
        split at h
        · cases h
        · next row hrow =>
          split at h
          · cases h
          · split at h
            · cases h
            · next hlive =>
              split at h
              · cases h
              · cases h
                exact ⟨row, hrow, not_not.mp hlive⟩

theorem holds_selectToken (token : PresentedToken) :
    (selectToken digest rows now token).holds = none ∨
      ∃ i, selectToken digest rows now token = .selected i := by
  cases hnext : selectToken digest rows now token with
  | selected i => exact Or.inr ⟨i, rfl⟩
  | issuing i =>
    exfalso
    unfold selectToken at hnext
    cases token with
    | invalid => cases hnext
    | other => cases hnext
    | signed claims =>
      repeat' split at hnext
      all_goals cases hnext
  | called token => exact Or.inl rfl
  | revoking i detail => exact Or.inl rfl
  | replied reply => exact Or.inl rfl

end

/-! ## What a step can do -/

namespace TokenSystem

section

variable {digest : RefreshClaims → String} {expireDays : ℕ} {s s' : TokenSystem} {a : TokenStep}

/-- The moves of the rows and of the refreshes, each with what it needs. -/
inductive Move (digest : RefreshClaims → String) (s : TokenSystem) : TokenStep → TokenSystem → Prop
  | idle (a : TokenStep) : Move digest s a s
  | users (a : TokenStep) (users : List ℕ) : Move digest s a { s with activeUsers := users }
  | issued (a : TokenStep) (new : StoredToken) (hparent : new.parent = none)
      (hroot : new.root = s.rows.length) (hlive : new.revokedAt = none) :
      Move digest s a { s with rows := s.rows ++ [new] }
  | called (a : TokenStep) (token : PresentedToken) :
      Move digest s a { s with calls := s.calls ++ [.called token] }
  | answered (a : TokenStep) (c : ℕ) (call next : RefreshCall) (hc : s.calls[c]? = some call)
      (hnext : next.holds = none) : Move digest s a { s with calls := s.calls.set c next }
  | selected (c : ℕ) (now : ℤ) (token : PresentedToken) (i : ℕ)
      (hc : s.calls[c]? = some (.called token))
      (hselect : selectToken digest s.rows now token = .selected i) :
      Move digest s (.read c now) { s with calls := s.calls.set c (.selected i) }
  | loaded (a : TokenStep) (c i : ℕ) (hc : s.calls[c]? = some (.selected i)) :
      Move digest s a { s with calls := s.calls.set c (.issuing i) }
  | revoked (a : TokenStep) (c i : ℕ) (now : ℤ) (detail : String)
      (hc : s.calls[c]? = some (.revoking i detail)) :
      Move digest s a { s with
        rows := revokeToken s.rows i now
        calls := s.calls.set c (.replied (.unauthorized detail)) }
  | exchanged (a : TokenStep) (c i : ℕ) (now : ℤ) (claims : RefreshClaims) (old new : StoredToken)
      (hc : s.calls[c]? = some (.issuing i)) (hold : s.rows[i]? = some old)
      (huser : new.userId = old.userId) (hparent : new.parent = some i)
      (hroot : new.root = old.root) (hlive : new.revokedAt = none) :
      Move digest s a { s with
        rows := revokeToken s.rows i now ++ [new]
        calls := s.calls.set c (.replied (.pair s.rows.length claims)) }

/-- **What a step can do.** -/
theorem tokenMove_of_advance (h : s.advance digest expireDays a = some s') :
    Move digest s a s' := by
  cases a with
  | issue userId now jti =>
    obtain rfl := Option.some.inj h
    cases hadd : addToken digest s.rows (createRefreshToken expireDays userId now jti) none
        s.rows.length with
    | none => exact .idle _
    | some rows =>
      obtain ⟨new, rfl, -, hparent, hroot, hlive⟩ := addToken_eq_some hadd
      exact .issued _ new hparent hroot hlive
  | activate userId =>
    obtain rfl := Option.some.inj h
    exact .users _ _
  | deactivate userId =>
    obtain rfl := Option.some.inj h
    exact .users _ _
  | call token =>
    obtain rfl := Option.some.inj h
    exact .called _ token
  | read c now =>
    simp only [advance] at h
    split at h
    · next token hc =>
      obtain rfl := Option.some.inj h
      rcases @holds_selectToken digest s.rows now token with hnone | ⟨i, hselect⟩
      · exact .answered _ c _ _ hc hnone
      · rw [hselect]
        exact .selected c now token i hc hselect
    · cases h
  | loadUser c =>
    simp only [advance] at h
    split at h
    · next i hc =>
      split at h
      · obtain rfl := Option.some.inj h
        exact .loaded _ c i hc
      · obtain rfl := Option.some.inj h
        exact .answered _ c _ _ hc rfl
    · cases h
  | commit c now jti =>
    simp only [advance] at h
    split at h
    · next i hc =>
      split at h
      · next rows claims hexchange =>
        obtain rfl := Option.some.inj h
        obtain ⟨old, new, hold, rfl, huser, hparent, hroot, hlive⟩ :=
          exchangeToken_eq_some hexchange
        exact .exchanged _ c i now claims old new hc hold huser hparent hroot hlive
      · obtain rfl := Option.some.inj h
        exact .answered _ c _ _ hc rfl
    · next i detail hc =>
      obtain rfl := Option.some.inj h
      exact .revoked _ c i now detail hc
    · cases h
  | fail c =>
    simp only [advance] at h
    split at h
    · cases h
    · cases h
    · next hc hnone =>
      obtain ⟨call, hcall⟩ := Option.ne_none_iff_exists'.mp hnone
      obtain rfl := Option.some.inj h
      exact .answered _ c call _ hcall rfl

end

end TokenSystem

/-! ## Successors -/

section

variable {digest : RefreshClaims → String} {expireDays : ℕ} {rows : List StoredToken}
  {s s' : TokenSystem} {a : TokenStep} {i j k : ℕ} {now : ℤ}

/-- A row that has been exchanged is revoked, and its successors are later ones of its user and its
sign-in; and the sign-in of a row was one of its user. -/
structure TokensSound (rows : List StoredToken) : Prop where
  exchanged : ∀ {i j : ℕ} {row : StoredToken}, rows[j]? = some row → row.parent = some i →
    i < j ∧ ∃ old, rows[i]? = some old ∧ old.revokedAt ≠ none ∧ row.userId = old.userId ∧
      row.root = old.root
  signedIn : ∀ {j : ℕ} {row : StoredToken}, rows[j]? = some row →
    ∃ first, rows[row.root]? = some first ∧ first.parent = none ∧ row.userId = first.userId

theorem TokensSound.revoke (h : TokensSound rows) :
    TokensSound (revokeToken rows i now) where
  exchanged := by
    intro k j row hrow hparent
    obtain ⟨row₀, hrow₀, hlater, -⟩ := before_revokeToken hrow
    obtain ⟨hlt, old, hold, hrevoked, huser, hroot⟩ :=
      h.exchanged hrow₀ (hlater.parent ▸ hparent)
    obtain ⟨old', hold', hlater'⟩ := after_revokeToken i now hold
    exact ⟨hlt, old', hold', hlater'.revoked hrevoked, by rw [hlater.userId, huser, hlater'.userId],
      by rw [hlater.root, hroot, hlater'.root]⟩
  signedIn := by
    intro j row hrow
    obtain ⟨row₀, hrow₀, hlater, -⟩ := before_revokeToken hrow
    obtain ⟨first, hfirst, hparent, huser⟩ := h.signedIn hrow₀
    obtain ⟨first', hfirst', hlater'⟩ := after_revokeToken i now hfirst
    exact ⟨first', hlater.root ▸ hfirst', hlater'.parent.trans hparent,
      by rw [hlater.userId, huser, hlater'.userId]⟩

theorem TokensSound.signIn (h : TokensSound rows) {new : StoredToken} (hparent : new.parent = none)
    (hroot : new.root = rows.length) : TokensSound (rows ++ [new]) where
  exchanged := by
    intro i j row hrow hrowParent
    rcases List.getElem?_concat_eq_some_iff.mp hrow with hrow | ⟨-, rfl⟩
    · obtain ⟨hlt, old, hold, hrest⟩ := h.exchanged hrow hrowParent
      exact ⟨hlt, old, List.getElem?_concat_of_some hold, hrest⟩
    · rw [hparent] at hrowParent
      cases hrowParent
  signedIn := by
    intro j row hrow
    rcases List.getElem?_concat_eq_some_iff.mp hrow with hrow | ⟨-, rfl⟩
    · obtain ⟨first, hfirst, hrest⟩ := h.signedIn hrow
      exact ⟨first, List.getElem?_concat_of_some hfirst, hrest⟩
    · exact ⟨new, hroot ▸ List.getElem?_concat_length, hparent, rfl⟩

theorem TokensSound.exchange (h : TokensSound rows) {old new : StoredToken}
    (hold : rows[i]? = some old) (huser : new.userId = old.userId) (hparent : new.parent = some i)
    (hroot : new.root = old.root) : TokensSound (revokeToken rows i now ++ [new]) where
  exchanged := by
    intro k j row hrow hrowParent
    rcases List.getElem?_concat_eq_some_iff.mp hrow with hrow | ⟨rfl, rfl⟩
    · obtain ⟨hlt, old', hold', hrest⟩ := h.revoke.exchanged hrow hrowParent
      exact ⟨hlt, old', List.getElem?_concat_of_some hold', hrest⟩
    · obtain rfl := Option.some.inj (hparent.symm.trans hrowParent)
      obtain ⟨old', hold', hlater⟩ := after_revokeToken i now hold
      obtain ⟨old'', -, -, hrevoked⟩ := before_revokeToken hold'
      obtain ⟨hlt, -⟩ := List.getElem?_eq_some_iff.mp hold'
      exact ⟨hlt, old', List.getElem?_concat_of_some hold', hrevoked rfl,
        huser.trans hlater.userId.symm, hroot.trans hlater.root.symm⟩
  signedIn := by
    intro j row hrow
    rcases List.getElem?_concat_eq_some_iff.mp hrow with hrow | ⟨-, rfl⟩
    · obtain ⟨first, hfirst, hrest⟩ := h.revoke.signedIn hrow
      exact ⟨first, List.getElem?_concat_of_some hfirst, hrest⟩
    · obtain ⟨first, hfirst, hfirstParent, hfirstUser⟩ := h.signedIn hold
      obtain ⟨first', hfirst', hlater⟩ := after_revokeToken i now hfirst
      refine ⟨first', List.getElem?_concat_of_some (hroot ▸ hfirst'),
        hlater.parent.trans hfirstParent, ?_⟩
      rw [huser, hfirstUser, hlater.userId]

/-- **A step keeps the rows sound.** -/
theorem tokensSound_step (hs : TokensSound s.rows) (h : s.advance digest expireDays a = some s') :
    TokensSound s'.rows := by
  cases TokenSystem.tokenMove_of_advance h with
  | idle => exact hs
  | users => exact hs
  | issued _ new hparent hroot => exact hs.signIn hparent hroot
  | called => exact hs
  | answered => exact hs
  | selected => exact hs
  | loaded => exact hs
  | revoked => exact hs.revoke
  | exchanged _ c i now claims old new hc hold huser hparent hroot =>
    exact hs.exchange hold huser hparent hroot

end

/-! ## One refresh token for each sign-in -/

namespace TokenSystem

/-- No refresh reads a row that it may exchange while another one is about to exchange it. -/
def Serial (digest : RefreshClaims → String) (s : TokenSystem) : TokenStep → Prop
  | .read c now =>
      match s.calls[c]? with
      | some (.called token) =>
          match selectToken digest s.rows now token with
          | .selected i => ∀ call ∈ s.calls, call.holds ≠ some i
          | _ => True
      | _ => True
  | _ => True

instance (digest : RefreshClaims → String) (s : TokenSystem) (a : TokenStep) :
    Decidable (Serial digest s a) := by
  unfold Serial
  repeat' split
  all_goals infer_instance

end TokenSystem

section

variable {digest : RefreshClaims → String} {expireDays : ℕ} {rows : List StoredToken}
  {s s' : TokenSystem} {a : TokenStep} {i j k : ℕ} {now : ℤ}

/-- The row is there and has not been exchanged. -/
structure OpenRow (rows : List StoredToken) (i : ℕ) : Prop where
  exists_row : ∃ row, rows[i]? = some row
  childless : ∀ {j : ℕ} {row : StoredToken}, rows[j]? = some row → row.parent ≠ some i

/-- Each row has been exchanged once at most, and a sign-in has one row at most that has not
been. -/
structure OneChain (rows : List StoredToken) : Prop where
  once : ∀ {i j k : ℕ} {a b : StoredToken}, rows[j]? = some a → rows[k]? = some b →
    a.parent = some i → b.parent = some i → j = k
  leaf : ∀ {j k : ℕ} {a b : StoredToken}, rows[j]? = some a → rows[k]? = some b →
    OpenRow rows j → OpenRow rows k → a.root = b.root → j = k

/-- Serial refreshes: what is about to be exchanged has not been, and is exchanged by one call. -/
structure SerialSound (s : TokenSystem) : Prop where
  sound : TokensSound s.rows
  chain : OneChain s.rows
  held : ∀ {c i : ℕ} {call : RefreshCall}, s.calls[c]? = some call → call.holds = some i →
    OpenRow s.rows i
  apart : ∀ {c d i : ℕ} {call other : RefreshCall}, s.calls[c]? = some call →
    s.calls[d]? = some other → call.holds = some i → other.holds = some i → c = d

theorem openRow_of_live (h : TokensSound rows) {row : StoredToken} (hrow : rows[i]? = some row)
    (hlive : row.revokedAt = none) : OpenRow rows i := by
  refine ⟨⟨row, hrow⟩, fun hchild hparent => ?_⟩
  obtain ⟨-, old, hold, hrevoked, -⟩ := h.exchanged hchild hparent
  obtain rfl := Option.some.inj (hrow.symm.trans hold)
  exact hrevoked hlive

theorem openRow_revokeToken : OpenRow (revokeToken rows i now) j ↔ OpenRow rows j := by
  constructor
  · rintro ⟨⟨row, hrow⟩, hchild⟩
    obtain ⟨old, hold, -⟩ := before_revokeToken hrow
    refine ⟨⟨old, hold⟩, fun hrow' hparent => ?_⟩
    obtain ⟨row', hafter, hlater⟩ := after_revokeToken i now hrow'
    exact hchild hafter (hlater.parent.trans hparent)
  · rintro ⟨⟨row, hrow⟩, hchild⟩
    obtain ⟨row', hafter, -⟩ := after_revokeToken i now hrow
    refine ⟨⟨row', hafter⟩, fun hrow' hparent => ?_⟩
    obtain ⟨old, hold, hlater, -⟩ := before_revokeToken hrow'
    exact hchild hold (hlater.parent ▸ hparent)

theorem OneChain.revoke (h : OneChain rows) : OneChain (revokeToken rows i now) where
  once := by
    intro l j k a b ha hb hparent hparent'
    obtain ⟨a₀, ha₀, hlater, -⟩ := before_revokeToken ha
    obtain ⟨b₀, hb₀, hlater', -⟩ := before_revokeToken hb
    exact h.once ha₀ hb₀ (hlater.parent ▸ hparent) (hlater'.parent ▸ hparent')
  leaf := by
    intro j k a b ha hb hj hk hroot
    obtain ⟨a₀, ha₀, hlater, -⟩ := before_revokeToken ha
    obtain ⟨b₀, hb₀, hlater', -⟩ := before_revokeToken hb
    refine h.leaf ha₀ hb₀ (openRow_revokeToken.mp hj) (openRow_revokeToken.mp hk) ?_
    rw [← hlater.root, ← hlater'.root, hroot]

theorem OpenRow.concat (h : OpenRow rows j) {new : StoredToken} (hnew : new.parent ≠ some j) :
    OpenRow (rows ++ [new]) j := by
  obtain ⟨⟨row, hrow⟩, hchild⟩ := h
  refine ⟨⟨row, List.getElem?_concat_of_some hrow⟩, fun hrow' => ?_⟩
  rcases List.getElem?_concat_eq_some_iff.mp hrow' with hrow' | ⟨-, rfl⟩
  · exact hchild hrow'
  · exact hnew

theorem openRow_of_concat {new row : StoredToken} (hrow : rows[j]? = some row)
    (h : OpenRow (rows ++ [new]) j) : OpenRow rows j ∧ new.parent ≠ some j :=
  ⟨⟨⟨row, hrow⟩, fun hrow' => h.childless (List.getElem?_concat_of_some hrow')⟩,
    h.childless List.getElem?_concat_length⟩

theorem OneChain.signIn (h : OneChain rows) (hsound : TokensSound rows) {new : StoredToken}
    (hparent : new.parent = none) (hroot : new.root = rows.length) :
    OneChain (rows ++ [new]) where
  once := by
    intro l j k a b ha hb hparentA hparentB
    rcases List.getElem?_concat_eq_some_iff.mp ha with ha | ⟨-, rfl⟩
    · rcases List.getElem?_concat_eq_some_iff.mp hb with hb | ⟨-, rfl⟩
      · exact h.once ha hb hparentA hparentB
      · rw [hparent] at hparentB
        cases hparentB
    · rw [hparent] at hparentA
      cases hparentA
  leaf := by
    have hother : ∀ {l : ℕ} {row : StoredToken}, rows[l]? = some row → row.root ≠ new.root := by
      intro l row hrow heq
      obtain ⟨first, hfirst, -⟩ := hsound.signedIn hrow
      rw [heq, hroot] at hfirst
      exact absurd (List.lt_length_of_getElem? hfirst) (Nat.lt_irrefl _)
    intro j k a b ha hb hj hk hroots
    rcases List.getElem?_concat_eq_some_iff.mp ha with ha | ⟨rfl, rfl⟩
    · rcases List.getElem?_concat_eq_some_iff.mp hb with hb | ⟨-, rfl⟩
      · exact h.leaf ha hb (openRow_of_concat ha hj).1 (openRow_of_concat hb hk).1 hroots
      · exact absurd hroots (hother ha)
    · rcases List.getElem?_concat_eq_some_iff.mp hb with hb | ⟨rfl, -⟩
      · exact absurd hroots.symm (hother hb)
      · rfl

theorem OneChain.exchange (h : OneChain rows) (hopen : OpenRow rows i) {old new : StoredToken}
    (hold : rows[i]? = some old) (hparent : new.parent = some i) (hroot : new.root = old.root) :
    OneChain (rows ++ [new]) where
  once := by
    intro l j k a b ha hb hparentA hparentB
    rcases List.getElem?_concat_eq_some_iff.mp ha with ha | ⟨rfl, rfl⟩
    · rcases List.getElem?_concat_eq_some_iff.mp hb with hb | ⟨-, rfl⟩
      · exact h.once ha hb hparentA hparentB
      · obtain rfl := Option.some.inj (hparent.symm.trans hparentB)
        exact absurd hparentA (hopen.childless ha)
    · obtain rfl := Option.some.inj (hparent.symm.trans hparentA)
      rcases List.getElem?_concat_eq_some_iff.mp hb with hb | ⟨rfl, -⟩
      · exact absurd hparentB (hopen.childless hb)
      · rfl
  leaf := by
    -- another open row of the sign-in would have been open beside the one exchanged
    have hother : ∀ {l : ℕ} {row : StoredToken}, rows[l]? = some row →
        OpenRow (rows ++ [new]) l → row.root ≠ new.root := by
      intro l row hrow hl heq
      obtain ⟨hl, hne⟩ := openRow_of_concat hrow hl
      have hli := h.leaf hrow hold hl hopen (heq.trans hroot)
      exact hne (hli ▸ hparent)
    intro j k a b ha hb hj hk hroots
    rcases List.getElem?_concat_eq_some_iff.mp ha with ha | ⟨rfl, rfl⟩
    · rcases List.getElem?_concat_eq_some_iff.mp hb with hb | ⟨-, rfl⟩
      · exact h.leaf ha hb (openRow_of_concat ha hj).1 (openRow_of_concat hb hk).1 hroots
      · exact absurd hroots (hother ha hj)
    · rcases List.getElem?_concat_eq_some_iff.mp hb with hb | ⟨rfl, -⟩
      · exact absurd hroots.symm (hother hb hk)
      · rfl

theorem SerialSound.withCalls (hs : SerialSound s) {calls : List RefreshCall}
    (hcalls : ∀ {c i : ℕ} {call : RefreshCall}, calls[c]? = some call → call.holds = some i →
      ∃ old, s.calls[c]? = some old ∧ old.holds = some i) :
    SerialSound { s with calls := calls } where
  sound := hs.sound
  chain := hs.chain
  held := by
    intro c i call hc hholds
    obtain ⟨old, hold, hi⟩ := hcalls hc hholds
    exact hs.held hold hi
  apart := by
    intro c d i call other hc hd hholds hholds'
    obtain ⟨oldC, hoC, hiC⟩ := hcalls hc hholds
    obtain ⟨oldD, hoD, hiD⟩ := hcalls hd hholds'
    exact hs.apart hoC hoD hiC hiD

theorem SerialSound.setCall (hs : SerialSound s) {c : ℕ} {call : RefreshCall}
    (hc : s.calls[c]? = some call) (next : RefreshCall)
    (hnext : next.holds = none ∨ next.holds = call.holds) :
    SerialSound { s with calls := s.calls.set c next } := by
  refine hs.withCalls fun {d i other} hd hholds => ?_
  rcases (List.getElem?_set_eq_some_iff (List.lt_length_of_getElem? hc)).mp hd with
    ⟨rfl, rfl⟩ | ⟨-, hd⟩
  · rcases hnext with hnext | hnext
    · rw [hnext] at hholds
      cases hholds
    · exact ⟨call, hc, hnext ▸ hholds⟩
  · exact ⟨other, hd, hholds⟩

theorem SerialSound.withRows (hs : SerialSound s) {rows : List StoredToken}
    (hsound : TokensSound rows) (hchain : OneChain rows)
    (hopen : ∀ {c i : ℕ} {call : RefreshCall}, s.calls[c]? = some call → call.holds = some i →
      OpenRow rows i) : SerialSound { s with rows := rows } where
  sound := hsound
  chain := hchain
  held := hopen
  apart := hs.apart

theorem SerialSound.select (hs : SerialSound s) {c : ℕ} {token : PresentedToken}
    (hc : s.calls[c]? = some (.called token))
    (hselect : selectToken digest s.rows now token = .selected i)
    (hserial : TokenSystem.Serial digest s (.read c now)) :
    SerialSound { s with calls := s.calls.set c (.selected i) } := by
  simp only [TokenSystem.Serial, hc, hselect] at hserial
  obtain ⟨row, hrow, hlive⟩ := row_of_selected hselect
  have hset : ∀ {d : ℕ} {call : RefreshCall}, (s.calls.set c (.selected i))[d]? = some call ↔
      (c = d ∧ .selected i = call) ∨ (c ≠ d ∧ s.calls[d]? = some call) :=
    List.getElem?_set_eq_some_iff (List.lt_length_of_getElem? hc)
  have hothers : ∀ {d : ℕ} {call : RefreshCall}, s.calls[d]? = some call →
      call.holds ≠ some i := fun hd => hserial _ (List.mem_of_getElem? hd)
  refine ⟨hs.sound, hs.chain, ?_, ?_⟩
  · intro d j call hd hholds
    rcases hset.mp hd with ⟨-, rfl⟩ | ⟨-, hd⟩
    · obtain rfl := Option.some.inj hholds
      exact openRow_of_live hs.sound hrow hlive
    · exact hs.held hd hholds
  · intro d e j call other hd he hholds hholds'
    rcases hset.mp hd with ⟨rfl, rfl⟩ | ⟨-, hd⟩
    · obtain rfl := Option.some.inj hholds
      rcases hset.mp he with ⟨rfl, -⟩ | ⟨-, he⟩
      · rfl
      · exact absurd hholds' (hothers he)
    · rcases hset.mp he with ⟨rfl, rfl⟩ | ⟨-, he⟩
      · obtain rfl := Option.some.inj hholds'
        exact absurd hholds (hothers hd)
      · exact hs.apart hd he hholds hholds'

theorem SerialSound.exchange (hs : SerialSound s) {c : ℕ} {reply : RefreshReply}
    {old new : StoredToken} (hc : s.calls[c]? = some (.issuing i)) (hold : s.rows[i]? = some old)
    (huser : new.userId = old.userId) (hparent : new.parent = some i)
    (hroot : new.root = old.root) :
    SerialSound { s with
      rows := revokeToken s.rows i now ++ [new], calls := s.calls.set c (.replied reply) } := by
  have hopen := hs.held hc rfl
  have hcalls := hs.setCall hc (.replied reply) (Or.inl rfl)
  obtain ⟨old', hold', hlater⟩ := after_revokeToken i now hold
  refine hcalls.withRows (hs.sound.exchange hold huser hparent hroot)
    (hs.chain.revoke.exchange (openRow_revokeToken.mpr hopen) hold' hparent
      (hroot.trans hlater.root.symm)) ?_
  intro d j call hd hholds
  refine (openRow_revokeToken.mpr (hcalls.held hd hholds)).concat ?_
  rw [hparent]
  intro hij
  obtain rfl := Option.some.inj hij
  -- the call that commits was the only one to hold the row
  rcases (List.getElem?_set_eq_some_iff (List.lt_length_of_getElem? hc)).mp hd with
    ⟨-, rfl⟩ | ⟨hne, hd⟩
  · cases hholds
  · exact hne (hs.apart hc hd rfl hholds)

/-- **A serial step keeps one chain for each sign-in.** -/
theorem serialSound_step (hs : SerialSound s) (hserial : TokenSystem.Serial digest s a)
    (h : s.advance digest expireDays a = some s') : SerialSound s' := by
  cases TokenSystem.tokenMove_of_advance h with
  | idle => exact hs
  | users => exact ⟨hs.sound, hs.chain, hs.held, hs.apart⟩
  | issued _ new hparent hroot =>
    refine hs.withRows (hs.sound.signIn hparent hroot) (hs.chain.signIn hs.sound hparent hroot) ?_
    intro c i call hc hholds
    refine (hs.held hc hholds).concat ?_
    rw [hparent]
    exact (Option.some_ne_none i).symm
  | called _ token =>
    refine hs.withCalls fun {c i call} hc hholds => ?_
    rcases List.getElem?_concat_eq_some_iff.mp hc with hc | ⟨-, rfl⟩
    · exact ⟨call, hc, hholds⟩
    · cases hholds
  | answered _ c call next hc hnext => exact hs.setCall hc next (Or.inl hnext)
  | selected c now token i hc hselect => exact hs.select hc hselect hserial
  | loaded _ c i hc => exact hs.setCall hc (.issuing i) (Or.inr rfl)
  | revoked _ c i now detail hc =>
    have hcalls := hs.setCall hc (.replied (.unauthorized detail)) (Or.inl rfl)
    exact hcalls.withRows hs.sound.revoke hs.chain.revoke fun hd hholds =>
      openRow_revokeToken.mpr (hcalls.held hd hholds)
  | exchanged _ c i now claims old new hc hold huser hparent hroot =>
    exact hs.exchange hc hold huser hparent hroot

/-- Of the rows of a sign-in, one at most is not revoked, and each has been exchanged once at
most. -/
structure Rotation (rows : List StoredToken) : Prop where
  live : ∀ {j k : ℕ} {a b : StoredToken}, rows[j]? = some a → rows[k]? = some b →
    a.root = b.root → a.revokedAt = none → b.revokedAt = none → j = k
  once : ∀ {i j k : ℕ} {a b : StoredToken}, rows[j]? = some a → rows[k]? = some b →
    a.parent = some i → b.parent = some i → j = k

theorem SerialSound.rotation (hs : SerialSound s) : Rotation s.rows where
  live ha hb hroot hliveA hliveB := hs.chain.leaf ha hb (openRow_of_live hs.sound ha hliveA)
    (openRow_of_live hs.sound hb hliveB) hroot
  once := hs.chain.once

/-- The server before its first sign-in. -/
def TokenSystem.initial (activeUsers : List ℕ) : TokenSystem where
  activeUsers := activeUsers

theorem serialSound_initial (activeUsers : List ℕ) :
    SerialSound (TokenSystem.initial activeUsers) where
  sound := ⟨fun h => (nomatch h), fun h => (nomatch h)⟩
  chain := ⟨fun h => (nomatch h), fun h => (nomatch h)⟩
  held h := nomatch h
  apart h := nomatch h

/-- **Refresh tokens rotate.**  In every run a row that has been exchanged is revoked, and its
successors are of its user and its sign-in; and where no refresh reads a row that another one is
about to exchange, a sign-in has one refresh token at a time, and each is exchanged once at most. -/
theorem rotation_of_run {users : List ℕ} {as : List TokenStep}
    (h : StepSystem.run (TokenSystem.advance digest expireDays) (.initial users) as = some s) :
    TokensSound s.rows ∧
      (StepSystem.AlongRun (TokenSystem.advance digest expireDays) (TokenSystem.Serial digest)
        (.initial users) as → Rotation s.rows) :=
  ⟨StepSystem.run_invariant _ (fun _ _ _ hs hstep => tokensSound_step hs hstep)
      (serialSound_initial users).sound h,
    fun hserial => (StepSystem.invariant_of_alongRun _
      (fun _ _ _ hs hserial hstep => serialSound_step hs hserial hstep)
      (serialSound_initial users) hserial h).rotation⟩

end

/-! ## Two refreshes at once -/

def sampleDigest (claims : RefreshClaims) : String := claims.jti

/-- Two refreshes of the token of a sign-in, one behind the other. -/
def refreshedTwice : List TokenStep :=
  let first := RefreshClaims.mk 7 "a" 604800
  [.issue 7 0 "a", .call (.signed first), .call (.signed first), .read 0 10, .loadUser 0,
    .commit 0 10 "b", .read 1 11, .call (.signed ⟨7, "b", 604810⟩), .read 2 12, .loadUser 2,
    .commit 2 12 "c"]

theorem rotation_refreshedTwice : ∃ s,
    StepSystem.run (TokenSystem.advance sampleDigest 7) (.initial [7]) refreshedTwice = some s ∧
      Rotation s.rows ∧ s.rows.length = 3 ∧
      s.calls[1]? = some (.replied (.unauthorized "Refresh token already used.")) := by
  obtain ⟨s, hs⟩ := Option.isSome_iff_exists.mp (show (StepSystem.run
    (TokenSystem.advance sampleDigest 7) (.initial [7]) refreshedTwice).isSome by decide +kernel)
  have hrows : (StepSystem.run (TokenSystem.advance sampleDigest 7) (.initial [7])
      refreshedTwice).map (fun s => (s.rows.length, s.calls[1]?)) =
        some (3, some (.replied (.unauthorized "Refresh token already used."))) := by
    decide +kernel
  rw [hs, Option.map_some, Option.some.injEq, Prod.mk.injEq] at hrows
  exact ⟨s, hs, (rotation_of_run hs).2 (by decide +kernel), hrows.1, hrows.2⟩

end Auth

end AdviserConstructor
