import AudioBook.Relational.Table

/-!
# The Store of the Auth Service

Users, credentials, sessions and refresh tokens in the database, and the one-time tokens for
password resets and multi-factor logins in the cache, with the writes that the service makes to
them.

Secrets are random and only ever compared by their SHA-256 digest; here a secret is its digest.
Random ids and secrets are drawn from one counter, in the transaction that stores them.

The store also keeps, as history, which reset token changed whose password; a session and every
refresh token that descends from it record how often the password of the user had been changed
when the user authenticated.
-/

namespace AudioBook.Auth

open Relational

structure User where
  id : ℕ
  email : String
  active : Bool := true
  deleted : Bool := false

structure UserCredential where
  userId : ℕ
  passwordHash : ℕ
  mfaEnrolled : Bool := false
  mfaSecretRef : Option ℕ := none
  failedAttemptCount : ℕ := 0
  lockedUntil : Option ℕ := none

structure Session where
  id : ℕ
  userId : ℕ
  expiresAt : ℕ
  lastSeenAt : Option ℕ := none
  revokedAt : Option ℕ := none

structure RefreshToken where
  id : ℕ
  sessionId : ℕ
  userId : ℕ
  familyId : ℕ
  tokenHash : ℕ
  expiresAt : ℕ
  rotatedAt : Option ℕ := none
  rotatedToId : Option ℕ := none
  revokedAt : Option ℕ := none
  reuseDetectedAt : Option ℕ := none
  /-- History: how often the password had been changed when the user authenticated. -/
  passwordGeneration : ℕ

structure OneTimeToken where
  key : ℕ
  userId : ℕ
  expiresAt : ℕ
  /-- History: as for refresh tokens; only for the tokens of multi-factor logins. -/
  passwordGeneration : ℕ := 0

structure AuthStore where
  users : List User := []
  credentials : List UserCredential := []
  sessions : List Session := []
  refreshTokens : List RefreshToken := []
  resetTokens : List OneTimeToken := []
  mfaTokens : List OneTimeToken := []
  now : ℕ := 0
  nextId : ℕ := 0
  /-- History: the reset tokens that changed a password, with the user. -/
  passwordResets : List (ℕ × ℕ) := []

inductive AuthError
  | violation (v : Violation)
  | recordNotFound
  | validation
  /-- An authentication error without a code of its own. -/
  | authentication
  | accountLocked
  | mfaFailed
  | tokenRevoked
  | tokenExpired
  | refreshTokenReused
  | other
  deriving DecidableEq

instance : OfViolation AuthError := ⟨AuthError.violation⟩

abbrev AuthTx := Transaction AuthStore AuthError

/-! ## Tables -/

/-- The table `user_credential`. -/
def userCredential : Table AuthStore UserCredential where
  rows := AuthStore.credentials
  setRows rows s := { s with credentials := rows }
  constraints := [.uniqueWhere fun c => some c.userId]

/-- The table `session`. -/
def session : Table AuthStore Session where
  rows := AuthStore.sessions
  setRows rows s := { s with sessions := rows }
  constraints := [.uniqueWhere fun session => some session.id]

/-- The table `refresh_token`. -/
def refreshToken : Table AuthStore RefreshToken where
  rows := AuthStore.refreshTokens
  setRows rows s := { s with refreshTokens := rows }
  constraints := [
    .uniqueWhere fun token => some token.id,
    .uniqueWhere fun token => some token.tokenHash,
    .selfReference RefreshToken.id RefreshToken.rotatedToId]

/-! ## Queries -/

/-- A user with the credential, by e-mail. -/
def findUser (email : String) (s : AuthStore) : Option User :=
  s.users.find? fun user => decide (user.email = email ∧ user.deleted = false)

def findCredential (userId : ℕ) (s : AuthStore) : Option UserCredential :=
  s.credentials.find? fun c => decide (c.userId = userId)

def findSession (sessionId : ℕ) (s : AuthStore) : Option Session :=
  s.sessions.find? fun session => decide (session.id = sessionId)

def findRefreshToken (tokenHash : ℕ) (s : AuthStore) : Option RefreshToken :=
  s.refreshTokens.find? fun token => decide (token.tokenHash = tokenHash)

def findOneTimeToken (key : ℕ) (tokens : List OneTimeToken) (now : ℕ) : Option OneTimeToken :=
  tokens.find? fun token => decide (token.key = key ∧ now < token.expiresAt)

def passwordGeneration (userId : ℕ) (s : AuthStore) : ℕ :=
  s.passwordResets.countP fun reset => decide (reset.2 = userId)

/-- How often a reset token has changed a password. -/
def resetUses (key : ℕ) (s : AuthStore) : ℕ :=
  s.passwordResets.countP fun reset => decide (reset.1 = key)

/-! ## Writes -/

/-- Draw a random id or secret. -/
def generateId : AuthTx ℕ := fun s => .ok (s.nextId, { s with nextId := s.nextId + 1 })

/-- Update the credential of a user; the database client raises when it is not there. -/
def updateCredential (userId : ℕ) (f : UserCredential → UserCredential) : AuthTx Unit := do
  if (findCredential userId (← get)).isSome then
    userCredential.update (fun c => decide (c.userId = userId)) f
  else throw .recordNotFound

/-- Update a session by id; the database client raises when it is not there. -/
def updateSession (sessionId : ℕ) (f : Session → Session) : AuthTx Unit := do
  if (findSession sessionId (← get)).isSome then
    session.update (fun session => decide (session.id = sessionId)) f
  else throw .recordNotFound

/-- `session.updateMany` of the sessions that are not revoked. -/
def revokeSessions (p : Session → Bool) (now : ℕ) : AuthTx Unit :=
  session.update (fun session => p session && session.revokedAt.isNone) fun session =>
    { session with revokedAt := some now }

/-- `refreshToken.updateMany` of the tokens that are not revoked. -/
def revokeTokens (p : RefreshToken → Bool) (now : ℕ) (reuseDetected : Bool) : AuthTx Unit :=
  refreshToken.update (fun token => p token && token.revokedAt.isNone) fun token =>
    { token with
      revokedAt := some now
      reuseDetectedAt := if reuseDetected then some now else token.reuseDetectedAt }

/-- `session.create`. -/
def createSession (userId expiresAt : ℕ) : AuthTx ℕ := do
  let sessionId ← generateId
  session.insert { id := sessionId, userId, expiresAt }
  return sessionId

/-- `refreshToken.create` of a new session, in a family of its own. -/
def createRefreshToken (sessionId userId expiresAt passwordGeneration : ℕ) : AuthTx ℕ := do
  let id ← generateId
  let familyId ← generateId
  let tokenHash ← generateId
  refreshToken.insert { id, sessionId, userId, familyId, tokenHash, expiresAt, passwordGeneration }
  return tokenHash

/-- The transaction of `refresh`: a successor of the token, and the token points to it. -/
def rotate (row : RefreshToken) (now expiresAt : ℕ) : AuthTx ℕ := do
  let newTokenId ← generateId
  let tokenHash ← generateId
  refreshToken.insert {
    id := newTokenId
    sessionId := row.sessionId
    userId := row.userId
    familyId := row.familyId
    tokenHash := tokenHash
    expiresAt := expiresAt
    passwordGeneration := row.passwordGeneration }
  if (← get).refreshTokens.any fun token => decide (token.id = row.id) then
    refreshToken.update (fun token => decide (token.id = row.id)) fun token =>
      { token with rotatedAt := some now, rotatedToId := some newTokenId }
  else throw .recordNotFound
  updateSession row.sessionId fun session => { session with lastSeenAt := some now }
  return tokenHash

/-- The transaction of `logout`. -/
def revokeSession (sessionId now : ℕ) : AuthTx Unit := do
  updateSession sessionId fun session => { session with revokedAt := some now }
  revokeTokens (fun token => decide (token.sessionId = sessionId)) now false

/-- The transaction of `revokeFamily`. -/
def revokeFamily (familyId : ℕ) (sessionIds : List ℕ) (now : ℕ) : AuthTx Unit := do
  revokeTokens (fun token => decide (token.familyId = familyId)) now true
  if sessionIds ≠ [] then
    revokeSessions (fun session => decide (session.id ∈ sessionIds)) now

/-- The transaction of `confirmPasswordReset`. -/
def resetPassword (key userId passwordHash now : ℕ) : AuthTx Unit := do
  updateCredential userId fun c =>
    { c with passwordHash := passwordHash, failedAttemptCount := 0, lockedUntil := none }
  revokeSessions (fun session => decide (session.userId = userId)) now
  revokeTokens (fun token => decide (token.userId = userId)) now false
  modify fun s => { s with passwordResets := s.passwordResets ++ [(key, userId)] }

end AudioBook.Auth
