import AudioBook.Auth.Store
import AudioBook.Concurrent.Interleaving

/-!
# The Auth Service

Login, the exchange of a multi-factor token, refresh, logout and the password reset, as programs
over the store of the service. Each of them reads rows first and writes in later transactions, so
requests interleave between the check and the write.

The digest of passwords and the check of one-time codes belong to libraries and are parameters.
-/

namespace AudioBook.Auth

open Relational Concurrent

/-- `authPolicy`, with the lifetimes of one-time tokens. -/
structure AuthPolicy where
  passwordMinLength : ℕ := 12
  loginMaxFailedAttempts : ℕ := 5
  loginLockoutSeconds : ℕ := 900
  refreshTokenTtlSeconds : ℕ := 2592000
  mfaTokenTtlSeconds : ℕ := 300
  passwordResetTokenTtlSeconds : ℕ := 1800

/-- The libraries that the service calls, and its configuration. -/
structure AuthEnv where
  policy : AuthPolicy := {}
  argon2Verify : ℕ → String → Bool
  argon2Hash : String → ℕ
  verifyTotp : ℕ → String → Bool

inductive AuthAccess
  | query
  /-- Work that changes nothing modelled: audit records, events, `last_login_at`. -/
  | external
  /-- Change the failed attempts of a credential. -/
  | updateCredential (userId : ℕ)
  | setMfaToken (userId : ℕ)
  | removeMfaToken (key : ℕ)
  | createSession (userId : ℕ)
  /-- Create the refresh token of a session, for a user who authenticated when the password had
  been changed `seen` times. -/
  | createRefreshToken (userId seen : ℕ)
  /-- Rotate a refresh token that was read as `row`. -/
  | rotate (row : RefreshToken)
  | revokeSession (sessionId : ℕ)
  | revokeFamily (familyId : ℕ)
  | setResetToken (userId : ℕ)
  | getResetToken (key : ℕ)
  /-- Change a password with a reset token that had changed `seen` passwords when it was looked
  up. -/
  | resetPassword (key seen : ℕ)
  | removeResetToken (key : ℕ)
  | tick

abbrev AuthService := Prog AuthStore AuthAccess AuthError

def query {α : Type} (f : AuthStore → α) : AuthService α := Prog.read .query f

/-- Work that changes nothing modelled; it may fail like any access. -/
def external : AuthService Unit := Prog.read .external fun _ => ()

inductive LoginResult
  | authenticated (refreshToken : ℕ)
  | mfaRequired (mfaToken : ℕ)

variable (env : AuthEnv)

/-! ## Sessions -/

/-- `issueSession`, for a user who authenticated when the password had been changed
`passwordGeneration` times. -/
def issueSession (userId passwordGeneration : ℕ) : AuthService LoginResult := do
  let now ← query AuthStore.now
  let expiresAt := now + env.policy.refreshTokenTtlSeconds
  let sessionId ← Prog.atomically (.createSession userId) (createSession userId expiresAt)
  let refreshToken ← Prog.atomically (.createRefreshToken userId passwordGeneration)
    (createRefreshToken sessionId userId expiresAt passwordGeneration)
  external
  return .authenticated refreshToken

def recordFailedAttempt (userId currentCount : ℕ) : AuthService Unit := do
  let now ← query AuthStore.now
  Prog.atomically (.updateCredential userId) (updateCredential userId fun c =>
    if env.policy.loginMaxFailedAttempts ≤ currentCount + 1 then
      { c with failedAttemptCount := 0, lockedUntil := some (now + env.policy.loginLockoutSeconds) }
    else { c with failedAttemptCount := currentCount + 1 })

/-- Store a token of a multi-factor login in the cache. -/
def setMfaToken (userId passwordGeneration : ℕ) : AuthTx ℕ := do
  let key ← generateId
  modify fun s =>
    { s with mfaTokens :=
        ⟨key, userId, s.now + env.policy.mfaTokenTtlSeconds, passwordGeneration⟩ :: s.mfaTokens }
  return key

/-- What `login` reads of a user: the credential, and how often the password had been changed. -/
def findLogin (email : String) (s : AuthStore) : Option (User × Option UserCredential × ℕ) :=
  (findUser email s).map fun user =>
    (user, findCredential user.id s, passwordGeneration user.id s)

/-- The part of `login` after the password was accepted. -/
def completeLogin (credential : UserCredential) (generation : ℕ) : AuthService LoginResult := do
  Prog.atomically (.updateCredential credential.userId)
    (updateCredential credential.userId fun c =>
      { c with failedAttemptCount := 0, lockedUntil := none })
  external
  if credential.mfaEnrolled then
    let mfaToken ← Prog.atomically (.setMfaToken credential.userId)
      (setMfaToken env credential.userId generation)
    return .mfaRequired mfaToken
  else issueSession env credential.userId generation

def login (email password : String) : AuthService LoginResult := do
  match ← query (findLogin email) with
  | some (user, some credential, generation) =>
      if user.active = false then throw .authentication
      else
        let now ← query AuthStore.now
        if credential.lockedUntil.any fun lockedUntil => decide (now < lockedUntil) then
          throw .accountLocked
        else if env.argon2Verify credential.passwordHash password then
          completeLogin env credential generation
        else
          recordFailedAttempt env user.id credential.failedAttemptCount
          throw .authentication
  | _ => throw .authentication

def exchangeMfa (mfaToken : ℕ) (code : String) : AuthService LoginResult := do
  match ← query fun s => findOneTimeToken mfaToken s.mfaTokens s.now with
  | none => throw .mfaFailed
  | some entry =>
      let user ← query fun s =>
        (s.users.find? fun user => decide (user.id = entry.userId ∧ user.deleted = false)).bind
          fun user => findCredential user.id s
      match user.bind UserCredential.mfaSecretRef with
      | none => throw .mfaFailed
      | some secret =>
          if env.verifyTotp secret code then
            Prog.atomically (.removeMfaToken mfaToken) (modify fun s =>
              { s with mfaTokens := s.mfaTokens.filter fun token => decide (token.key ≠ mfaToken) })
            issueSession env entry.userId entry.passwordGeneration
          else throw .mfaFailed

def familySessions (familyId : ℕ) (s : AuthStore) : List ℕ :=
  ((s.refreshTokens.filter fun token => decide (token.familyId = familyId)).map
    RefreshToken.sessionId).dedup

def refresh (tokenHash : ℕ) : AuthService LoginResult := do
  let found ← query fun s => (findRefreshToken tokenHash s).bind fun row =>
    (findSession row.sessionId s).map fun session => (row, session)
  match found with
  | none => throw .tokenRevoked
  | some (row, session) =>
      if row.revokedAt.isSome ∨ session.revokedAt.isSome then throw .tokenRevoked
      else
        let now ← query AuthStore.now
        if row.expiresAt < now then throw .tokenExpired
        else if row.rotatedAt.isSome then
          let sessionIds ← query (familySessions row.familyId)
          Prog.atomically (.revokeFamily row.familyId) (revokeFamily row.familyId sessionIds now)
          external
          throw .refreshTokenReused
        else
          let newToken ← Prog.atomically (.rotate row)
            (rotate row now (now + env.policy.refreshTokenTtlSeconds))
          external
          return .authenticated newToken

def logout (userId sessionId : ℕ) : AuthService Unit := do
  let found ← query fun s =>
    s.sessions.find? fun session => decide (session.id = sessionId ∧ session.userId = userId)
  match found with
  | none => return
  | some session =>
      if session.revokedAt.isSome then return
      else
        let now ← query AuthStore.now
        Prog.atomically (.revokeSession sessionId) (revokeSession sessionId now)
        external

/-! ## Password Reset -/

def setResetToken (userId : ℕ) : AuthTx ℕ := do
  let key ← generateId
  modify fun s =>
    { s with resetTokens :=
        ⟨key, userId, s.now + env.policy.passwordResetTokenTtlSeconds, 0⟩ :: s.resetTokens }
  return key

def requestPasswordReset (email : String) : AuthService Unit := do
  match ← query (findUser email) with
  | none => return
  | some user =>
      let _ ← Prog.atomically (.setResetToken user.id) (setResetToken env user.id)
      external

/-- The user of a reset token, and how many passwords the token has changed. -/
def findResetToken (key : ℕ) (s : AuthStore) : Option (ℕ × ℕ) :=
  (findOneTimeToken key s.resetTokens s.now).map fun token => (token.userId, resetUses key s)

def confirmPasswordReset (resetToken : ℕ) (newPassword : String) : AuthService Unit := do
  if newPassword.length < env.policy.passwordMinLength then throw .validation
  else
    match ← Prog.read (.getResetToken resetToken) (findResetToken resetToken) with
    | none => throw .tokenExpired
    | some (userId, seen) =>
        let now ← query AuthStore.now
        Prog.atomically (.resetPassword resetToken seen)
          (resetPassword resetToken userId (env.argon2Hash newPassword) now)
        Prog.atomically (.removeResetToken resetToken) (modify fun s =>
          { s with resetTokens :=
              s.resetTokens.filter fun token => decide (token.key ≠ resetToken) })
        external

/-! ## The System -/

inductive AuthRequest
  | login (email password : String)
  | exchangeMfa (mfaToken : ℕ) (code : String)
  | refresh (tokenHash : ℕ)
  | logout (userId sessionId : ℕ)
  | requestPasswordReset (email : String)
  | confirmPasswordReset (resetToken : ℕ) (newPassword : String)
  | tick

/-- Any users and passwords; nobody has authenticated and no reset was asked for. -/
structure SignedOut (s : AuthStore) : Prop where
  sessions : s.sessions = []
  refreshTokens : s.refreshTokens = []
  resetTokens : s.resetTokens = []
  mfaTokens : s.mfaTokens = []
  passwordResets : s.passwordResets = []

/-- Run a request for its effects. -/
def discard {α : Type} (p : AuthService α) : AuthService Unit := do
  let _ ← p

/-- The auth service: any number of requests, interleaved in any way. -/
def authSystem : System AuthStore AuthRequest AuthAccess AuthError where
  init := SignedOut
  enabled _ _ := True
  program
    | .login email password => discard (login env email password)
    | .exchangeMfa mfaToken code => discard (exchangeMfa env mfaToken code)
    | .refresh tokenHash => discard (refresh env tokenHash)
    | .logout userId sessionId => logout userId sessionId
    | .requestPasswordReset email => requestPasswordReset env email
    | .confirmPasswordReset resetToken newPassword =>
        confirmPasswordReset env resetToken newPassword
    | .tick => Prog.atomically .tick (modify fun s => { s with now := s.now + 1 })

instance (i : AuthRequest) (s : AuthStore) : Decidable ((authSystem env).enabled i s) :=
  isTrue trivial

end AudioBook.Auth
