import AudioBook.Auth.Service
import AudioBook.Concurrent.Contract

/-!
# What the Auth Service Does to Refresh Tokens

Most accesses of the auth service leave the refresh tokens alone. The others revoke some tokens,
start a family, rotate a token, or revoke the tokens of a user with a password reset. A contract
about refresh tokens holds of the system as soon as it holds of these four changes.

Main results:

- `TokenRules.respects`: the auth system respects a contract whose rules hold.
-/

namespace AudioBook.Auth

open Relational Concurrent

/-! ## Changes of the Tokens -/

/-- The refresh tokens and the history of resets are the same; ids may have been drawn. -/
structure SameTokens (s s' : AuthStore) : Prop where
  refreshTokens : s'.refreshTokens = s.refreshTokens
  passwordResets : s'.passwordResets = s.passwordResets
  nextId : s.nextId ≤ s'.nextId

instance : IsPreorder AuthStore SameTokens where
  refl _ := ⟨rfl, rfl, Nat.le_refl _⟩
  trans _ _ _ h₁ h₂ := ⟨h₂.refreshTokens.trans h₁.refreshTokens,
    h₂.passwordResets.trans h₁.passwordResets, Nat.le_trans h₁.nextId h₂.nextId⟩

/-- A token that was read as `row` is still that token. -/
def RefreshToken.SameIdentity (row token : RefreshToken) : Prop :=
  token.id = row.id ∧ token.familyId = row.familyId ∧ token.userId = row.userId ∧
    token.passwordGeneration = row.passwordGeneration

/-- A token that `revokeTokens` has written. -/
def RefreshToken.revoke (now : ℕ) (reuseDetected : Bool) (token : RefreshToken) : RefreshToken :=
  { token with
    revokedAt := some now
    reuseDetectedAt := if reuseDetected then some now else token.reuseDetectedAt }

/-- A token that `rotate` has written. -/
def RefreshToken.rotateTo (now newTokenId : ℕ) (token : RefreshToken) : RefreshToken :=
  { token with rotatedAt := some now, rotatedToId := some newTokenId }

/-- The token that `rotate` creates. -/
def RefreshToken.successor (row : RefreshToken) (expiresAt newTokenId tokenHash : ℕ) :
    RefreshToken where
  id := newTokenId
  sessionId := row.sessionId
  userId := row.userId
  familyId := row.familyId
  tokenHash := tokenHash
  expiresAt := expiresAt
  passwordGeneration := row.passwordGeneration

def RefreshToken.first (sessionId userId expiresAt passwordGeneration nextId : ℕ) :
    RefreshToken where
  id := nextId
  sessionId := sessionId
  userId := userId
  familyId := nextId + 1
  tokenHash := nextId + 2
  expiresAt := expiresAt
  passwordGeneration := passwordGeneration

namespace AuthStore

/-- The tokens with a property are revoked, unless they were before. -/
def revokeWhere (p : RefreshToken → Bool) (now : ℕ) (reuseDetected : Bool) (s : AuthStore) :
    AuthStore :=
  { s with
    refreshTokens := updateWhere (fun token => p token && token.revokedAt.isNone)
      (RefreshToken.revoke now reuseDetected) s.refreshTokens }

def withFamily (sessionId userId expiresAt passwordGeneration : ℕ) (s : AuthStore) : AuthStore :=
  { s with
    refreshTokens := s.refreshTokens ++
      [.first sessionId userId expiresAt passwordGeneration s.nextId]
    nextId := s.nextId + 3 }

def withRotation (row : RefreshToken) (now expiresAt : ℕ) (s : AuthStore) : AuthStore :=
  { s with
    refreshTokens := updateWhere (fun token => decide (token.id = row.id))
      (RefreshToken.rotateTo now s.nextId)
      (s.refreshTokens ++ [row.successor expiresAt s.nextId (s.nextId + 1)])
    nextId := s.nextId + 2 }

/-- A reset token changed the password of a user, whose tokens are revoked. -/
def withReset (key userId now : ℕ) (s : AuthStore) : AuthStore :=
  { s.revokeWhere (fun token => decide (token.userId = userId)) now false with
    passwordResets := s.passwordResets ++ [(key, userId)] }

end AuthStore

/-! ## What the Transactions Do -/

section transactions

variable {s s' : AuthStore}

theorem updateCredential_within (userId : ℕ) (f : UserCredential → UserCredential) :
    (updateCredential userId f).Within SameTokens := by
  refine Transaction.within_bind Transaction.within_get fun s₀ => ?_
  split
  · exact Table.within_update _ fun s _ => ⟨rfl, rfl, Nat.le_refl _⟩
  · exact Transaction.within_throw _

theorem updateSession_within (sessionId : ℕ) (f : Session → Session) :
    (updateSession sessionId f).Within SameTokens := by
  refine Transaction.within_bind Transaction.within_get fun s₀ => ?_
  split
  · exact Table.within_update _ fun s _ => ⟨rfl, rfl, Nat.le_refl _⟩
  · exact Transaction.within_throw _

theorem generateId_within : generateId.Within SameTokens := by
  rintro s a s' h
  cases h
  exact ⟨rfl, rfl, Nat.le_succ _⟩

theorem createSession_within (userId expiresAt : ℕ) :
    (createSession userId expiresAt).Within SameTokens := by
  refine Transaction.within_bind generateId_within fun sessionId => ?_
  refine Transaction.within_bind ?_ fun _ => Transaction.within_pure _
  exact Table.within_insert _ fun s _ => ⟨rfl, rfl, Nat.le_refl _⟩

theorem setMfaToken_within (env : AuthEnv) (userId generation : ℕ) :
    (setMfaToken env userId generation).Within SameTokens := by
  refine Transaction.within_bind generateId_within fun key => ?_
  refine Transaction.within_bind ?_ fun _ => Transaction.within_pure _
  exact Transaction.within_modify fun s => ⟨rfl, rfl, Nat.le_refl _⟩

theorem setResetToken_within (env : AuthEnv) (userId : ℕ) :
    (setResetToken env userId).Within SameTokens := by
  refine Transaction.within_bind generateId_within fun key => ?_
  refine Transaction.within_bind ?_ fun _ => Transaction.within_pure _
  exact Transaction.within_modify fun s => ⟨rfl, rfl, Nat.le_refl _⟩

theorem revokeSessions_within (p : Session → Bool) (now : ℕ) :
    (revokeSessions p now).Within SameTokens :=
  Table.within_update _ fun _ _ => ⟨rfl, rfl, Nat.le_refl _⟩

theorem revokeTokens_eq_ok {p : RefreshToken → Bool} {now : ℕ} {reuseDetected : Bool}
    (h : revokeTokens p now reuseDetected s = .ok ((), s')) :
    s' = s.revokeWhere p now reuseDetected :=
  ((Table.update_eq_ok_iff (ε := AuthError) refreshToken).mp h).2

theorem createRefreshToken_eq_ok {sessionId userId expiresAt generation tokenHash : ℕ}
    (h : createRefreshToken sessionId userId expiresAt generation s = .ok (tokenHash, s')) :
    s' = s.withFamily sessionId userId expiresAt generation := by
  obtain ⟨id, s₁, hid, h⟩ := Transaction.bind_eq_ok_iff.mp h
  cases hid
  obtain ⟨familyId, s₂, hfamily, h⟩ := Transaction.bind_eq_ok_iff.mp h
  cases hfamily
  obtain ⟨hash, s₃, hhash, h⟩ := Transaction.bind_eq_ok_iff.mp h
  cases hhash
  obtain ⟨u, s₄, hinsert, h⟩ := Transaction.bind_eq_ok_iff.mp h
  obtain ⟨-, rfl⟩ := (Table.insert_eq_ok_iff (ε := AuthError) refreshToken).mp hinsert
  cases h
  rfl

theorem rotate_eq_ok {row : RefreshToken} {now expiresAt tokenHash : ℕ}
    (h : rotate row now expiresAt s = .ok (tokenHash, s')) :
    SameTokens (s.withRotation row now expiresAt) s' := by
  obtain ⟨newTokenId, s₁, hid, h⟩ := Transaction.bind_eq_ok_iff.mp h
  cases hid
  obtain ⟨hash, s₂, hhash, h⟩ := Transaction.bind_eq_ok_iff.mp h
  cases hhash
  obtain ⟨u, s₃, hinsert, h⟩ := Transaction.bind_eq_ok_iff.mp h
  obtain ⟨-, rfl⟩ := (Table.insert_eq_ok_iff (ε := AuthError) refreshToken).mp hinsert
  obtain ⟨s₄, s₄', hget, h⟩ := Transaction.bind_eq_ok_iff.mp h
  cases hget
  split at h
  · obtain ⟨u, s₅, hupdate, h⟩ := Transaction.bind_eq_ok_iff.mp h
    obtain ⟨-, rfl⟩ := (Table.update_eq_ok_iff (ε := AuthError) refreshToken).mp hupdate
    obtain ⟨u, s₆, hsession, h⟩ := Transaction.bind_eq_ok_iff.mp h
    cases h
    exact updateSession_within _ _ _ _ _ hsession
  · obtain ⟨u, s₅, hthrow, -⟩ := Transaction.bind_eq_ok_iff.mp h
    cases hthrow

theorem revokeSession_eq_ok {sessionId now : ℕ}
    (h : revokeSession sessionId now s = .ok ((), s')) :
    ∃ s₁, SameTokens s s₁ ∧
      s' = s₁.revokeWhere (fun token => decide (token.sessionId = sessionId)) now false := by
  obtain ⟨u, s₁, hsession, h⟩ := Transaction.bind_eq_ok_iff.mp h
  exact ⟨s₁, updateSession_within _ _ _ _ _ hsession, revokeTokens_eq_ok h⟩

theorem revokeFamily_eq_ok {familyId now : ℕ} {sessionIds : List ℕ}
    (h : revokeFamily familyId sessionIds now s = .ok ((), s')) :
    SameTokens (s.revokeWhere (fun token => decide (token.familyId = familyId)) now true) s' := by
  obtain ⟨u, s₁, htokens, h⟩ := Transaction.bind_eq_ok_iff.mp h
  obtain rfl := revokeTokens_eq_ok htokens
  split at h
  · exact revokeSessions_within _ _ _ _ _ h
  · cases h
    exact refl_of SameTokens _

theorem resetPassword_eq_ok {key userId passwordHash now : ℕ}
    (h : resetPassword key userId passwordHash now s = .ok ((), s')) :
    ∃ s₁, SameTokens s s₁ ∧ s' = s₁.withReset key userId now := by
  obtain ⟨u, s₁, hcredential, h⟩ := Transaction.bind_eq_ok_iff.mp h
  obtain ⟨u, s₂, hsessions, h⟩ := Transaction.bind_eq_ok_iff.mp h
  obtain ⟨u, s₃, htokens, h⟩ := Transaction.bind_eq_ok_iff.mp h
  obtain rfl := revokeTokens_eq_ok htokens
  cases h
  refine ⟨s₂, ?_, rfl⟩
  exact trans_of SameTokens (updateCredential_within _ _ _ _ _ hcredential)
    (revokeSessions_within _ _ _ _ _ hsessions)

end transactions

/-! ## Rules of a Contract About Tokens -/

/-- Every refresh token is still there, in a later version. -/
def TokensKept (R : RefreshToken → RefreshToken → Prop) (s s' : AuthStore) : Prop :=
  Persist R s.refreshTokens s'.refreshTokens

instance {R : RefreshToken → RefreshToken → Prop} [IsPreorder RefreshToken R] :
    IsPreorder AuthStore (TokensKept R) where
  refl s := refl_of (Persist R) s.refreshTokens
  trans _ _ _ h₁ h₂ := trans_of (Persist R) h₁ h₂

variable {admits : AuthAccess → AuthStore → Prop} {inv : AuthStore → Prop}
  {R : RefreshToken → RefreshToken → Prop} [IsPreorder RefreshToken R]

/-- What a contract about refresh tokens asks of their changes. -/
structure TokenRules (admits : AuthAccess → AuthStore → Prop) (inv : AuthStore → Prop)
    (R : RefreshToken → RefreshToken → Prop) : Prop where
  init : ∀ s, SignedOut s → inv s
  same : ∀ s s', SameTokens s s' → inv s → inv s'
  identity : ∀ token token', R token token' → token.SameIdentity token'
  revoked : ∀ now reuseDetected token, R token (token.revoke now reuseDetected)
  revoke : ∀ s p now reuseDetected, inv s → inv (s.revokeWhere p now reuseDetected)
  family : ∀ s sessionId userId expiresAt generation, inv s →
    admits (.createRefreshToken userId generation) s →
      inv (s.withFamily sessionId userId expiresAt generation)
  /-- The row of a refresh was neither revoked nor rotated when it was read. -/
  rotate : ∀ s row now expiresAt token, inv s → row.revokedAt = none → row.rotatedAt = none →
    token ∈ s.refreshTokens → row.SameIdentity token → admits (.rotate row) s →
      inv (s.withRotation row now expiresAt) ∧ TokensKept R s (s.withRotation row now expiresAt)
  /-- The reset token was found in some earlier store. -/
  reset : ∀ s s₁ s₀ key userId seen now, inv s → SameTokens s s₁ →
    admits (.getResetToken key) s₀ → findResetToken key s₀ = some (userId, seen) →
      admits (.resetPassword key seen) s → inv (s₁.withReset key userId now)

def tokenContract (admits : AuthAccess → AuthStore → Prop) (inv : AuthStore → Prop)
    (R : RefreshToken → RefreshToken → Prop) [IsPreorder RefreshToken R] :
    Contract AuthStore AuthAccess :=
  .ofInvariant admits inv (TokensKept R)

namespace TokenRules

section accesses

variable (rules : TokenRules admits inv R)

include rules

theorem evolves_of_same {s s' : AuthStore} (h : SameTokens s s') :
    (tokenContract admits inv R).evolves s s' := by
  intro hs
  refine ⟨rules.same s s' h hs, ?_⟩
  show Persist R s.refreshTokens s'.refreshTokens
  rw [h.refreshTokens]
  exact refl_of (Persist R) _

theorem evolves_revokeWhere (s : AuthStore) (p : RefreshToken → Bool) (now : ℕ)
    (reuseDetected : Bool) :
    (tokenContract admits inv R).evolves s (s.revokeWhere p now reuseDetected) :=
  fun hs => ⟨rules.revoke s p now reuseDetected hs,
    Persist.updateWhere fun token _ _ => rules.revoked now reuseDetected token⟩

theorem allows_of_within {α : Type} {l : AuthAccess} {t : AuthTx α} (h : t.Within SameTokens) :
    (tokenContract admits inv R).Allows l (Prog.commit t) :=
  Contract.allows_commit _ fun s a s' _ ht => rules.evolves_of_same (h s a s' ht)

theorem always_of_within {α : Type} {l : AuthAccess} {t : AuthTx α} (h : t.Within SameTokens) :
    (Prog.atomically l t : AuthService α).Always (tokenContract admits inv R).Allows :=
  Prog.always_atomically (rules.allows_of_within h)

theorem always_createRefreshToken (sessionId userId expiresAt generation : ℕ) :
    (Prog.atomically (.createRefreshToken userId generation)
      (createRefreshToken sessionId userId expiresAt generation) : AuthService ℕ).Always
        (tokenContract admits inv R).Allows := by
  apply Prog.always_atomically
  apply Contract.allows_commit
  intro s tokenHash s' hadmits hs hinv
  obtain rfl := createRefreshToken_eq_ok hs
  exact ⟨rules.family s sessionId userId expiresAt generation hinv hadmits,
    Persist.append R s.refreshTokens _⟩

theorem always_revokeSession (sessionId now : ℕ) :
    (Prog.atomically (.revokeSession sessionId) (revokeSession sessionId now) :
      AuthService Unit).Always (tokenContract admits inv R).Allows := by
  apply Prog.always_atomically
  apply Contract.allows_commit
  intro s _ s' _ hs
  obtain ⟨s₁, hsame, rfl⟩ := revokeSession_eq_ok hs
  exact Contract.trans _ (rules.evolves_of_same hsame) (rules.evolves_revokeWhere s₁ _ now false)

theorem always_revokeFamily (familyId now : ℕ) (sessionIds : List ℕ) :
    (Prog.atomically (.revokeFamily familyId) (revokeFamily familyId sessionIds now) :
      AuthService Unit).Always (tokenContract admits inv R).Allows := by
  apply Prog.always_atomically
  apply Contract.allows_commit
  intro s _ s' _ hs
  exact Contract.trans _ (rules.evolves_revokeWhere s _ now true)
    (rules.evolves_of_same (revokeFamily_eq_ok hs))

end accesses

section programs

variable {env : AuthEnv} (rules : TokenRules admits inv R)

theorem always_query {α : Type} (f : AuthStore → α) :
    (query f).Always (tokenContract admits inv R).Allows :=
  Prog.always_read (Contract.allows_id _ _)

theorem always_external : external.Always (tokenContract admits inv R).Allows :=
  Prog.always_read (Contract.allows_id _ _)

include rules

theorem always_issueSession (userId generation : ℕ) :
    (issueSession env userId generation).Always (tokenContract admits inv R).Allows := by
  refine Prog.always_bind (always_query _) fun now => ?_
  refine Prog.always_bind (rules.always_of_within (createSession_within _ _)) fun sessionId => ?_
  refine Prog.always_bind (rules.always_createRefreshToken _ _ _ _) fun refreshToken => ?_
  exact Prog.always_bind always_external fun _ => Prog.always_pure _

theorem always_completeLogin (credential : UserCredential) (generation : ℕ) :
    (completeLogin env credential generation).Always (tokenContract admits inv R).Allows := by
  refine Prog.always_bind (rules.always_of_within (updateCredential_within _ _)) fun _ => ?_
  refine Prog.always_bind always_external fun _ => ?_
  split
  · exact Prog.always_bind (rules.always_of_within (setMfaToken_within _ _ _)) fun _ =>
      Prog.always_pure _
  · exact rules.always_issueSession _ _

theorem always_login (email password : String) :
    (login env email password).Always (tokenContract admits inv R).Allows := by
  refine Prog.always_bind (always_query _) fun found => ?_
  split
  · split
    · exact Prog.always_throw _
    · refine Prog.always_bind (always_query _) fun now => ?_
      split
      · exact Prog.always_throw _
      · split
        · exact rules.always_completeLogin _ _
        · refine Prog.always_bind (Prog.always_bind (always_query _) fun _ => ?_) fun _ =>
            Prog.always_throw _
          exact rules.always_of_within (updateCredential_within _ _)
  · exact Prog.always_throw _

theorem always_exchangeMfa (mfaToken : ℕ) (code : String) :
    (exchangeMfa env mfaToken code).Always (tokenContract admits inv R).Allows := by
  refine Prog.always_bind (always_query _) fun found => ?_
  split
  · exact Prog.always_throw _
  · refine Prog.always_bind (always_query _) fun credential => ?_
    split
    · exact Prog.always_throw _
    · split
      · refine Prog.always_bind (rules.always_of_within ?_) fun _ => rules.always_issueSession _ _
        exact Transaction.within_modify fun s => ⟨rfl, rfl, Nat.le_refl _⟩
      · exact Prog.always_throw _

theorem always_logout (userId sessionId : ℕ) :
    (logout userId sessionId).Always (tokenContract admits inv R).Allows := by
  refine Prog.always_bind (always_query _) fun found => ?_
  split
  · exact Prog.always_pure _
  · split
    · exact Prog.always_pure _
    · refine Prog.always_bind (always_query _) fun now => ?_
      exact Prog.always_bind (rules.always_revokeSession _ _) fun _ => always_external

theorem always_requestPasswordReset (email : String) :
    (requestPasswordReset env email).Always (tokenContract admits inv R).Allows := by
  refine Prog.always_bind (always_query _) fun found => ?_
  split
  · exact Prog.always_pure _
  · exact Prog.always_bind (rules.always_of_within (setResetToken_within _ _)) fun _ =>
      always_external

omit rules in
theorem stable_known (hidentity : ∀ token token', R token token' → token.SameIdentity token')
    (row : RefreshToken) : (tokenContract admits inv R).Stable fun s =>
      inv s ∧ ∃ token ∈ s.refreshTokens, row.SameIdentity token := by
  apply Contract.stable_of_mono
  rintro s s' _ hkept ⟨token, htoken, hid, hfamily, huser, hgeneration⟩
  obtain ⟨token', htoken', hR⟩ := hkept token htoken
  obtain ⟨hid', hfamily', huser', hgeneration'⟩ := hidentity token token' hR
  exact ⟨token', htoken', hid'.trans hid, hfamily'.trans hfamily, huser'.trans huser,
    hgeneration'.trans hgeneration⟩

theorem safe_rotate {s : AuthStore} {row : RefreshToken} {now expiresAt : ℕ} (hs : inv s)
    (hknown : ∃ token ∈ s.refreshTokens, row.SameIdentity token) (hrevoked : row.revokedAt = none)
    (hrotated : row.rotatedAt = none) :
    (tokenContract admits inv R).Safe
      (do
        let newToken ← Prog.atomically (.rotate row) (Auth.rotate row now expiresAt)
        external
        return .authenticated newToken : AuthService LoginResult) s := by
  apply Contract.safe_bind_of_wp
  apply Contract.wp_atomically
  · exact fun _ _ _ => trivial
  · intro s' newToken s'' hev hadmits hcommit
    refine ⟨fun hs' => ?_, ?_⟩
    · -- The token that was read is still there, in a later version.
      obtain ⟨-, token, htoken, hidentity⟩ :=
        stable_known rules.identity row s s' hev ⟨hs, hknown⟩
      obtain ⟨hinv, hkept⟩ :=
        rules.rotate s' row now expiresAt token hs' hrevoked hrotated htoken hidentity hadmits
      have hsame := rules.evolves_of_same (rotate_eq_ok hcommit) hinv
      exact ⟨hsame.1, trans_of (TokensKept R) hkept hsame.2⟩
    · exact Contract.safe_of_always (Prog.always_bind always_external fun _ => Prog.always_pure _)

theorem safe_refresh {s : AuthStore} (hs : inv s) (tokenHash : ℕ) :
    (tokenContract admits inv R).Safe (refresh env tokenHash) s := by
  apply Contract.safe_bind_of_wp
  apply Contract.wp_read
  · exact fun _ _ _ => trivial
  · intro s' hev _
    split
    · trivial
    · next row session hfound =>
      obtain ⟨row', hrow', hsession⟩ := Option.bind_eq_some_iff.mp hfound
      obtain ⟨_, -, hpair⟩ := Option.map_eq_some_iff.mp hsession
      obtain rfl : row' = row := (Prod.mk.inj hpair).1
      have hknown : inv s' ∧ ∃ token ∈ s'.refreshTokens, row'.SameIdentity token :=
        ⟨(hev hs).1, row', List.mem_of_find?_eq_some hrow', rfl, rfl, rfl, rfl⟩
      split
      · trivial
      · next hrevoked =>
        refine Contract.safe_bind (stable_known rules.identity row') hknown
          (Contract.safe_of_always (always_query _)) fun now s'' hknown' => ?_
        split
        · trivial
        · split
          · apply Contract.safe_of_always
            refine Prog.always_bind (always_query _) fun sessionIds => ?_
            refine Prog.always_bind (rules.always_revokeFamily _ _ _) fun _ => ?_
            exact Prog.always_bind always_external fun _ => Prog.always_throw _
          · next hrotated =>
            apply rules.safe_rotate hknown'.1 hknown'.2
            · simpa using (not_or.mp hrevoked).1
            · simpa using hrotated

theorem safe_confirmPasswordReset {s : AuthStore} (hs : inv s) (resetToken : ℕ)
    (newPassword : String) :
    (tokenContract admits inv R).Safe (confirmPasswordReset env resetToken newPassword) s := by
  unfold confirmPasswordReset
  split
  · trivial
  · apply Contract.safe_bind_of_wp
    apply Contract.wp_read
    · exact fun _ _ _ => trivial
    · intro s₀ hev hadmits
      split
      · trivial
      · next userId seen hfound =>
        refine Contract.safe_bind Contract.stable_invariant (hev hs).1
          (Contract.safe_of_always (always_query _)) fun now s₁ _ => ?_
        apply Contract.safe_of_always
        refine Prog.always_bind (Prog.always_atomically (Contract.allows_commit _ ?_)) fun _ => ?_
        · intro s _ s' hadmits' hcommit hinv
          obtain ⟨s₁, hsame, rfl⟩ := resetPassword_eq_ok hcommit
          refine ⟨rules.reset s s₁ s₀ _ _ _ now hinv hsame hadmits hfound hadmits', ?_⟩
          have hs₁ := rules.evolves_of_same hsame hinv
          apply trans_of (TokensKept R) hs₁.2
          exact (rules.evolves_revokeWhere s₁ _ now false hs₁.1).2
        · refine Prog.always_bind (rules.always_of_within ?_) fun _ => always_external
          exact Transaction.within_modify fun s => ⟨rfl, rfl, Nat.le_refl _⟩

theorem respects (env : AuthEnv) : (authSystem env).Respects (tokenContract admits inv R) := by
  intro s₀ s i hinit hev _
  have hs : inv s := (hev (rules.init s₀ hinit)).1
  have hdiscard : ∀ {α : Type} {p : AuthService α}, (tokenContract admits inv R).Safe p s →
      (tokenContract admits inv R).Safe (discard p) s := fun hp =>
    Contract.safe_bind Contract.stable_invariant hs hp fun _ _ _ => trivial
  cases i with
  | login email password => exact hdiscard (Contract.safe_of_always (rules.always_login _ _))
  | exchangeMfa mfaToken code =>
    exact hdiscard (Contract.safe_of_always (rules.always_exchangeMfa _ _))
  | refresh tokenHash => exact hdiscard (rules.safe_refresh hs tokenHash)
  | logout userId sessionId => exact Contract.safe_of_always (rules.always_logout _ _)
  | requestPasswordReset email =>
    exact Contract.safe_of_always (rules.always_requestPasswordReset _)
  | confirmPasswordReset resetToken newPassword =>
    exact rules.safe_confirmPasswordReset hs resetToken newPassword
  | tick =>
    apply Contract.safe_of_always
    exact rules.always_of_within (Transaction.within_modify fun s => ⟨rfl, rfl, Nat.le_refl _⟩)

end programs

end TokenRules

end AudioBook.Auth
