import AudioBook.Auth.Steps

/-!
# Token Families

A login starts a family of refresh tokens; every refresh rotates the current token of the family
to a successor. The service checks that a token was not rotated when it reads the row, but the
transaction that rotates it does not check again, so two refreshes of one token that both read it
first rotate it to two live successors. In runs in which a token is not rotated between a
refresh's read and its commit, a family has at most one token that was not rotated.

Main results:

- `families_of_notRotatedSinceRead`: both hold in such runs.
-/

namespace AudioBook.Auth

open Relational Concurrent

/-- The token is neither rotated nor revoked. -/
def RefreshToken.Live (token : RefreshToken) : Prop :=
  token.rotatedAt = none ∧ token.revokedAt = none

instance (token : RefreshToken) : Decidable token.Live :=
  inferInstanceAs (Decidable (_ ∧ _))

def liveTokens (familyId : ℕ) (s : AuthStore) : List RefreshToken :=
  s.refreshTokens.filter fun token => decide (token.familyId = familyId ∧ token.Live)

/-- Every family has at most one live token. -/
def OneLiveToken (s : AuthStore) : Prop :=
  ∀ familyId, (liveTokens familyId s).length ≤ 1

/-- Every token that was rotated stays rotated, to the same successor. A refresh that is accepted
points its token to a successor of its own, so no such token is accepted again. -/
def SuccessorsKept (s s' : AuthStore) : Prop :=
  ∀ token ∈ s.refreshTokens, token.rotatedAt.isSome →
    ∃ token' ∈ s'.refreshTokens, token'.id = token.id ∧ token'.rotatedAt.isSome ∧
      token'.rotatedToId = token.rotatedToId

def NotRotatedSinceRead : AuthAccess → AuthStore → Prop
  | .rotate row, s => ∀ token ∈ s.refreshTokens, token.id = row.id → token.rotatedAt = row.rotatedAt
  | _, _ => True

instance (a : AuthAccess) (s : AuthStore) : Decidable (NotRotatedSinceRead a s) :=
  match a with
  | .rotate row =>
      inferInstanceAs (Decidable (∀ token ∈ s.refreshTokens, token.id = row.id →
        token.rotatedAt = row.rotatedAt))
  | .query | .external | .updateCredential _ | .setMfaToken _ | .removeMfaToken _
  | .createSession _ | .createRefreshToken _ _ | .revokeSession _ | .revokeFamily _
  | .setResetToken _ | .getResetToken _ | .resetPassword _ _ | .removeResetToken _ | .tick =>
      isTrue trivial

/-! ## The Invariant -/

/-- The key under which a token that was not rotated occupies its family. -/
def unrotatedKey (token : RefreshToken) : Option ℕ :=
  if token.rotatedAt.isNone then some token.familyId else none

/-- Every family has at most one token that was not rotated, and new ids are new. -/
structure FamiliesOk (s : AuthStore) : Prop where
  id : (s.refreshTokens.map RefreshToken.id).Nodup
  id_lt : ∀ token ∈ s.refreshTokens, token.id < s.nextId ∧ token.familyId < s.nextId
  unrotated : UniqueWhere unrotatedKey s.refreshTokens

/-- A later version of a token: it is the same token, and a successor stays. -/
def RefreshToken.SameSuccessor (token token' : RefreshToken) : Prop :=
  token.SameIdentity token' ∧
    (token.rotatedAt.isSome → token'.rotatedAt.isSome ∧ token'.rotatedToId = token.rotatedToId)

instance : IsPreorder RefreshToken RefreshToken.SameSuccessor where
  refl token := ⟨⟨rfl, rfl, rfl, rfl⟩, fun h => ⟨h, rfl⟩⟩
  trans := by
    rintro a b c ⟨⟨hid, hfamily, huser, hgeneration⟩, hab⟩
      ⟨⟨hid', hfamily', huser', hgeneration'⟩, hbc⟩
    refine ⟨⟨hid'.trans hid, hfamily'.trans hfamily, huser'.trans huser,
      hgeneration'.trans hgeneration⟩, fun ha => ?_⟩
    obtain ⟨hb, hsuccessor⟩ := hab ha
    obtain ⟨hc, hsuccessor'⟩ := hbc hb
    exact ⟨hc, hsuccessor'.trans hsuccessor⟩

section changes

variable {s : AuthStore}

theorem FamiliesOk.of_same {s' : AuthStore} (h : FamiliesOk s) (hsame : SameTokens s s') :
    FamiliesOk s' := by
  refine ⟨?_, ?_, ?_⟩ <;> rw [hsame.refreshTokens]
  · exact h.id
  · intro token htoken
    obtain ⟨hid, hfamily⟩ := h.id_lt token htoken
    exact ⟨Nat.lt_of_lt_of_le hid hsame.nextId, Nat.lt_of_lt_of_le hfamily hsame.nextId⟩
  · exact h.unrotated

theorem FamiliesOk.revokeWhere (h : FamiliesOk s) (p : RefreshToken → Bool) (now : ℕ)
    (reuseDetected : Bool) : FamiliesOk (s.revokeWhere p now reuseDetected) where
  id := nodup_map_updateWhere h.id fun _ => rfl
  id_lt := forall_mem_updateWhere h.id_lt fun token htoken _ => h.id_lt token htoken
  unrotated := h.unrotated.updateWhere_of_retire fun _ _ _ => .inr rfl

theorem FamiliesOk.withFamily (h : FamiliesOk s) (sessionId userId expiresAt generation : ℕ) :
    FamiliesOk (s.withFamily sessionId userId expiresAt generation) where
  id := by
    show ((s.refreshTokens ++ [_]).map RefreshToken.id).Nodup
    rw [List.map_append, List.nodup_append]
    refine ⟨h.id, by simp, ?_⟩
    intro i hi i' hi' heq
    obtain ⟨token, htoken, rfl⟩ := List.mem_map.mp hi
    have hlt := (h.id_lt token htoken).1
    obtain rfl : i' = s.nextId := by simpa [RefreshToken.first] using hi'
    omega
  id_lt := by
    intro token htoken
    show token.id < s.nextId + 3 ∧ token.familyId < s.nextId + 3
    rcases List.mem_append.mp htoken with htoken | htoken
    · have := h.id_lt token htoken
      omega
    · obtain rfl := List.mem_singleton.mp htoken
      exact ⟨by simp [RefreshToken.first], by simp [RefreshToken.first]⟩
  unrotated := by
    refine uniqueWhere_concat_iff.mpr ⟨h.unrotated, ?_⟩
    intro familyId hfamilyId token htoken hkey
    have hlt := (h.id_lt token htoken).2
    obtain rfl : s.nextId + 1 = familyId := by
      simpa [unrotatedKey, RefreshToken.first] using hfamilyId
    simp only [unrotatedKey, Option.ite_none_right_eq_some, Option.some.injEq] at hkey
    omega

theorem withRotation_refreshTokens (h : FamiliesOk s) {row token : RefreshToken}
    (htoken : token ∈ s.refreshTokens) (hid : token.id = row.id) (now expiresAt : ℕ) :
    (s.withRotation row now expiresAt).refreshTokens =
      updateWhere (fun token => decide (token.id = row.id)) (RefreshToken.rotateTo now s.nextId)
        s.refreshTokens ++ [row.successor expiresAt s.nextId (s.nextId + 1)] := by
  have hlt := (h.id_lt token htoken).1
  have hne : s.nextId ≠ row.id := by omega
  show updateWhere _ _ (s.refreshTokens ++ [_]) = _
  simp [updateWhere, RefreshToken.successor, hne]

theorem FamiliesOk.withRotation (h : FamiliesOk s) {row token : RefreshToken}
    (htoken : token ∈ s.refreshTokens) (hidentity : row.SameIdentity token)
    (hunrotated : token.rotatedAt = none) (now expiresAt : ℕ) :
    FamiliesOk (s.withRotation row now expiresAt) := by
  obtain ⟨hid, hfamily, -, -⟩ := hidentity
  have hrows := withRotation_refreshTokens h htoken hid now expiresAt
  have hids : (updateWhere (fun token => decide (token.id = row.id))
      (RefreshToken.rotateTo now s.nextId) s.refreshTokens).map RefreshToken.id =
        s.refreshTokens.map RefreshToken.id := by
    apply map_updateWhere
    exact fun _ => rfl
  refine ⟨?_, ?_, ?_⟩
  · rw [hrows, List.map_append, hids, List.nodup_append]
    refine ⟨h.id, by simp, ?_⟩
    intro i hi i' hi' heq
    obtain ⟨token', htoken', rfl⟩ := List.mem_map.mp hi
    have hlt := (h.id_lt token' htoken').1
    obtain rfl : i' = s.nextId := by simpa [RefreshToken.successor] using hi'
    omega
  · rw [hrows]
    have hlt : ∀ token ∈ s.refreshTokens, token.id < s.nextId + 2 ∧ token.familyId < s.nextId + 2 :=
      fun token' htoken' => by
        have := h.id_lt token' htoken'
        omega
    have hlt' : ∀ token ∈ updateWhere (fun token => decide (token.id = row.id))
        (RefreshToken.rotateTo now s.nextId) s.refreshTokens,
          token.id < s.nextId + 2 ∧ token.familyId < s.nextId + 2 :=
      forall_mem_updateWhere hlt fun token' htoken' _ => hlt token' htoken'
    intro token' htoken'
    show token'.id < s.nextId + 2 ∧ token'.familyId < s.nextId + 2
    rcases List.mem_append.mp htoken' with htoken' | htoken'
    · exact hlt' token' htoken'
    · obtain rfl := List.mem_singleton.mp htoken'
      have := hlt token htoken
      simp only [RefreshToken.successor]
      omega
  · rw [hrows]
    refine uniqueWhere_concat_iff.mpr
      ⟨h.unrotated.updateWhere_of_retire fun _ _ _ => .inl rfl, ?_⟩
    intro familyId hfamilyId token' htoken' hkey
    obtain rfl : row.familyId = familyId := by
      simpa [unrotatedKey, RefreshToken.successor] using hfamilyId
    rcases mem_updateWhere.mp htoken' with ⟨_, -, -, rfl⟩ | ⟨htoken', hother⟩
    · cases hkey
    · -- Another token of the family that was not rotated would have been one before.
      have hold := (uniqueWhere_iff_of_ids h.id).mp h.unrotated token htoken token' htoken'
      have hne : token.id ≠ token'.id := by
        intro heq
        rw [← heq, hid] at hother
        simp at hother
      refine hold hne row.familyId ?_ hkey
      simp [unrotatedKey, hunrotated, hfamily]

end changes

theorem tokenRules_families :
    TokenRules NotRotatedSinceRead FamiliesOk RefreshToken.SameSuccessor where
  init s hs := by
    refine ⟨?_, ?_, ?_⟩ <;> rw [hs.refreshTokens]
    · exact List.nodup_nil
    · simp
    · exact List.nodup_nil
  same _ _ hsame hs := hs.of_same hsame
  identity _ _ h := h.1
  revoked _ _ _ := ⟨⟨rfl, rfl, rfl, rfl⟩, fun h => ⟨h, rfl⟩⟩
  revoke _ p now reuseDetected hs := hs.revokeWhere p now reuseDetected
  family _ sessionId userId expiresAt generation hs _ :=
    hs.withFamily sessionId userId expiresAt generation
  rotate s row now expiresAt token hs _ hrow htoken hidentity hadmits := by
    have hunrotated : ∀ token ∈ s.refreshTokens, token.id = row.id → token.rotatedAt = none :=
      fun token htoken hid => (hadmits token htoken hid).trans hrow
    refine ⟨hs.withRotation htoken hidentity (hunrotated token htoken hidentity.1) now expiresAt, ?_⟩
    intro token' htoken'
    rw [withRotation_refreshTokens hs htoken hidentity.1]
    have hkept : Persist RefreshToken.SameSuccessor s.refreshTokens
        (updateWhere (fun token => decide (token.id = row.id))
          (RefreshToken.rotateTo now s.nextId) s.refreshTokens) := by
      apply Persist.updateWhere
      intro token htoken hid
      refine ⟨⟨rfl, rfl, rfl, rfl⟩, fun hrotated => ?_⟩
      rw [hunrotated token htoken (by simpa using hid)] at hrotated
      cases hrotated
    obtain ⟨token'', htoken'', hR⟩ := hkept token' htoken'
    exact ⟨token'', List.mem_append_left _ htoken'', hR⟩
  reset s s₁ _ key userId _ now hs hsame _ _ _ := by
    obtain ⟨hid, hlt, hunrotated⟩ :=
      (hs.of_same hsame).revokeWhere (fun token => decide (token.userId = userId)) now false
    exact ⟨hid, hlt, hunrotated⟩

theorem FamiliesOk.oneLiveToken {s : AuthStore} (h : FamiliesOk s) : OneLiveToken s := by
  intro familyId
  refine h.unrotated.length_filter_le_one (k := familyId) ?_
  intro token _ hlive
  obtain ⟨hfamily, hrotated, -⟩ : token.familyId = familyId ∧ token.Live := by simpa using hlive
  simp [unrotatedKey, hrotated, hfamily]

/-- In every run in which a refresh commits only on a token that was not rotated since it read the
row, every family has at most one live token and no rotated token is accepted again. -/
theorem families_of_notRotatedSinceRead (env : AuthEnv) {c c' : Config AuthStore AuthAccess AuthError}
    (h : (authSystem env).Reachable NotRotatedSinceRead c)
    (hrun : (authSystem env).Run NotRotatedSinceRead c c') :
    OneLiveToken c'.store ∧ SuccessorsKept c.store c'.store := by
  have hrespects := tokenRules_families.respects env
  obtain ⟨s₀, hinit, hev⟩ := hrespects.evolves_of_reachable h
  have hok : FamiliesOk c.store := (hev (tokenRules_families.init s₀ hinit)).1
  obtain ⟨hok', hkept⟩ := hrespects.evolves_of_run h hrun hok
  refine ⟨hok'.oneLiveToken, fun token htoken hrotated => ?_⟩
  obtain ⟨token', htoken', ⟨hid, -⟩, hsuccessor⟩ := hkept token htoken
  exact ⟨token', htoken', hid, hsuccessor hrotated⟩

/-! ## Two Refreshes of One Token -/

def sampleEnv : AuthEnv where
  argon2Verify passwordHash password := decide (passwordHash = password.length)
  argon2Hash password := password.length
  verifyTotp _ _ := false

def oneUser : AuthStore where
  users := [{ id := 1, email := "reader@example.org" }]
  credentials := [{ userId := 1, passwordHash := 12 }]
  nextId := 100

theorem signedOut_oneUser : SignedOut oneUser := ⟨rfl, rfl, rfl, rfl, rfl⟩

/-- The login of the user; it starts family 102 with token 101, whose secret is 103. -/
def loginMoves (n : ℕ) : List (Move AuthRequest AuthError) :=
  .spawn (.login "reader@example.org" "twelve-chars") :: List.replicate 8 (.proceed n)

structure TokenState where
  id : ℕ
  familyId : ℕ
  successor : Option ℕ
  live : Bool
  deriving DecidableEq

/-- The tokens with their family, their successor, and whether they are live. -/
def tokenStates (s : AuthStore) : List TokenState :=
  s.refreshTokens.map fun token =>
    ⟨token.id, token.familyId, token.rotatedToId, decide token.Live⟩

/-- A token is refreshed, and then presented again: its family is revoked, and it keeps its
successor. -/
theorem families_reuse : ∃ c c' : Config AuthStore AuthAccess AuthError,
    (authSystem sampleEnv).Reachable NotRotatedSinceRead c ∧
      (authSystem sampleEnv).Run NotRotatedSinceRead c c' ∧
      tokenStates c.store = [⟨101, 102, some 104, false⟩, ⟨104, 102, none, true⟩] ∧
      tokenStates c'.store = [⟨101, 102, some 104, false⟩, ⟨104, 102, none, false⟩] ∧
      OneLiveToken c'.store ∧ SuccessorsKept c.store c'.store := by
  have hplay : ((authSystem sampleEnv).playAll NotRotatedSinceRead ⟨oneUser, []⟩
      (loginMoves 0 ++ .spawn (.refresh 103) :: List.replicate 4 (.proceed 1))).bind (fun c₁ =>
        ((authSystem sampleEnv).playAll NotRotatedSinceRead c₁
          (.spawn (.refresh 103) :: List.replicate 4 (.proceed 2))).map fun c₂ =>
            (tokenStates c₁.store, tokenStates c₂.store)) =
      some ([⟨101, 102, some 104, false⟩, ⟨104, 102, none, true⟩],
        [⟨101, 102, some 104, false⟩, ⟨104, 102, none, false⟩]) := by decide +kernel
  obtain ⟨c, c', hrun, hrun', hstates, hstates'⟩ :=
    System.exists_run_run_of_playAll (f := tokenStates) (g := tokenStates) hplay
  have hreach : (authSystem sampleEnv).Reachable NotRotatedSinceRead c :=
    ⟨oneUser, signedOut_oneUser, hrun⟩
  exact ⟨c, c', hreach, hrun', hstates, hstates',
    families_of_notRotatedSinceRead sampleEnv hreach hrun'⟩

/-- It is not so that a family has at most one live token: two refreshes that both read the token
before either rotates it leave two successors. -/
theorem not_forall_oneLiveToken :
    ¬ ∀ (env : AuthEnv) (c c' : Config AuthStore AuthAccess AuthError),
      (authSystem env).Reachable anyAccess c → (authSystem env).Run anyAccess c c' →
        OneLiveToken c'.store ∧ SuccessorsKept c.store c'.store := by
  intro h
  have hplay : ((authSystem sampleEnv).playAll anyAccess ⟨oneUser, []⟩
      (loginMoves 0 ++ [.spawn (.refresh 103), .spawn (.refresh 103), .proceed 1, .proceed 2,
        .proceed 1, .proceed 2, .proceed 1, .proceed 2])).map (fun c => tokenStates c.store) =
      some [⟨101, 102, some 106, false⟩, ⟨104, 102, none, true⟩, ⟨106, 102, none, true⟩] := by
    decide +kernel
  obtain ⟨c, hrun, hstates⟩ := System.exists_run_of_playAll (f := tokenStates) hplay
  have hone := (h sampleEnv c c ⟨oneUser, signedOut_oneUser, hrun⟩ .refl).1 102
  have hlive : (liveTokens 102 c.store).length =
      ((tokenStates c.store).filter fun t => decide (t.familyId = 102) && t.live).length := by
    rw [liveTokens, tokenStates, List.filter_map, List.length_map]
    congr 2
    funext token
    simp
  rw [hlive, hstates] at hone
  exact absurd hone (by decide)

end AudioBook.Auth
