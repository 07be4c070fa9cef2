import AudioBook.Auth.Families
import AudioBook.Concurrent.Lasting

/-!
# Families, Sessions and Their Revocation

A family of refresh tokens belongs to one session, and whatever revokes a token revokes the whole
family with its session: a logout by the session, the detection of a reuse by the family, a
password reset by the user. What the accesses of the auth service do is put together from two
changes. Rows may be marked, as revoked or as rotated, and a token may be inserted.

Main results:

- `Tracked.marks` and `Tracked.insert`: both changes keep the invariant.
-/

namespace AudioBook.Auth

open Relational Concurrent

/-! ## Revoked Families -/

/-- All tokens of the family are revoked, and all sessions of these tokens. -/
def FamilyRevoked (familyId : ℕ) (s : AuthStore) : Prop :=
  ∀ token ∈ s.refreshTokens, token.familyId = familyId →
    token.revokedAt.isSome ∧
      ∀ session ∈ s.sessions, session.id = token.sessionId → session.revokedAt.isSome

instance (familyId : ℕ) (s : AuthStore) : Decidable (FamilyRevoked familyId s) :=
  inferInstanceAs (Decidable (∀ token ∈ s.refreshTokens, token.familyId = familyId →
    token.revokedAt.isSome ∧
      ∀ session ∈ s.sessions, session.id = token.sessionId → session.revokedAt.isSome))

/-- If the session of the token is revoked, so is the token. -/
def RevokedWithSession (tokenId : ℕ) (s : AuthStore) : Prop :=
  ∀ token ∈ s.refreshTokens, token.id = tokenId →
    ∀ session ∈ s.sessions, session.id = token.sessionId → session.revokedAt.isSome →
      token.revokedAt.isSome

/-! ## What No Change Takes Back -/

/-- A later version of a token. -/
structure RefreshToken.Later (token token' : RefreshToken) : Prop where
  id : token'.id = token.id
  familyId : token'.familyId = token.familyId
  sessionId : token'.sessionId = token.sessionId
  userId : token'.userId = token.userId
  tokenHash : token'.tokenHash = token.tokenHash
  expiresAt : token'.expiresAt = token.expiresAt
  revoked : token.revokedAt.isSome → token'.revokedAt.isSome
  rotated : token.rotatedAt.isSome → token'.rotatedAt.isSome

instance : IsPreorder RefreshToken RefreshToken.Later where
  refl _ := ⟨rfl, rfl, rfl, rfl, rfl, rfl, fun h => h, fun h => h⟩
  trans _ _ _ h₁ h₂ := {
    id := h₂.id.trans h₁.id
    familyId := h₂.familyId.trans h₁.familyId
    sessionId := h₂.sessionId.trans h₁.sessionId
    userId := h₂.userId.trans h₁.userId
    tokenHash := h₂.tokenHash.trans h₁.tokenHash
    expiresAt := h₂.expiresAt.trans h₁.expiresAt
    revoked := fun h => h₂.revoked (h₁.revoked h)
    rotated := fun h => h₂.rotated (h₁.rotated h) }

/-- A later version of a session. -/
def Session.Later (session session' : Session) : Prop :=
  session'.id = session.id ∧ session'.userId = session.userId

instance : IsPreorder Session Session.Later where
  refl _ := ⟨rfl, rfl⟩
  trans _ _ _ h₁ h₂ := ⟨h₂.1.trans h₁.1, h₂.2.trans h₁.2⟩

/-- Rows stay, and so does what is said about a token or a family that is there. -/
structure Evolves (s s' : AuthStore) : Prop where
  tokens : Persist RefreshToken.Later s.refreshTokens s'.refreshTokens
  sessions : Persist Session.Later s.sessions s'.sessions
  withSession : ∀ token ∈ s.refreshTokens, RevokedWithSession token.id s →
    RevokedWithSession token.id s'
  revoked : ∀ token ∈ s.refreshTokens, FamilyRevoked token.familyId s →
    FamilyRevoked token.familyId s'

instance : IsPreorder AuthStore Evolves where
  refl s := ⟨refl_of (Persist _) _, refl_of (Persist _) _, fun _ _ h => h, fun _ _ h => h⟩
  trans s₁ s₂ s₃ h₁ h₂ := by
    refine ⟨trans_of (Persist _) h₁.tokens h₂.tokens, trans_of (Persist _) h₁.sessions h₂.sessions,
      fun token htoken h => ?_, fun token htoken h => ?_⟩
    · obtain ⟨token', htoken', hlater⟩ := h₁.tokens token htoken
      have h' := h₁.withSession token htoken h
      rw [← hlater.id] at h' ⊢
      exact h₂.withSession token' htoken' h'
    · obtain ⟨token', htoken', hlater⟩ := h₁.tokens token htoken
      have h' := h₁.revoked token htoken h
      rw [← hlater.familyId] at h' ⊢
      exact h₂.revoked token' htoken' h'

/-! ## The Invariant -/

/-- Every family belongs to one session, and is revoked with it as a whole. The sessions in
`reserved` were created for a token that is not there yet. -/
structure Tracked (s : AuthStore) (reserved : Multiset ℕ) : Prop where
  id : (s.refreshTokens.map RefreshToken.id).Nodup
  tokenHash : (s.refreshTokens.map RefreshToken.tokenHash).Nodup
  sessionId : (s.sessions.map Session.id).Nodup
  id_lt : ∀ token ∈ s.refreshTokens,
    token.id < s.nextId ∧ token.familyId < s.nextId ∧ token.tokenHash < s.nextId
  sessionId_lt : ∀ session ∈ s.sessions, session.id < s.nextId
  successor : SelfReferencing RefreshToken.id RefreshToken.rotatedToId s.refreshTokens
  owner : ∀ token ∈ s.refreshTokens, ∃ session ∈ s.sessions,
    session.id = token.sessionId ∧ session.userId = token.userId
  family : ∀ token ∈ s.refreshTokens, ∀ token' ∈ s.refreshTokens,
    token.familyId = token'.familyId ↔ token.sessionId = token'.sessionId
  revoked : ∀ token ∈ s.refreshTokens, token.revokedAt.isSome → FamilyRevoked token.familyId s
  rotated : ∀ token ∈ s.refreshTokens, token.rotatedAt.isSome → RevokedWithSession token.id s
  reserved_nodup : reserved.Nodup
  reserved_lt : ∀ sessionId ∈ reserved, sessionId < s.nextId
  unused : ∀ token ∈ s.refreshTokens, token.sessionId ∉ reserved

theorem tracked_of_signedOut {s : AuthStore} (h : SignedOut s) : Tracked s 0 := by
  constructor <;> simp [h.refreshTokens, h.sessions, SelfReferencing]

/-! ## Marking Rows -/

/-- A token, revoked if it was or if `p` holds of it, and rotated if it was or if `r` does. -/
structure RefreshToken.Marked (p r : RefreshToken → Prop) (token token' : RefreshToken) : Prop where
  id : token'.id = token.id
  familyId : token'.familyId = token.familyId
  sessionId : token'.sessionId = token.sessionId
  userId : token'.userId = token.userId
  tokenHash : token'.tokenHash = token.tokenHash
  expiresAt : token'.expiresAt = token.expiresAt
  revoked : token'.revokedAt.isSome ↔ token.revokedAt.isSome ∨ p token
  rotated : token'.rotatedAt.isSome ↔ token.rotatedAt.isSome ∨ r token

theorem RefreshToken.Marked.later {p r : RefreshToken → Prop} {token token' : RefreshToken}
    (h : token.Marked p r token') : token.Later token' :=
  ⟨h.id, h.familyId, h.sessionId, h.userId, h.tokenHash, h.expiresAt,
    fun hold => h.revoked.mpr (.inl hold), fun hold => h.rotated.mpr (.inl hold)⟩

/-- A session, revoked if it was or if `q` holds of it. -/
structure Session.Marked (q : Session → Prop) (session session' : Session) : Prop where
  id : session'.id = session.id
  userId : session'.userId = session.userId
  revoked : session'.revokedAt.isSome ↔ session.revokedAt.isSome ∨ q session

/-- The tokens with `p` and the sessions with `q` are revoked, the tokens with `r` rotated. -/
structure Marks (p : RefreshToken → Prop) (q : Session → Prop) (r : RefreshToken → Prop)
    (s s' : AuthStore) : Prop where
  tokens : List.Forall₂ (RefreshToken.Marked p r) s.refreshTokens s'.refreshTokens
  sessions : List.Forall₂ (Session.Marked q) s.sessions s'.sessions
  nextId : s.nextId ≤ s'.nextId
  successor : SelfReferencing RefreshToken.id RefreshToken.rotatedToId s.refreshTokens →
    SelfReferencing RefreshToken.id RefreshToken.rotatedToId s'.refreshTokens

section marks

variable {s s' : AuthStore} {p r : RefreshToken → Prop} {q : Session → Prop}
  {reserved : Multiset ℕ}

theorem Marks.familyRevoked (hm : Marks p q r s s') {familyId : ℕ}
    (h : FamilyRevoked familyId s) : FamilyRevoked familyId s' := by
  intro token' htoken' hfamily
  obtain ⟨token, htoken, hmarked⟩ := exists_mem_of_forall₂ hm.tokens htoken'
  obtain ⟨hrevoked, hsessions⟩ := h token htoken (hmarked.familyId.symm.trans hfamily)
  refine ⟨hmarked.revoked.mpr (.inl hrevoked), fun session' hsession' hid => ?_⟩
  obtain ⟨session, hsession, hmarked'⟩ := exists_mem_of_forall₂ hm.sessions hsession'
  apply hmarked'.revoked.mpr
  left
  exact hsessions session hsession (hmarked'.id.symm.trans (hid.trans hmarked.sessionId))

variable (h : Tracked s reserved) (hm : Marks p q r s s')
  (hpq : ∀ token ∈ s.refreshTokens, ∀ session ∈ s.sessions, session.id = token.sessionId →
    (p token ↔ q session))

include h hm hpq

theorem Tracked.familyRevoked_of_marked {token : RefreshToken} (htoken : token ∈ s.refreshTokens)
    (hp : p token) : FamilyRevoked token.familyId s' := by
  obtain ⟨session₀, hsession₀, hid₀, -⟩ := h.owner token htoken
  intro other' hother' hfamily
  obtain ⟨other, hother, hmarked⟩ := exists_mem_of_forall₂ hm.tokens hother'
  have hsame : other.sessionId = token.sessionId :=
    (h.family other hother token htoken).mp (hmarked.familyId.symm.trans hfamily)
  have hq : ∀ session ∈ s.sessions, session.id = other.sessionId → q session :=
    fun session hsession hid => (hpq token htoken session hsession (hid.trans hsame)).mp hp
  constructor
  · apply hmarked.revoked.mpr
    right
    have hid : session₀.id = other.sessionId := hid₀.trans hsame.symm
    exact (hpq other hother session₀ hsession₀ hid).mpr (hq session₀ hsession₀ hid)
  · intro session' hsession' hid
    obtain ⟨session, hsession, hmarked'⟩ := exists_mem_of_forall₂ hm.sessions hsession'
    apply hmarked'.revoked.mpr
    right
    exact hq session hsession (hmarked'.id.symm.trans (hid.trans hmarked.sessionId))

omit h in
theorem Marks.revokedWithSession {tokenId : ℕ} (hold : RevokedWithSession tokenId s) :
    RevokedWithSession tokenId s' := by
  intro token' htoken' hid session' hsession' hsid hrevoked
  obtain ⟨token, htoken, hmarked⟩ := exists_mem_of_forall₂ hm.tokens htoken'
  obtain ⟨session, hsession, hmarked'⟩ := exists_mem_of_forall₂ hm.sessions hsession'
  have hsame : session.id = token.sessionId :=
    hmarked'.id.symm.trans (hsid.trans hmarked.sessionId)
  apply hmarked.revoked.mpr
  rcases hmarked'.revoked.mp hrevoked with hrevoked | hq
  · exact .inl (hold token htoken (hmarked.id.symm.trans hid) session hsession hsame hrevoked)
  · exact .inr ((hpq token htoken session hsession hsame).mpr hq)

omit h in
theorem Marks.evolves : Evolves s s' where
  tokens token htoken := by
    obtain ⟨token', htoken', hmarked⟩ := persist_of_forall₂ hm.tokens token htoken
    exact ⟨token', htoken', hmarked.later⟩
  sessions session hsession := by
    obtain ⟨session', hsession', hmarked⟩ := persist_of_forall₂ hm.sessions session hsession
    exact ⟨session', hsession', hmarked.id, hmarked.userId⟩
  withSession _ _ hold := hm.revokedWithSession hpq hold
  revoked _ _ hold := hm.familyRevoked hold

theorem Tracked.marks
    (hr : ∀ token ∈ s.refreshTokens, r token → RevokedWithSession token.id s) :
    Tracked s' reserved where
  id := by
    rw [map_eq_of_forall₂ (fun _ _ hmarked => hmarked.id) hm.tokens]
    exact h.id
  tokenHash := by
    rw [map_eq_of_forall₂ (fun _ _ hmarked => hmarked.tokenHash) hm.tokens]
    exact h.tokenHash
  sessionId := by
    rw [map_eq_of_forall₂ (fun _ _ hmarked => hmarked.id) hm.sessions]
    exact h.sessionId
  id_lt token' htoken' := by
    obtain ⟨token, htoken, hmarked⟩ := exists_mem_of_forall₂ hm.tokens htoken'
    have hlt := h.id_lt token htoken
    have hle := hm.nextId
    rw [hmarked.id, hmarked.familyId, hmarked.tokenHash]
    omega
  sessionId_lt session' hsession' := by
    obtain ⟨session, hsession, hmarked⟩ := exists_mem_of_forall₂ hm.sessions hsession'
    rw [hmarked.id]
    exact Nat.lt_of_lt_of_le (h.sessionId_lt session hsession) hm.nextId
  successor := hm.successor h.successor
  owner token' htoken' := by
    obtain ⟨token, htoken, hmarked⟩ := exists_mem_of_forall₂ hm.tokens htoken'
    obtain ⟨session, hsession, hid, huser⟩ := h.owner token htoken
    obtain ⟨session', hsession', hmarked'⟩ := persist_of_forall₂ hm.sessions session hsession
    refine ⟨session', hsession', ?_, ?_⟩
    · rw [hmarked'.id, hmarked.sessionId, hid]
    · rw [hmarked'.userId, hmarked.userId, huser]
  family a' ha' b' hb' := by
    obtain ⟨a, ha, hmarked⟩ := exists_mem_of_forall₂ hm.tokens ha'
    obtain ⟨b, hb, hmarked'⟩ := exists_mem_of_forall₂ hm.tokens hb'
    rw [hmarked.familyId, hmarked'.familyId, hmarked.sessionId, hmarked'.sessionId]
    exact h.family a ha b hb
  revoked token' htoken' hrevoked := by
    obtain ⟨token, htoken, hmarked⟩ := exists_mem_of_forall₂ hm.tokens htoken'
    rw [hmarked.familyId]
    rcases hmarked.revoked.mp hrevoked with hrevoked | hp
    · exact hm.familyRevoked (h.revoked token htoken hrevoked)
    · exact h.familyRevoked_of_marked hm hpq htoken hp
  rotated token' htoken' hrotated := by
    obtain ⟨token, htoken, hmarked⟩ := exists_mem_of_forall₂ hm.tokens htoken'
    rw [hmarked.id]
    apply hm.revokedWithSession hpq
    rcases hmarked.rotated.mp hrotated with hrotated | hmark
    · exact h.rotated token htoken hrotated
    · exact hr token htoken hmark
  reserved_nodup := h.reserved_nodup
  reserved_lt sessionId hreserved :=
    Nat.lt_of_lt_of_le (h.reserved_lt sessionId hreserved) hm.nextId
  unused token' htoken' := by
    obtain ⟨token, htoken, hmarked⟩ := exists_mem_of_forall₂ hm.tokens htoken'
    rw [hmarked.sessionId]
    exact h.unused token htoken

end marks

/-! ## Inserting Tokens -/

/-- A token that may be inserted when the ids below `n` have been drawn: its id and its digest are
new, it is not revoked or rotated, and it belongs to a session and to the family of that session,
if there is one, of which no token is revoked. -/
structure Insertable (s : AuthStore) (n : ℕ) (token : RefreshToken) : Prop where
  nextId : s.nextId ≤ n
  id : s.nextId ≤ token.id ∧ token.id < n
  tokenHash : s.nextId ≤ token.tokenHash ∧ token.tokenHash < n
  familyId : token.familyId < n
  live : token.revokedAt = none ∧ token.rotatedAt = none
  successor : token.rotatedToId = none
  owner : ∃ session ∈ s.sessions, session.id = token.sessionId ∧ session.userId = token.userId
  family : ∀ token' ∈ s.refreshTokens,
    token.familyId = token'.familyId ↔ token.sessionId = token'.sessionId
  unrevoked : ∀ token' ∈ s.refreshTokens, token'.familyId = token.familyId →
    token'.revokedAt = none

/-- The store with a token more, when the ids below `n` have been drawn. -/
def AuthStore.insertToken (token : RefreshToken) (n : ℕ) (s : AuthStore) : AuthStore :=
  { s with refreshTokens := s.refreshTokens ++ [token], nextId := n }

section insert

variable {s : AuthStore} {n : ℕ} {token : RefreshToken} {reserved reserved' : Multiset ℕ}

theorem Insertable.familyRevoked (hins : Insertable s n token) {token₀ : RefreshToken}
    (htoken₀ : token₀ ∈ s.refreshTokens) (h : FamilyRevoked token₀.familyId s) :
    FamilyRevoked token₀.familyId (s.insertToken token n) := by
  intro token' htoken' hfamily
  rcases List.mem_append.mp htoken' with htoken' | htoken'
  · exact h token' htoken' hfamily
  · obtain rfl := List.mem_singleton.mp htoken'
    -- Otherwise the family of the new token would have been revoked.
    have hrevoked := (h token₀ htoken₀ rfl).1
    rw [hins.unrevoked token₀ htoken₀ hfamily.symm] at hrevoked
    cases hrevoked

theorem Insertable.revokedWithSession (hins : Insertable s n token) {tokenId : ℕ}
    (hlt : tokenId < s.nextId) (h : RevokedWithSession tokenId s) :
    RevokedWithSession tokenId (s.insertToken token n) := by
  intro token' htoken' hid
  rcases List.mem_append.mp htoken' with htoken' | htoken'
  · exact h token' htoken' hid
  · obtain rfl := List.mem_singleton.mp htoken'
    have := hins.id.1
    omega

theorem Tracked.evolves_insert (h : Tracked s reserved) (hins : Insertable s n token) :
    Evolves s (s.insertToken token n) where
  tokens := Persist.append _ _ _
  sessions := refl_of (Persist _) _
  withSession token₀ htoken₀ := hins.revokedWithSession (h.id_lt token₀ htoken₀).1
  revoked _ htoken₀ := hins.familyRevoked htoken₀

theorem Tracked.insert (h : Tracked s reserved) (hins : Insertable s n token)
    (hreserved : reserved' ≤ reserved) (hunused : token.sessionId ∉ reserved') :
    Tracked (s.insertToken token n) reserved' where
  id := by
    have hnew : token.id ∉ s.refreshTokens.map RefreshToken.id := by
      intro hmem
      obtain ⟨token', htoken', heq⟩ := List.mem_map.mp hmem
      have hlt := (h.id_lt token' htoken').1
      have hge := hins.id.1
      omega
    show ((s.refreshTokens ++ [token]).map RefreshToken.id).Nodup
    simpa [List.nodup_append] using ⟨h.id, fun token' htoken' heq =>
      hnew (List.mem_map.mpr ⟨token', htoken', heq⟩)⟩
  tokenHash := by
    have hnew : token.tokenHash ∉ s.refreshTokens.map RefreshToken.tokenHash := by
      intro hmem
      obtain ⟨token', htoken', heq⟩ := List.mem_map.mp hmem
      have hlt := (h.id_lt token' htoken').2.2
      have hge := hins.tokenHash.1
      omega
    show ((s.refreshTokens ++ [token]).map RefreshToken.tokenHash).Nodup
    simpa [List.nodup_append] using ⟨h.tokenHash, fun token' htoken' heq =>
      hnew (List.mem_map.mpr ⟨token', htoken', heq⟩)⟩
  sessionId := h.sessionId
  id_lt token' htoken' := by
    have hle := hins.nextId
    show token'.id < n ∧ token'.familyId < n ∧ token'.tokenHash < n
    rcases List.mem_append.mp htoken' with htoken' | htoken'
    · have := h.id_lt token' htoken'
      omega
    · obtain rfl := List.mem_singleton.mp htoken'
      exact ⟨hins.id.2, hins.familyId, hins.tokenHash.2⟩
  sessionId_lt session hsession := Nat.lt_of_lt_of_le (h.sessionId_lt session hsession) hins.nextId
  successor := h.successor.concat (by simp [hins.successor])
  owner token' htoken' := by
    rcases List.mem_append.mp htoken' with htoken' | htoken'
    · exact h.owner token' htoken'
    · obtain rfl := List.mem_singleton.mp htoken'
      exact hins.owner
  family a ha b hb := by
    rcases List.mem_append.mp ha with ha₀ | ha₀ <;> rcases List.mem_append.mp hb with hb₀ | hb₀
    · exact h.family a ha₀ b hb₀
    · obtain rfl := List.mem_singleton.mp hb₀
      exact eq_comm.trans ((hins.family a ha₀).trans eq_comm)
    · obtain rfl := List.mem_singleton.mp ha₀
      exact hins.family b hb₀
    · rw [List.mem_singleton.mp ha₀, List.mem_singleton.mp hb₀]
      simp
  revoked token' htoken' hrevoked := by
    rcases List.mem_append.mp htoken' with htoken' | htoken'
    · exact hins.familyRevoked htoken' (h.revoked token' htoken' hrevoked)
    · obtain rfl := List.mem_singleton.mp htoken'
      simp [hins.live.1] at hrevoked
  rotated token' htoken' hrotated := by
    rcases List.mem_append.mp htoken' with htoken' | htoken'
    · exact hins.revokedWithSession (h.id_lt token' htoken').1 (h.rotated token' htoken' hrotated)
    · obtain rfl := List.mem_singleton.mp htoken'
      simp [hins.live.2] at hrotated
  reserved_nodup := Multiset.nodup_of_le hreserved h.reserved_nodup
  reserved_lt sessionId hmem :=
    Nat.lt_of_lt_of_le (h.reserved_lt sessionId (Multiset.mem_of_le hreserved hmem)) hins.nextId
  unused token' htoken' hmem := by
    rcases List.mem_append.mp htoken' with htoken' | htoken'
    · exact h.unused token' htoken' (Multiset.mem_of_le hreserved hmem)
    · obtain rfl := List.mem_singleton.mp htoken'
      exact hunused hmem

end insert

/-! ## What the Transactions Do -/

/-- A change that keeps the invariant, whatever is reserved, and takes nothing back. -/
def Keeps (s s' : AuthStore) : Prop :=
  ∀ reserved, Tracked s reserved → Tracked s' reserved ∧ Evolves s s'

instance : IsPreorder AuthStore Keeps where
  refl s _ h := ⟨h, refl_of Evolves s⟩
  trans _ _ _ h₁ h₂ reserved h := by
    obtain ⟨h', hevolves⟩ := h₁ reserved h
    obtain ⟨h'', hevolves'⟩ := h₂ reserved h'
    exact ⟨h'', trans_of Evolves hevolves hevolves'⟩

section transactions

variable {s s' : AuthStore} {reserved : Multiset ℕ}

theorem keeps_of_same (htokens : s'.refreshTokens = s.refreshTokens)
    (hsessions : s'.sessions = s.sessions) (hnextId : s.nextId ≤ s'.nextId) : Keeps s s' := by
  intro reserved h
  have hm : Marks (fun _ => False) (fun _ => False) (fun _ => False) s s' := by
    refine ⟨?_, ?_, hnextId, fun hold => htokens ▸ hold⟩
    · rw [htokens, List.forall₂_same]
      exact fun token _ => ⟨rfl, rfl, rfl, rfl, rfl, rfl, by simp, by simp⟩
    · rw [hsessions, List.forall₂_same]
      exact fun session _ => ⟨rfl, rfl, by simp⟩
  have hpq : ∀ token ∈ s.refreshTokens, ∀ session ∈ s.sessions, session.id = token.sessionId →
      (False ↔ False) := fun _ _ _ _ _ => Iff.rfl
  exact ⟨h.marks hm hpq fun _ _ hfalse => hfalse.elim, hm.evolves hpq⟩

theorem generateId_keeps : generateId.Within Keeps := by
  rintro s id s' h
  cases h
  exact keeps_of_same rfl rfl (Nat.le_succ _)

theorem updateCredential_keeps (userId : ℕ) (f : UserCredential → UserCredential) :
    (updateCredential userId f).Within Keeps := by
  refine Transaction.within_bind Transaction.within_get fun s₀ => ?_
  split
  · exact Table.within_update _ fun s _ => keeps_of_same rfl rfl (Nat.le_refl _)
  · exact Transaction.within_throw _

theorem setMfaToken_keeps (env : AuthEnv) (userId generation : ℕ) :
    (setMfaToken env userId generation).Within Keeps := by
  refine Transaction.within_bind generateId_keeps fun key => ?_
  refine Transaction.within_bind ?_ fun _ => Transaction.within_pure _
  exact Transaction.within_modify fun s => keeps_of_same rfl rfl (Nat.le_refl _)

theorem setResetToken_keeps (env : AuthEnv) (userId : ℕ) :
    (setResetToken env userId).Within Keeps := by
  refine Transaction.within_bind generateId_keeps fun key => ?_
  refine Transaction.within_bind ?_ fun _ => Transaction.within_pure _
  exact Transaction.within_modify fun s => keeps_of_same rfl rfl (Nat.le_refl _)

theorem updateSession_eq_ok {sessionId : ℕ} {f : Session → Session}
    (h : updateSession sessionId f s = .ok ((), s')) :
    s' = { s with
      sessions := updateWhere (fun session => decide (session.id = sessionId)) f s.sessions } := by
  obtain ⟨s₀, s₀', hget, h⟩ := Transaction.bind_eq_ok_iff.mp h
  cases hget
  split at h
  · exact ((Table.update_eq_ok_iff (ε := AuthError) session).mp h).2
  · cases h

theorem revokeSessions_eq_ok {p : Session → Bool} {now : ℕ}
    (h : revokeSessions p now s = .ok ((), s')) :
    s' = { s with
      sessions := updateWhere (fun session => p session && session.revokedAt.isNone)
        (fun session => { session with revokedAt := some now }) s.sessions } :=
  ((Table.update_eq_ok_iff (ε := AuthError) session).mp h).2

theorem forall₂_revoke (p : RefreshToken → Bool) (now : ℕ) (reuseDetected : Bool)
    (rows : List RefreshToken) :
    List.Forall₂ (RefreshToken.Marked (fun token => p token = true) fun _ => False) rows
      (updateWhere (fun token => p token && token.revokedAt.isNone)
        (RefreshToken.revoke now reuseDetected) rows) := by
  apply forall₂_updateWhere
  · intro token hp
    refine ⟨rfl, rfl, rfl, rfl, rfl, rfl, ?_, by simp [RefreshToken.revoke]⟩
    simp only [Bool.and_eq_true] at hp
    simp [RefreshToken.revoke, hp.1]
  · intro token hp
    refine ⟨rfl, rfl, rfl, rfl, rfl, rfl, ?_, by simp⟩
    cases hrevoked : token.revokedAt with
    | none => simpa [hrevoked] using hp
    | some t => simp

theorem forall₂_revokeSessions (q : Session → Bool) (now : ℕ) (rows : List Session) :
    List.Forall₂ (Session.Marked fun session => q session = true) rows
      (updateWhere (fun session => q session && session.revokedAt.isNone)
        (fun session => { session with revokedAt := some now }) rows) := by
  apply forall₂_updateWhere
  · intro session hq
    simp only [Bool.and_eq_true] at hq
    exact ⟨rfl, rfl, by simp [hq.1]⟩
  · intro session hq
    refine ⟨rfl, rfl, ?_⟩
    cases hrevoked : session.revokedAt with
    | none => simpa [hrevoked] using hq
    | some t => simp

theorem marks_revokeWhere {q : Session → Prop} {sessions : List Session}
    (hsessions : List.Forall₂ (Session.Marked q) s.sessions sessions) (p : RefreshToken → Bool)
    (now : ℕ) (reuseDetected : Bool) :
    Marks (fun token => p token = true) q (fun _ => False) s
      (AuthStore.revokeWhere p now reuseDetected { s with sessions }) where
  tokens := forall₂_revoke p now reuseDetected s.refreshTokens
  sessions := hsessions
  nextId := Nat.le_refl _
  successor hold :=
    hold.updateWhere (fun _ => rfl) fun token htoken _ i hi => hold token htoken i hi

theorem Tracked.revoke {p : RefreshToken → Prop} {q : Session → Prop} (h : Tracked s reserved)
    (hm : Marks p q (fun _ => False) s s')
    (hpq : ∀ token ∈ s.refreshTokens, ∀ session ∈ s.sessions, session.id = token.sessionId →
      (p token ↔ q session)) : Tracked s' reserved ∧ Evolves s s' :=
  ⟨h.marks hm hpq fun _ _ hfalse => hfalse.elim, hm.evolves hpq⟩

theorem revokeSession_keeps (sessionId now : ℕ) : (revokeSession sessionId now).Within Keeps := by
  intro s u s' hs reserved h
  obtain ⟨u, s₁, hsession, htokens⟩ := Transaction.bind_eq_ok_iff.mp hs
  obtain rfl := updateSession_eq_ok hsession
  obtain rfl := revokeTokens_eq_ok htokens
  have hsessions : List.Forall₂ (Session.Marked fun session => session.id = sessionId) s.sessions
      (updateWhere (fun session => decide (session.id = sessionId))
        (fun session => { session with revokedAt := some now }) s.sessions) := by
    apply forall₂_updateWhere
    · exact fun session hid => ⟨rfl, rfl, by simpa using .inr (by simpa using hid)⟩
    · exact fun session hid => ⟨rfl, rfl, by simp [show session.id ≠ sessionId by simpa using hid]⟩
  refine h.revoke (marks_revokeWhere hsessions _ now false) ?_
  intro token _ session _ hid
  rw [hid, decide_eq_true_eq]

theorem resetPassword_keeps (key userId passwordHash now : ℕ) :
    (resetPassword key userId passwordHash now).Within Keeps := by
  intro s u s' hs
  obtain ⟨u, s₁, hcredential, hs⟩ := Transaction.bind_eq_ok_iff.mp hs
  refine trans_of Keeps (updateCredential_keeps _ _ _ _ _ hcredential) ?_
  obtain ⟨u, s₂, hsessions, hs⟩ := Transaction.bind_eq_ok_iff.mp hs
  obtain ⟨u, s₃, htokens, hs⟩ := Transaction.bind_eq_ok_iff.mp hs
  obtain rfl := revokeSessions_eq_ok hsessions
  obtain rfl := revokeTokens_eq_ok htokens
  cases hs
  have hm := marks_revokeWhere (s := s₁)
    (forall₂_revokeSessions (fun session => decide (session.userId = userId)) now s₁.sessions)
    (fun token => decide (token.userId = userId)) now false
  have hpq : ∀ reserved, Tracked s₁ reserved → ∀ token ∈ s₁.refreshTokens,
      ∀ session ∈ s₁.sessions, session.id = token.sessionId →
        (decide (token.userId = userId) = true ↔ decide (session.userId = userId) = true) := by
    intro reserved h token htoken session hsession hid
    -- The session belongs to the user of its tokens.
    obtain ⟨session', hsession', hid', huser⟩ := h.owner token htoken
    obtain rfl := List.inj_on_of_nodup_map h.sessionId hsession' hsession (hid'.trans hid.symm)
    rw [huser]
  refine trans_of Keeps (fun reserved h => h.revoke hm (hpq reserved h)) ?_
  exact keeps_of_same rfl rfl (Nat.le_refl _)

theorem revokeFamily_marks {familyId now : ℕ} {sessionIds : List ℕ}
    (hs : revokeFamily familyId sessionIds now s = .ok ((), s')) :
    Marks (fun token => decide (token.familyId = familyId) = true)
      (fun session => session.id ∈ sessionIds) (fun _ => False) s s' := by
  obtain ⟨u, s₁, htokens, hs⟩ := Transaction.bind_eq_ok_iff.mp hs
  obtain rfl := revokeTokens_eq_ok htokens
  split at hs
  · obtain rfl := revokeSessions_eq_ok hs
    have hsessions :=
      forall₂_revokeSessions (fun session => decide (session.id ∈ sessionIds)) now s.sessions
    simp only [decide_eq_true_eq] at hsessions
    exact marks_revokeWhere hsessions _ now true
  · next hempty =>
    cases hs
    obtain rfl : sessionIds = [] := by simpa using hempty
    have hsessions : List.Forall₂ (Session.Marked fun session => session.id ∈ []) s.sessions
        s.sessions := List.forall₂_same.mpr fun session _ => ⟨rfl, rfl, by simp⟩
    exact marks_revokeWhere hsessions _ now true

theorem Tracked.commits_revokeFamily (h : Tracked s reserved) (familyId now : ℕ)
    (sessionIds : List ℕ) : Prog.Commits (revokeFamily familyId sessionIds now) s := by
  have htokens : refreshToken.Accepts (updateWhere
      (fun token => decide (token.familyId = familyId) && token.revokedAt.isNone)
      (RefreshToken.revoke now true) s.refreshTokens) := by
    intro constraint hconstraint
    simp only [refreshToken, List.mem_cons, List.not_mem_nil, or_false] at hconstraint
    rcases hconstraint with rfl | rfl | rfl
    · rw [Constraint.holds_uniqueWhere, uniqueWhere_some]
      exact nodup_map_updateWhere h.id fun _ => rfl
    · rw [Constraint.holds_uniqueWhere, uniqueWhere_some]
      exact nodup_map_updateWhere h.tokenHash fun _ => rfl
    · rw [Constraint.holds_selfReference]
      exact h.successor.updateWhere (fun _ => rfl) fun token htoken _ i hi =>
        h.successor token htoken i hi
  have hsessions : session.Accepts (updateWhere
      (fun session => decide (session.id ∈ sessionIds) && session.revokedAt.isNone)
      (fun session => { session with revokedAt := some now }) s.sessions) := by
    intro constraint hconstraint
    simp only [session, List.mem_cons, List.not_mem_nil, or_false] at hconstraint
    obtain rfl := hconstraint
    rw [Constraint.holds_uniqueWhere, uniqueWhere_some]
    exact nodup_map_updateWhere h.sessionId fun _ => rfl
  have hrevoke := (Table.update_eq_ok_iff (ε := AuthError) refreshToken).mpr ⟨htokens, rfl⟩
  have hrest : Prog.Commits (if sessionIds ≠ [] then
      revokeSessions (fun session => decide (session.id ∈ sessionIds)) now else pure () :
        AuthTx Unit) (s.revokeWhere (fun token => decide (token.familyId = familyId)) now true) := by
    split
    · exact ⟨(), _, (Table.update_eq_ok_iff (ε := AuthError) session).mpr ⟨hsessions, rfl⟩⟩
    · exact ⟨(), _, rfl⟩
  obtain ⟨_, s', hs'⟩ := hrest
  exact ⟨(), s', Transaction.bind_eq_ok_iff.mpr ⟨(), _, hrevoke, hs'⟩⟩

theorem rotate_marks {row : RefreshToken} {now expiresAt tokenHash : ℕ}
    (hs : rotate row now expiresAt s = .ok (tokenHash, s')) :
    Marks (fun _ => False) (fun _ => False) (fun token => token.id = row.id)
      (s.insertToken (row.successor expiresAt s.nextId (s.nextId + 1)) (s.nextId + 2)) s' := by
  obtain ⟨newTokenId, s₁, hid, hs⟩ := Transaction.bind_eq_ok_iff.mp hs
  cases hid
  obtain ⟨hash, s₂, hhash, hs⟩ := Transaction.bind_eq_ok_iff.mp hs
  cases hhash
  obtain ⟨u, s₃, hinsert, hs⟩ := Transaction.bind_eq_ok_iff.mp hs
  obtain ⟨-, rfl⟩ := (Table.insert_eq_ok_iff (ε := AuthError) refreshToken).mp hinsert
  obtain ⟨s₄, s₄', hget, hs⟩ := Transaction.bind_eq_ok_iff.mp hs
  cases hget
  split at hs
  · obtain ⟨u, s₅, hupdate, hs⟩ := Transaction.bind_eq_ok_iff.mp hs
    obtain ⟨-, rfl⟩ := (Table.update_eq_ok_iff (ε := AuthError) refreshToken).mp hupdate
    obtain ⟨u, s₆, hsession, hs⟩ := Transaction.bind_eq_ok_iff.mp hs
    cases hs
    obtain rfl := updateSession_eq_ok hsession
    refine ⟨?_, ?_, Nat.le_refl _, fun hold => ?_⟩
    · apply forall₂_updateWhere
      · intro token hid
        have hid' : token.id = row.id := by simpa using hid
        exact ⟨rfl, rfl, rfl, rfl, rfl, rfl, by simp, by simp [hid']⟩
      · intro token hid
        have hid' : token.id ≠ row.id := by simpa using hid
        exact ⟨rfl, rfl, rfl, rfl, rfl, rfl, by simp, by simp [hid']⟩
    · apply forall₂_updateWhere
      · exact fun session _ => ⟨rfl, rfl, by simp⟩
      · exact fun session _ => ⟨rfl, rfl, by simp⟩
    · refine hold.updateWhere (fun _ => rfl) ?_
      rintro token - - i hi
      obtain rfl : s.nextId = i := by simpa using hi
      exact List.mem_map.mpr ⟨_, List.mem_append_right _ (List.mem_singleton_self _), rfl⟩
  · obtain ⟨u, s₅, hthrow, -⟩ := Transaction.bind_eq_ok_iff.mp hs
    cases hthrow

theorem Tracked.rotate (h : Tracked s reserved) {row token : RefreshToken}
    {now expiresAt tokenHash : ℕ} (htoken : token ∈ s.refreshTokens) (hlater : row.Later token)
    (hlive : token.revokedAt = none) (hsession : RevokedWithSession row.id s)
    (hs : Auth.rotate row now expiresAt s = .ok (tokenHash, s')) :
    Tracked s' reserved ∧ Evolves s s' := by
  have hlt := h.id_lt token htoken
  have hins : Insertable s (s.nextId + 2)
      (row.successor expiresAt s.nextId (s.nextId + 1)) := {
    nextId := Nat.le_add_right _ _
    id := ⟨Nat.le_refl _, Nat.lt_add_of_pos_right (by decide)⟩
    tokenHash := ⟨Nat.le_succ _, Nat.lt_succ_self _⟩
    familyId := by
      have := hlater.familyId
      show row.familyId < s.nextId + 2
      omega
    live := ⟨rfl, rfl⟩
    successor := rfl
    owner := by
      obtain ⟨session, hmem, hid, huser⟩ := h.owner token htoken
      exact ⟨session, hmem, hid.trans hlater.sessionId, huser.trans hlater.userId⟩
    family := by
      intro token' htoken'
      show row.familyId = token'.familyId ↔ row.sessionId = token'.sessionId
      rw [← hlater.familyId, ← hlater.sessionId]
      exact h.family token htoken token' htoken'
    unrevoked := by
      intro token' htoken' hfamily
      -- A revoked token of the family would have taken this one with it.
      by_contra hrevoked
      have hsome := (h.revoked token' htoken' (Option.isSome_iff_ne_none.mpr hrevoked) token htoken
        (hlater.familyId.trans hfamily.symm)).1
      simp [hlive] at hsome }
  have hunused : row.sessionId ∉ reserved := by
    rw [← hlater.sessionId]
    exact h.unused token htoken
  have h₁ := h.insert hins le_rfl hunused
  have hm := rotate_marks hs
  have hpq : ∀ token ∈ (s.insertToken (row.successor expiresAt s.nextId (s.nextId + 1))
      (s.nextId + 2)).refreshTokens, ∀ session ∈ s.sessions, session.id = token.sessionId →
        (False ↔ False) := fun _ _ _ _ _ => Iff.rfl
  refine ⟨h₁.marks hm hpq fun token' htoken' hid => ?_,
    trans_of Evolves (h.evolves_insert hins) (hm.evolves hpq)⟩
  rw [hid]
  have hid' : row.id < s.nextId := by
    rw [← hlater.id]
    exact hlt.1
  exact hins.revokedWithSession hid' hsession

theorem Tracked.createSession (h : Tracked s reserved) {userId expiresAt sessionId : ℕ}
    (hs : Auth.createSession userId expiresAt s = .ok (sessionId, s')) :
    Tracked s' ({sessionId} + reserved) ∧ Evolves s s' ∧
      ∃ session ∈ s'.sessions, session.id = sessionId ∧ session.userId = userId := by
  obtain ⟨id, s₁, hid, hs⟩ := Transaction.bind_eq_ok_iff.mp hs
  cases hid
  obtain ⟨u, s₂, hinsert, hs⟩ := Transaction.bind_eq_ok_iff.mp hs
  obtain ⟨-, rfl⟩ := (Table.insert_eq_ok_iff (ε := AuthError) session).mp hinsert
  cases hs
  -- The new session is not the session of a token that is there.
  have hother : ∀ token ∈ s.refreshTokens, token.sessionId < s.nextId := by
    intro token htoken
    obtain ⟨session, hsession, hid, -⟩ := h.owner token htoken
    rw [← hid]
    exact h.sessionId_lt session hsession
  have hold : ∀ token ∈ s.refreshTokens, ∀ session' ∈ s.sessions ++
      [({ id := s.nextId, userId, expiresAt } : Session)], session'.id = token.sessionId →
        session' ∈ s.sessions := by
    intro token htoken session' hsession' hid
    rcases List.mem_append.mp hsession' with hsession' | hsession'
    · exact hsession'
    · obtain rfl := List.mem_singleton.mp hsession'
      have := hother token htoken
      simp only at hid
      omega
  have hfamily : ∀ familyId, FamilyRevoked familyId s → FamilyRevoked familyId
      { s with sessions := s.sessions ++ [{ id := s.nextId, userId, expiresAt }],
               nextId := s.nextId + 1 } := by
    intro familyId hrevoked token htoken hfamily
    obtain ⟨hsome, hsessions⟩ := hrevoked token htoken hfamily
    exact ⟨hsome, fun session' hsession' hid =>
      hsessions session' (hold token htoken session' hsession' hid) hid⟩
  have hwith : ∀ tokenId, RevokedWithSession tokenId s → RevokedWithSession tokenId
      { s with sessions := s.sessions ++ [{ id := s.nextId, userId, expiresAt }],
               nextId := s.nextId + 1 } := by
    intro tokenId hrevoked token htoken hid session' hsession' hsid
    exact hrevoked token htoken hid session' (hold token htoken session' hsession' hsid) hsid
  refine ⟨?_, ⟨refl_of (Persist _) _, Persist.append _ _ _, fun _ _ => hwith _,
    fun _ _ => hfamily _⟩, _, List.mem_append_right _ (List.mem_singleton_self _), rfl, rfl⟩
  exact {
    id := h.id
    tokenHash := h.tokenHash
    sessionId := by
      show ((s.sessions ++ [_]).map Session.id).Nodup
      simpa [List.nodup_append] using ⟨h.sessionId, fun session hsession heq => by
        have := h.sessionId_lt session hsession
        omega⟩
    id_lt := fun token htoken => by
      have := h.id_lt token htoken
      show token.id < s.nextId + 1 ∧ token.familyId < s.nextId + 1 ∧ token.tokenHash < s.nextId + 1
      omega
    sessionId_lt := fun session' hsession' => by
      show session'.id < s.nextId + 1
      rcases List.mem_append.mp hsession' with hsession' | hsession'
      · have := h.sessionId_lt session' hsession'
        omega
      · obtain rfl := List.mem_singleton.mp hsession'
        exact Nat.lt_succ_self _
    successor := h.successor
    owner := fun token htoken => by
      obtain ⟨session, hsession, hid⟩ := h.owner token htoken
      exact ⟨session, List.mem_append_left _ hsession, hid⟩
    family := h.family
    revoked := fun token htoken hrevoked => hfamily _ (h.revoked token htoken hrevoked)
    rotated := fun token htoken hrotated => hwith _ (h.rotated token htoken hrotated)
    reserved_nodup := by
      rw [Multiset.singleton_add, Multiset.nodup_cons]
      exact ⟨fun hmem => Nat.lt_irrefl _ (h.reserved_lt _ hmem), h.reserved_nodup⟩
    reserved_lt := fun sessionId hmem => by
      show sessionId < s.nextId + 1
      rw [Multiset.singleton_add] at hmem
      rcases Multiset.mem_cons.mp hmem with rfl | hmem
      · exact Nat.lt_succ_self _
      · have := h.reserved_lt sessionId hmem
        omega
    unused := fun token htoken hmem => by
      rw [Multiset.singleton_add] at hmem
      rcases Multiset.mem_cons.mp hmem with heq | hmem
      · have := hother token htoken
        omega
      · exact h.unused token htoken hmem }

theorem Tracked.createRefreshToken {sessionId userId expiresAt generation tokenHash : ℕ}
    (h : Tracked s ({sessionId} + reserved))
    (hsession : ∃ session ∈ s.sessions, session.id = sessionId ∧ session.userId = userId)
    (hs : Auth.createRefreshToken sessionId userId expiresAt generation s = .ok (tokenHash, s')) :
    Tracked s' reserved ∧ Evolves s s' := by
  obtain rfl := createRefreshToken_eq_ok hs
  rw [Multiset.singleton_add] at h
  have hins : Insertable s (s.nextId + 3)
      (.first sessionId userId expiresAt generation s.nextId) := {
    nextId := Nat.le_add_right _ _
    id := ⟨Nat.le_refl _, Nat.lt_add_of_pos_right (by decide)⟩
    tokenHash := ⟨Nat.le_add_right _ _, Nat.lt_succ_self _⟩
    familyId := Nat.lt_succ_of_lt (Nat.lt_succ_self _)
    live := ⟨rfl, rfl⟩
    successor := rfl
    owner := hsession
    family := by
      intro token htoken
      -- Neither the new family nor the reserved session has a token.
      have hlt := (h.id_lt token htoken).2.1
      have hunused : token.sessionId ≠ sessionId := fun heq =>
        h.unused token htoken (heq ▸ Multiset.mem_cons_self _ _)
      constructor
      · intro hfamily
        have : s.nextId + 1 = token.familyId := hfamily
        omega
      · exact fun hsame => absurd hsame.symm hunused
    unrevoked := by
      intro token htoken hfamily
      have hlt := (h.id_lt token htoken).2.1
      have : token.familyId = s.nextId + 1 := hfamily
      omega }
  have hnew : sessionId ∉ reserved := (Multiset.nodup_cons.mp h.reserved_nodup).1
  exact ⟨h.insert hins (Multiset.le_cons_self _ _) hnew, h.evolves_insert hins⟩

end transactions

end AudioBook.Auth
