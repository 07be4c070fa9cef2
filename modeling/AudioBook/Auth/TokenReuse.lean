import AudioBook.Auth.PasswordReset
import AudioBook.Auth.TrackedFamilies
import AudioBook.Concurrent.Alongside

/-!
# The Reuse of a Refresh Token

Whoever presents a token that was rotated before may have stolen it, so the service revokes the
family of the token and its sessions. But `refresh` looks at the expiry first: a token that was
rotated and has expired since is rejected as expired, and its family stays. And the transaction
that rotates a token does not look at it again: a refresh that has read the token before the
family was revoked gives the family a successor that is not revoked.

A presentation that reads the clock before the token expires leaves the family revoked, in runs
in which no token is rotated that was revoked since it was read.

Main results:

- `familyRevoked_of_reuse`: such a presentation leaves the family revoked.
-/

namespace AudioBook.Auth

open Relational Concurrent

def NotRevokedSinceRead : AuthAccess → AuthStore → Prop
  | .rotate row, s => ∀ token ∈ s.refreshTokens, token.id = row.id → token.revokedAt = row.revokedAt
  | _, _ => True

instance (a : AuthAccess) (s : AuthStore) : Decidable (NotRevokedSinceRead a s) :=
  match a with
  | .rotate row =>
      inferInstanceAs (Decidable (∀ token ∈ s.refreshTokens, token.id = row.id →
        token.revokedAt = row.revokedAt))
  | .query | .external | .updateCredential _ | .setMfaToken _ | .removeMfaToken _
  | .createSession _ | .createRefreshToken _ _ | .revokeSession _ | .revokeFamily _
  | .setResetToken _ | .getResetToken _ | .resetPassword _ _ | .removeResetToken _ | .tick =>
      isTrue trivial

/-! ## The Ledger -/

def sessionLedger : Ledger AuthStore AuthAccess (Multiset ℕ) where
  admits := NotRevokedSinceRead
  fits := Tracked

/-- The sessions that are reserved for a token, and what the requests have read. -/
abbrev reuseLedger : Ledger AuthStore AuthAccess (Multiset ℕ × Multiset (Lasting Evolves)) :=
  sessionLedger.withFacts Evolves

def sessionOfUser (sessionId userId : ℕ) : Lasting Evolves where
  holds s := ∃ session ∈ s.sessions, session.id = sessionId ∧ session.userId = userId
  stable := by
    rintro s s' h ⟨session, hsession, hid, huser⟩
    obtain ⟨session', hsession', hid', huser'⟩ := h.sessions session hsession
    exact ⟨session', hsession', hid'.trans hid, huser'.trans huser⟩

/-- The row was read when its session was not revoked, or when it was rotated already. -/
def rowRead (row : RefreshToken) : Lasting Evolves where
  holds s := (∃ token ∈ s.refreshTokens, row.Later token) ∧ RevokedWithSession row.id s
  stable := by
    rintro s s' h ⟨⟨token, htoken, hlater⟩, hsession⟩
    obtain ⟨token', htoken', hlater'⟩ := h.tokens token htoken
    refine ⟨⟨token', htoken', trans_of RefreshToken.Later hlater hlater'⟩, ?_⟩
    rw [← hlater.id] at hsession ⊢
    exact h.withSession token htoken hsession

/-- The sessions of the family were found to be `sessionIds`. -/
def sessionsRead (familyId : ℕ) (sessionIds : List ℕ) : Lasting Evolves where
  holds s := (∃ token ∈ s.refreshTokens, token.familyId = familyId ∧ token.sessionId ∈ sessionIds) ∧
    ∀ sessionId ∈ sessionIds, ∃ token ∈ s.refreshTokens,
      token.familyId = familyId ∧ token.sessionId = sessionId
  stable := by
    rintro s s' h ⟨⟨token, htoken, hfamily, hmem⟩, hall⟩
    refine ⟨?_, fun sessionId hsessionId => ?_⟩
    · obtain ⟨token', htoken', hlater⟩ := h.tokens token htoken
      exact ⟨token', htoken', hlater.familyId.trans hfamily, hlater.sessionId ▸ hmem⟩
    · obtain ⟨token, htoken, hfamily, hsession⟩ := hall sessionId hsessionId
      obtain ⟨token', htoken', hlater⟩ := h.tokens token htoken
      exact ⟨token', htoken', hlater.familyId.trans hfamily, hlater.sessionId.trans hsession⟩

def familyIsRevoked (familyId : ℕ) : Lasting Evolves where
  holds s := (∃ token ∈ s.refreshTokens, token.familyId = familyId) ∧ FamilyRevoked familyId s
  stable := by
    rintro s s' h ⟨⟨token, htoken, rfl⟩, hrevoked⟩
    obtain ⟨token', htoken', hlater⟩ := h.tokens token htoken
    exact ⟨⟨token', htoken', hlater.familyId⟩, h.revoked token htoken hrevoked⟩

/-! ## What Is Read -/

section reads

variable {s s' : AuthStore} {reserved : Multiset ℕ} {row : RefreshToken}

def findPresented (tokenHash : ℕ) (s : AuthStore) : Option (RefreshToken × Session) :=
  (findRefreshToken tokenHash s).bind fun row =>
    (findSession row.sessionId s).map fun session => (row, session)

theorem findPresented_eq_some {tokenHash : ℕ} {session : Session}
    (h : findPresented tokenHash s = some (row, session)) :
    row ∈ s.refreshTokens ∧ session ∈ s.sessions ∧ session.id = row.sessionId := by
  obtain ⟨row', hrow', hsession⟩ := Option.bind_eq_some_iff.mp h
  obtain ⟨session', hsession', hpair⟩ := Option.map_eq_some_iff.mp hsession
  obtain ⟨rfl, rfl⟩ := Prod.mk.inj hpair
  exact ⟨List.mem_of_find?_eq_some hrow', List.mem_of_find?_eq_some hsession',
    by simpa using List.find?_some hsession'⟩

theorem Tracked.findPresented (h : Tracked s reserved) (hrow : row ∈ s.refreshTokens) :
    ∃ session, Auth.findPresented row.tokenHash s = some (row, session) := by
  have hfound : findRefreshToken row.tokenHash s = some row :=
    (find?_eq_some_iff_of_nodup h.tokenHash).mpr ⟨hrow, rfl⟩
  obtain ⟨session, hsession, hid, -⟩ := h.owner row hrow
  have hfound' : findSession row.sessionId s = some session :=
    (find?_eq_some_iff_of_nodup h.sessionId).mpr ⟨hsession, hid⟩
  exact ⟨session, by simp [Auth.findPresented, hfound, hfound']⟩

theorem Tracked.rowRead_of_live (h : Tracked s reserved) (hrow : row ∈ s.refreshTokens)
    {session : Session} (hsession : session ∈ s.sessions) (hid : session.id = row.sessionId)
    (hlive : session.revokedAt = none) : (rowRead row).holds s := by
  refine ⟨⟨row, hrow, refl_of RefreshToken.Later row⟩, ?_⟩
  intro token htoken htokenId session' hsession' hid' hrevoked
  obtain rfl := List.inj_on_of_nodup_map h.id htoken hrow htokenId
  obtain rfl := List.inj_on_of_nodup_map h.sessionId hsession' hsession (hid'.trans hid.symm)
  simp [hlive] at hrevoked

theorem Tracked.rowRead_of_rotated (h : Tracked s reserved) (hrow : row ∈ s.refreshTokens)
    (hrotated : row.rotatedAt.isSome) : (rowRead row).holds s :=
  ⟨⟨row, hrow, refl_of RefreshToken.Later row⟩, h.rotated row hrow hrotated⟩

theorem mem_familySessions {familyId sessionId : ℕ} :
    sessionId ∈ familySessions familyId s ↔
      ∃ token ∈ s.refreshTokens, token.familyId = familyId ∧ token.sessionId = sessionId := by
  simp [familySessions, and_assoc]

theorem sessionsRead_of_row (h : (rowRead row).holds s) :
    (sessionsRead row.familyId (familySessions row.familyId s)).holds s := by
  obtain ⟨⟨token, htoken, hlater⟩, -⟩ := h
  refine ⟨⟨token, htoken, hlater.familyId, ?_⟩, fun sessionId hmem => mem_familySessions.mp hmem⟩
  exact mem_familySessions.mpr ⟨token, htoken, hlater.familyId, rfl⟩

theorem Tracked.revokeFamily {familyId now : ℕ} {sessionIds : List ℕ} (h : Tracked s reserved)
    (hread : (sessionsRead familyId sessionIds).holds s)
    (hs : Auth.revokeFamily familyId sessionIds now s = .ok ((), s')) :
    Tracked s' reserved ∧ Evolves s s' ∧ (familyIsRevoked familyId).holds s' := by
  obtain ⟨⟨token₀, htoken₀, hfamily₀, hmem₀⟩, hall⟩ := hread
  have hm := revokeFamily_marks hs
  have hpq : ∀ token ∈ s.refreshTokens, ∀ session ∈ s.sessions, session.id = token.sessionId →
      (decide (token.familyId = familyId) = true ↔ session.id ∈ sessionIds) := by
    intro token htoken session _ hid
    rw [decide_eq_true_eq, hid]
    constructor
    · intro hfamily
      rwa [(h.family token htoken token₀ htoken₀).mp (hfamily.trans hfamily₀.symm)]
    · intro hmem
      obtain ⟨token', htoken', hfamily', hsession'⟩ := hall _ hmem
      rw [← hfamily']
      exact (h.family token htoken token' htoken').mpr hsession'.symm
  obtain ⟨htracked, hevolves⟩ := h.revoke hm hpq
  refine ⟨htracked, hevolves, ?_, ?_⟩
  · obtain ⟨token', htoken', hlater⟩ := hevolves.tokens token₀ htoken₀
    exact ⟨token', htoken', hlater.familyId.trans hfamily₀⟩
  · have hrevoked := h.familyRevoked_of_marked hm hpq htoken₀ (by simpa using hfamily₀)
    rwa [hfamily₀] at hrevoked

end reads

/-! ## The Requests Keep the Ledger -/

/-- An access that leaves a store which fits what the store before it fitted. -/
abbrev KeepsTotals (l : AuthAccess) (w : AuthStore → AuthStore) : Prop :=
  ∀ s total, reuseLedger.admits l s → reuseLedger.fits s total → reuseLedger.fits (w s) total

section programs

variable {env : AuthEnv}

theorem keepsTotals_query {α : Type} (f : AuthStore → α) : (query f).Always KeepsTotals :=
  Prog.always_read fun _ _ _ hfits => hfits

theorem keepsTotals_external : external.Always KeepsTotals :=
  Prog.always_read fun _ _ _ hfits => hfits

theorem keepsTotals_atomically {α : Type} {l : AuthAccess} {t : AuthTx α} (h : t.Within Keeps) :
    (Prog.atomically l t : AuthService α).Always KeepsTotals := by
  apply Ledger.always_withFacts
  apply Prog.always_atomically
  intro s total _ htotal
  cases ht : t s with
  | ok r =>
    rw [Prog.commit_of_ok ht]
    exact h s r.1 r.2 ht total htotal
  | error e =>
    rw [Prog.commit_of_error ht]
    exact ⟨htotal, refl_of Evolves s⟩

theorem safe_issueSession (userId generation : ℕ) :
    reuseLedger.Safe (issueSession env userId generation) (0, 0) := by
  refine Ledger.safe_bind_of_always (keepsTotals_query _) fun now => ?_
  apply Ledger.safe_bind.mpr
  apply Ledger.wp_withFacts_atomically
    (G := fun sessionId share => share = ({sessionId}, 0 + {sessionOfUser sessionId userId}))
  · intro s others sessionId s' htracked _ _ hs
    obtain ⟨htracked', hevolves, hsession⟩ := Tracked.createSession htracked hs
    have hholds : (sessionOfUser sessionId userId).holds s' := hsession
    rw [zero_add] at htracked'
    exact ⟨hevolves, _, _, htracked', by simpa using hholds, rfl⟩
  · rintro sessionId _ rfl
    apply Ledger.safe_bind.mpr
    apply Ledger.wp_withFacts_atomically (G := fun _ _ => True)
    · intro s others tokenHash s' htracked hfacts _ hs
      have hsession := hfacts (sessionOfUser sessionId userId) (by simp)
      obtain ⟨htracked', hevolves⟩ := Tracked.createRefreshToken htracked hsession hs
      refine ⟨hevolves, 0, 0, ?_, by simp, trivial⟩
      rwa [zero_add]
    · intro tokenHash share _
      exact Ledger.safe_bind_of_always keepsTotals_external fun _ => trivial
    · exact fun _ _ _ _ => trivial
    · exact fun _ => trivial
  · exact fun _ _ _ _ => trivial
  · exact fun _ => trivial

theorem safe_completeLogin (credential : UserCredential) (generation : ℕ) :
    reuseLedger.Safe (completeLogin env credential generation) (0, 0) := by
  refine Ledger.safe_bind_of_always (keepsTotals_atomically (updateCredential_keeps _ _))
    fun _ => ?_
  refine Ledger.safe_bind_of_always keepsTotals_external fun _ => ?_
  split
  · exact Ledger.safe_bind_of_always (keepsTotals_atomically (setMfaToken_keeps _ _ _))
      fun _ => trivial
  · exact safe_issueSession _ _

theorem safe_login (email password : String) :
    reuseLedger.Safe (login env email password) (0, 0) := by
  refine Ledger.safe_bind_of_always (keepsTotals_query _) fun found => ?_
  split
  · split
    · trivial
    · refine Ledger.safe_bind_of_always (keepsTotals_query _) fun now => ?_
      split
      · trivial
      · split
        · exact safe_completeLogin _ _
        · refine Ledger.safe_bind_of_always ?_ fun _ => trivial
          exact Prog.always_bind (keepsTotals_query _) fun _ =>
            keepsTotals_atomically (updateCredential_keeps _ _)
  · trivial

theorem safe_exchangeMfa (mfaToken : ℕ) (code : String) :
    reuseLedger.Safe (exchangeMfa env mfaToken code) (0, 0) := by
  refine Ledger.safe_bind_of_always (keepsTotals_query _) fun found => ?_
  split
  · trivial
  · refine Ledger.safe_bind_of_always (keepsTotals_query _) fun credential => ?_
    split
    · trivial
    · split
      · refine Ledger.safe_bind_of_always (keepsTotals_atomically ?_) fun _ => safe_issueSession _ _
        exact Transaction.within_modify fun s => keeps_of_same rfl rfl (Nat.le_refl _)
      · trivial

theorem safe_refresh (tokenHash : ℕ) : reuseLedger.Safe (refresh env tokenHash) (0, 0) := by
  apply Ledger.safe_bind.mpr
  apply Ledger.wp_withFacts_read fun s => refl_of Evolves s
  · intro s others htracked _
    split
    · exact ⟨0, by simp, trivial⟩
    · next row session hfound =>
      obtain ⟨hrow, hsession, hid⟩ := findPresented_eq_some hfound
      split
      · exact ⟨0, by simp, trivial⟩
      · next hlive =>
        obtain ⟨hrevoked, hsessionLive⟩ := not_or.mp hlive
        have hread : (rowRead row).holds s :=
          Tracked.rowRead_of_live htracked hrow hsession hid (by simpa using hsessionLive)
        refine ⟨{rowRead row}, by simpa using hread, ?_⟩
        refine Ledger.safe_bind_of_always (keepsTotals_query _) fun now => ?_
        split
        · trivial
        · split
          · -- The family is revoked with the sessions that are read now.
            apply Ledger.safe_bind.mpr
            apply Ledger.wp_withFacts_read fun s => refl_of Evolves s
            · intro s' others' _ hfacts
              have hread' := hfacts (rowRead row) (by simp)
              refine ⟨{sessionsRead row.familyId (familySessions row.familyId s')},
                by simpa using sessionsRead_of_row hread', ?_⟩
              apply Ledger.safe_bind.mpr
              apply Ledger.wp_withFacts_atomically (G := fun _ _ => True)
              · intro s₁ others₁ _ s₂ htracked₁ hfacts₁ _ hs
                have hsessions := hfacts₁
                  (sessionsRead row.familyId (familySessions row.familyId s')) (by simp)
                obtain ⟨htracked₂, hevolves, -⟩ := Tracked.revokeFamily htracked₁ hsessions hs
                exact ⟨hevolves, 0, 0, htracked₂, by simp, trivial⟩
              · intro _ share _
                exact Ledger.safe_bind_of_always keepsTotals_external fun _ => trivial
              · exact fun _ _ _ _ => trivial
              · exact fun _ => trivial
            · exact fun _ => trivial
          · -- The token is rotated if it is not revoked by now.
            apply Ledger.safe_bind.mpr
            apply Ledger.wp_withFacts_atomically (G := fun _ _ => True)
            · intro s₁ others₁ newToken s₂ htracked₁ hfacts₁ hadmits hs
              obtain ⟨⟨token, htoken, hlater⟩, hwith⟩ := hfacts₁ (rowRead row) (by simp)
              have hunrevoked : token.revokedAt = none :=
                (hadmits token htoken hlater.id).trans (by simpa using hrevoked)
              obtain ⟨htracked₂, hevolves⟩ :=
                Tracked.rotate htracked₁ htoken hlater hunrevoked hwith hs
              exact ⟨hevolves, 0, 0, htracked₂, by simp, trivial⟩
            · intro newToken share _
              exact Ledger.safe_bind_of_always keepsTotals_external fun _ => trivial
            · exact fun _ _ _ _ => trivial
            · exact fun _ => trivial
  · exact fun _ => trivial

theorem keepsTotals_logout (userId sessionId : ℕ) :
    (logout userId sessionId).Always KeepsTotals := by
  refine Prog.always_bind (keepsTotals_query _) fun found => ?_
  split
  · trivial
  · split
    · trivial
    · refine Prog.always_bind (keepsTotals_query _) fun now => ?_
      exact Prog.always_bind (keepsTotals_atomically (revokeSession_keeps _ _)) fun _ =>
        keepsTotals_external

theorem keepsTotals_requestPasswordReset (email : String) :
    (requestPasswordReset env email).Always KeepsTotals := by
  refine Prog.always_bind (keepsTotals_query _) fun found => ?_
  split
  · trivial
  · exact Prog.always_bind (keepsTotals_atomically (setResetToken_keeps _ _)) fun _ =>
      keepsTotals_external

theorem keepsTotals_confirmPasswordReset (resetToken : ℕ) (newPassword : String) :
    (confirmPasswordReset env resetToken newPassword).Always KeepsTotals := by
  unfold confirmPasswordReset
  split
  · trivial
  · refine Prog.always_bind (Prog.always_read fun _ _ _ hfits => hfits) fun found => ?_
    split
    · trivial
    · refine Prog.always_bind (keepsTotals_query _) fun now => ?_
      refine Prog.always_bind (keepsTotals_atomically (resetPassword_keeps _ _ _ _)) fun _ => ?_
      refine Prog.always_bind (keepsTotals_atomically ?_) fun _ => keepsTotals_external
      exact Transaction.within_modify fun s => keeps_of_same rfl rfl (Nat.le_refl _)

theorem secures_authSystem (env : AuthEnv) : (authSystem env).Secures reuseLedger where
  init s hs := ⟨tracked_of_signedOut hs, by simp⟩
  program i := by
    have hdiscard : ∀ {α : Type} {p : AuthService α}, reuseLedger.Safe p (0, 0) →
        reuseLedger.Safe (discard p) (0, 0) := by
      intro α p hp
      apply Ledger.safe_bind.mpr
      exact Ledger.wp_mono (fun _ _ _ => trivial) (fun _ _ _ => trivial) hp
    cases i with
    | login email password => exact hdiscard (safe_login email password)
    | exchangeMfa mfaToken code => exact hdiscard (safe_exchangeMfa mfaToken code)
    | refresh tokenHash => exact hdiscard (safe_refresh tokenHash)
    | logout userId sessionId => exact Ledger.safe_of_always (keepsTotals_logout _ _)
    | requestPasswordReset email =>
      exact Ledger.safe_of_always (keepsTotals_requestPasswordReset _)
    | confirmPasswordReset resetToken newPassword =>
      exact Ledger.safe_of_always (keepsTotals_confirmPasswordReset _ _)
    | tick =>
      apply Ledger.safe_of_always
      apply keepsTotals_atomically
      exact Transaction.within_modify fun s => keeps_of_same rfl rfl (Nat.le_refl _)

end programs

/-! ## A Presentation -/

section presentation

variable {env : AuthEnv} {c c' : Config AuthStore AuthAccess AuthError} {row : RefreshToken}
  {es : List (Event (Config AuthStore AuthAccess AuthError) AuthAccess AuthError)}
  {r : Ending AuthError LoginResult}

theorem familyRevoked_of_held {facts : Multiset (Lasting Evolves)} {familyId : ℕ}
    (hc : System.HeldBeside reuseLedger (0, facts) c) (hmem : familyIsRevoked familyId ∈ facts) :
    FamilyRevoked familyId c.store :=
  (hc.holds.2 _ hmem).2

theorem Tracked.familyIsRevoked {s : AuthStore} {reserved : Multiset ℕ} {token : RefreshToken}
    {session : Session} (h : Tracked s reserved) (htoken : token ∈ s.refreshTokens)
    (hsession : session ∈ s.sessions) (hid : session.id = token.sessionId)
    (hrotated : token.rotatedAt.isSome)
    (hrevoked : token.revokedAt.isSome ∨ session.revokedAt.isSome) :
    (Auth.familyIsRevoked token.familyId).holds s := by
  refine ⟨⟨token, htoken, rfl⟩, h.revoked token htoken ?_⟩
  rcases hrevoked with hrevoked | hrevoked
  · exact hrevoked
  · exact h.rotated token htoken hrotated token htoken rfl session hsession hid hrevoked

end presentation

/-! ## Presentations That Are Replayed -/

def findRotated (tokenHash : ℕ) (s : AuthStore) : Option RefreshToken :=
  s.refreshTokens.find? fun token => decide (token.tokenHash = tokenHash ∧ token.rotatedAt.isSome)

/-- An execution of `refresh` that nothing interrupts, with its accesses and its ending. -/
def present (env : AuthEnv) (tokenHash : ℕ) (c : Config AuthStore AuthAccess AuthError) :
    List (Event (Config AuthStore AuthAccess AuthError) AuthAccess AuthError) ×
      Ending AuthError LoginResult × Config AuthStore AuthAccess AuthError :=
  (refresh env tokenHash).beside.execute c (List.replicate 5 .done)

/-- The execution has ended, and its accesses were admitted and answered. -/
def Answered (admits : AuthAccess → AuthStore → Prop)
    (x : List (Event (Config AuthStore AuthAccess AuthError) AuthAccess AuthError) ×
      Ending AuthError LoginResult × Config AuthStore AuthAccess AuthError) : Prop :=
  (∀ y ∈ x.1, y.fate = .done ∧ admits y.label y.store.store) ∧ x.2.1 ≠ .crashed

instance (r : Ending AuthError LoginResult) : Decidable (r = .crashed) :=
  match r with
  | .crashed => isTrue rfl
  | .returned _ => isFalse nofun
  | .raised _ => isFalse nofun

instance (admits : AuthAccess → AuthStore → Prop) [∀ l s, Decidable (admits l s)]
    (x : List (Event (Config AuthStore AuthAccess AuthError) AuthAccess AuthError) ×
      Ending AuthError LoginResult × Config AuthStore AuthAccess AuthError) :
    Decidable (Answered admits x) :=
  inferInstanceAs (Decidable ((∀ y ∈ x.1, y.fate = .done ∧ admits y.label y.store.store) ∧
    x.2.1 ≠ .crashed))

theorem exists_presentation (env : AuthEnv) (admits : AuthAccess → AuthStore → Prop)
    [∀ l s, Decidable (admits l s)] (tokenHash : ℕ) (ms ms' : List (Move AuthRequest AuthError))
    (clock revoked : Bool)
    (h : ((authSystem env).playAll admits ⟨oneUser, []⟩ ms).bind (fun c =>
      (findRotated tokenHash c.store).bind fun row =>
        ((authSystem env).playAll admits (present env tokenHash c).2.2 ms').bind fun c' =>
          if Answered admits (present env tokenHash c) then
            some (decide (∀ x ∈ (present env tokenHash c).1[1]?, x.store.store.now ≤ row.expiresAt),
              decide (FamilyRevoked row.familyId c'.store))
          else none) = some (clock, revoked)) :
    ∃ c c' row es r, (authSystem env).Reachable admits c ∧ row ∈ c.store.refreshTokens ∧
      row.rotatedAt.isSome ∧
      (authSystem env).Alongside admits c (refresh env row.tokenHash) es r c' ∧ r ≠ .crashed ∧
      (∀ x ∈ es, x.fate = .done) ∧ ((∀ x ∈ es[1]?, x.store.store.now ≤ row.expiresAt) ↔ clock) ∧
      (FamilyRevoked row.familyId c'.store ↔ revoked) := by
  simp only [Option.bind_eq_some_iff, Option.ite_none_right_eq_some, Option.some.injEq,
    Prod.mk.injEq] at h
  obtain ⟨c, hc, row, hrow, c', hc', ⟨hanswered, hended⟩, rfl, rfl⟩ := h
  obtain ⟨rfl, hrotated⟩ : row.tokenHash = tokenHash ∧ row.rotatedAt.isSome := by
    simpa using List.find?_some hrow
  refine ⟨c, c', row, _, _, ⟨oneUser, signedOut_oneUser, System.run_of_playAll hc⟩,
    List.mem_of_find?_eq_some hrow, hrotated, ?_, hended, fun x hx => (hanswered x hx).1,
    by rw [decide_eq_true_eq], by rw [decide_eq_true_eq]⟩
  exact System.alongside_execute (fun x hx _ => (hanswered x hx).2) (System.run_of_playAll hc')

/-- Refresh tokens that expire after a second. -/
def shortEnv : AuthEnv :=
  { sampleEnv with policy := { refreshTokenTtlSeconds := 1 } }

end AudioBook.Auth
