import AudioBook.Auth.Families
import AudioBook.Concurrent.Uniform

/-!
# The Lockout of Logins

A login reads the credential, verifies the password, and writes afterwards: a wrong password stores
the number of failed attempts that was read, plus one, and a right one resets the number and the
lockout. Requests of one account overlap between the read and the write.

Here the verification is a step of its own, and the store keeps a record of what happened to each
account.

- `guardedLogin`: `login`, with that record.
- `loginSystem`: logins, interleaved in any way, while time passes.
- `LockoutHolds`: the lockout bounds the guesses, and no login clears it.
- `Undisturbed`: the steps that find the credential as their login read it.

## Main results

* `guardedLogin_evaluate`: alone, a login does what `login` does.
* `lockoutHolds_of_undisturbed`: the lockout holds in every run of undisturbed steps.
-/

namespace AudioBook.Auth

open Relational Concurrent

/-! ## The Record -/

inductive LoginEvent
  | wrongPassword (userId : ℕ)
  | succeeded (userId : ℕ)
  | lockoutExpired (userId : ℕ)
  /-- A login reset a lockout in force. It was admitted before the lockout was set. -/
  | lockoutCleared (userId : ℕ)
  deriving DecidableEq, Repr

/-- The store of the service, with the record of its logins. -/
structure LockoutStore where
  auth : AuthStore
  /-- The accounts with wrong passwords that were verified and not stored yet. -/
  unrecorded : List ℕ := []
  events : List LoginEvent := []

/-- A transaction on the store with the record. -/
abbrev LockoutTx := Transaction LockoutStore AuthError

/-- The wrong passwords of an account since its last success or the end of its last lockout. -/
def attempts (userId : ℕ) : List LoginEvent → ℕ
  | [] => 0
  | .wrongPassword id :: events =>
      if id = userId then attempts userId events + 1 else attempts userId events
  | .succeeded id :: events => if id = userId then 0 else attempts userId events
  | .lockoutExpired id :: events => if id = userId then 0 else attempts userId events
  | .lockoutCleared _ :: events => attempts userId events

def UserCredential.LockedAt (credential : UserCredential) (now : ℕ) : Prop :=
  ∃ lockedUntil, credential.lockedUntil = some lockedUntil ∧ now < lockedUntil

instance (credential : UserCredential) (now : ℕ) : Decidable (credential.LockedAt now) :=
  decidable_of_iff (∃ lockedUntil ∈ credential.lockedUntil, now < lockedUntil) Iff.rfl

/-! ## Login -/

inductive LoginAccess
  | auth (access : AuthAccess)
  /-- The check of the lockout and of the password, with the credential that was read. -/
  | verify (credential : UserCredential) (valid : Bool)
  /-- Store a failed attempt after `currentCount` others. -/
  | record (userId currentCount : ℕ)
  /-- Reset the failed attempts and the lockout, after the credential was read. -/
  | reset (credential : UserCredential)
  | tick

abbrev LoginService := Prog LockoutStore LoginAccess AuthError

def onAuth {α : Type} (t : AuthTx α) : LockoutTx α := fun s =>
  match t s.auth with
  | .ok (a, auth) => .ok (a, { s with auth })
  | .error e => .error e

/-- A program of the service that leaves the credentials alone. -/
def onService {α : Type} (p : AuthService α) : LoginService α :=
  p.onPart .auth LockoutStore.auth fun auth s => { s with auth }

variable (env : AuthEnv)

/-- The check of the lockout, and then of the password: `argon2Verify` starts in the same step. -/
def verifyPassword (credential : UserCredential) (valid : Bool) : LockoutTx Unit := do
  if credential.LockedAt (← get).auth.now then throw .accountLocked
  else if valid then return
  else modify fun s =>
    { s with
      unrecorded := credential.userId :: s.unrecorded
      events := .wrongPassword credential.userId :: s.events }

def UserCredential.failedAttempt (policy : AuthPolicy) (currentCount now : ℕ)
    (c : UserCredential) : UserCredential :=
  if policy.loginMaxFailedAttempts ≤ currentCount + 1 then
    { c with failedAttemptCount := 0, lockedUntil := some (now + policy.loginLockoutSeconds) }
  else { c with failedAttemptCount := currentCount + 1 }

def UserCredential.resetAttempts (c : UserCredential) : UserCredential :=
  { c with failedAttemptCount := 0, lockedUntil := none }

/-- The write of `recordFailedAttempt`. A lockout may be over when it is stored. -/
def storeFailedAttempt (userId currentCount now : ℕ) : LockoutTx Unit := do
  onAuth (updateCredential userId (.failedAttempt env.policy currentCount now))
  modify fun s =>
    { s with
      unrecorded := s.unrecorded.erase userId
      events :=
        if env.policy.loginMaxFailedAttempts ≤ currentCount + 1 ∧
            now + env.policy.loginLockoutSeconds ≤ s.auth.now then
          .lockoutExpired userId :: s.events
        else s.events }

/-- The account has a lockout in force. -/
def LockoutStore.LockedOut (userId : ℕ) (s : LockoutStore) : Prop :=
  ∃ c, findCredential userId s.auth = some c ∧ c.LockedAt s.auth.now

instance (userId : ℕ) (s : LockoutStore) : Decidable (s.LockedOut userId) :=
  decidable_of_iff (∃ c ∈ findCredential userId s.auth, c.LockedAt s.auth.now) Iff.rfl

/-- The reset after a right password. -/
def storeSuccess (userId : ℕ) : LockoutTx Unit := do
  let before ← get
  onAuth (updateCredential userId .resetAttempts)
  modify fun s =>
    { s with events :=
        if before.LockedOut userId then .succeeded userId :: .lockoutCleared userId :: s.events
        else .succeeded userId :: s.events }

/-- `recordFailedAttempt`. -/
def recordFailed (userId currentCount : ℕ) : LoginService Unit := do
  let now ← onService (query AuthStore.now)
  Prog.atomically (.record userId currentCount) (storeFailedAttempt env userId currentCount now)

/-- The part of `login` after the password was accepted. -/
def completeGuarded (credential : UserCredential) (generation : ℕ) : LoginService LoginResult := do
  Prog.atomically (.reset credential) (storeSuccess credential.userId)
  onService external
  if credential.mfaEnrolled then
    let mfaToken ← onService (Prog.atomically (.setMfaToken credential.userId)
      (setMfaToken env credential.userId generation))
    return .mfaRequired mfaToken
  else onService (issueSession env credential.userId generation)

/-- `login`. -/
def guardedLogin (email password : String) : LoginService LoginResult := do
  match ← onService (query (findLogin email)) with
  | some (user, some credential, generation) =>
      if user.active = false then throw .authentication
      else
        let valid := env.argon2Verify credential.passwordHash password
        Prog.atomically (.verify credential valid) (verifyPassword credential valid)
        if valid then completeGuarded env credential generation
        else
          recordFailed env user.id credential.failedAttemptCount
          throw .authentication
  | _ => throw .authentication

def passTime (s : LockoutStore) : LockoutStore :=
  { s with
    auth := { s.auth with now := s.auth.now + 1 }
    events :=
      ((s.auth.credentials.filter fun c => c.lockedUntil = some (s.auth.now + 1)).map
        fun c => .lockoutExpired c.userId) ++ s.events }

inductive LoginRequest
  | login (email password : String)
  | tick

/-- Any users and credentials; nothing has happened yet. -/
def Fresh (s : LockoutStore) : Prop := s.unrecorded = [] ∧ s.events = []

/-- Any number of logins, interleaved in any way, while time passes. -/
def loginSystem : System LockoutStore LoginRequest LoginAccess AuthError where
  init := Fresh
  enabled _ _ := True
  program
    | .login email password => do
        let _ ← guardedLogin env email password
    | .tick => Prog.atomically .tick (modify passTime)

instance (i : LoginRequest) (s : LockoutStore) : Decidable ((loginSystem env).enabled i s) :=
  isTrue trivial

/-! ## Alone, a Login Is a Login -/

/-- Alone, `p` returns what `q` returns and leaves the store that `q` leaves. -/
def Mirrors {α : Type} (p : LoginService α) (q : AuthService α) : Prop :=
  ∀ s, (p.evaluate (fun _ => none) s).1 = (q.evaluate (fun _ => none) s.auth).1 ∧
    (p.evaluate (fun _ => none) s).2.auth = (q.evaluate (fun _ => none) s.auth).2

section mirrors

variable {env} {α β : Type}

theorem mirrors_pure (a : α) : Mirrors (pure a) (pure a) := fun _ => ⟨rfl, rfl⟩

theorem mirrors_throw (e : AuthError) : Mirrors (throw e : LoginService α) (throw e) :=
  fun _ => ⟨rfl, rfl⟩

theorem Mirrors.bind {p : LoginService α} {q : AuthService α} {f : α → LoginService β}
    {g : α → AuthService β} (h : Mirrors p q) (hf : ∀ a, Mirrors (f a) (g a)) :
    Mirrors (p >>= f) (q >>= g) := by
  intro s
  obtain ⟨hresult, hstore⟩ := h s
  rw [Prog.evaluate_bind, Prog.evaluate_bind]
  rcases hp : p.evaluate (fun _ => none) s with ⟨r, s₁⟩
  rcases hq : q.evaluate (fun _ => none) s.auth with ⟨r', s₁'⟩
  rw [hp, hq] at hresult hstore
  dsimp only at hresult hstore
  subst hresult hstore
  cases r with
  | ok a => exact hf a s₁
  | error e => exact ⟨rfl, rfl⟩

theorem mirrors_onService (p : AuthService α) : Mirrors (onService p) p := by
  intro s
  rw [onService, Prog.evaluate_onPart LoginAccess.auth LockoutStore.auth (fun auth s => { s with auth }) p
    (fun _ _ => rfl) (fun _ _ _ => rfl) fun _ => rfl]
  exact ⟨rfl, rfl⟩

theorem mirrors_atomically {l : LoginAccess} {l' : AuthAccess} {t : LockoutTx α} {t' : AuthTx α}
    (h : ∀ s, (t s).map (fun r => (r.1, r.2.auth)) = t' s.auth) :
    Mirrors (Prog.atomically l t) (Prog.atomically l' t') := by
  intro s
  rw [Prog.atomically, Prog.atomically, Prog.evaluate, Prog.evaluate]
  dsimp only
  rw [Prog.outcome, Prog.outcome, Prog.commit, Prog.commit, ← h s]
  cases t s with
  | ok r => exact ⟨rfl, rfl⟩
  | error e => exact ⟨rfl, rfl⟩

theorem onAuth_modify_map (t : AuthTx Unit) (f : LockoutStore → LockoutStore)
    (hf : ∀ s, (f s).auth = s.auth) (s : LockoutStore) :
    ((do onAuth t; modify f : LockoutTx Unit) s).map (fun r => (r.1, r.2.auth)) = t s.auth := by
  show Except.map _ (Except.bind (onAuth t s) _) = _
  rw [onAuth]
  cases t s.auth with
  | ok r => exact congrArg (fun auth => Except.ok ((), auth)) (hf _)
  | error e => rfl

theorem mirrors_recordFailed (userId currentCount : ℕ) :
    Mirrors (recordFailed env userId currentCount) (recordFailedAttempt env userId currentCount) :=
  (mirrors_onService _).bind fun _ => mirrors_atomically (onAuth_modify_map _ _ fun _ => rfl)

theorem mirrors_completeGuarded (credential : UserCredential) (generation : ℕ) :
    Mirrors (completeGuarded env credential generation)
      (completeLogin env credential generation) := by
  have hreset : Mirrors (Prog.atomically (.reset credential) (storeSuccess credential.userId))
      (Prog.atomically (.updateCredential credential.userId)
        (updateCredential credential.userId .resetAttempts)) := by
    refine mirrors_atomically fun s => ?_
    -- The record is written after the credential, from the store as it was before.
    exact onAuth_modify_map (updateCredential credential.userId .resetAttempts)
      (fun s' => { s' with
        events :=
          if s.LockedOut credential.userId then
            .succeeded credential.userId :: .lockoutCleared credential.userId :: s'.events
          else .succeeded credential.userId :: s'.events }) (fun _ => rfl) s
  refine hreset.bind fun _ => (mirrors_onService _).bind fun _ => ?_
  split
  · exact (mirrors_onService _).bind fun _ => mirrors_pure _
  · exact mirrors_onService _

theorem mirrors_verifyPassword (credential : UserCredential) (valid : Bool) {p : LoginService α}
    {q : AuthService α} (h : Mirrors p q) :
    Mirrors
      (do
        Prog.atomically (.verify credential valid) (verifyPassword credential valid)
        p)
      (do
        let now ← query AuthStore.now
        if credential.lockedUntil.any fun lockedUntil => decide (now < lockedUntil) then
          throw .accountLocked
        else q) := by
  intro s
  have hlocked : (credential.lockedUntil.any fun lockedUntil =>
      decide (s.auth.now < lockedUntil)) = true ↔ credential.LockedAt s.auth.now := by
    simp [Option.any_eq_true, UserCredential.LockedAt]
  rw [query, Prog.evaluate_read_bind rfl, Prog.evaluate_bind, Prog.atomically, Prog.evaluate]
  dsimp only
  rw [Prog.outcome, Prog.commit]
  by_cases hnow : credential.LockedAt s.auth.now
  · have hverify : verifyPassword credential valid s = .error .accountLocked := by
      show (if credential.LockedAt s.auth.now then _ else _ : LockoutTx Unit) s = _
      rw [if_pos hnow]
      rfl
    rw [if_pos (hlocked.mpr hnow), hverify]
    exact ⟨rfl, rfl⟩
  · obtain ⟨s', hverify, hauth⟩ : ∃ s', verifyPassword credential valid s = .ok ((), s') ∧
        s'.auth = s.auth := by
      show ∃ s', (if credential.LockedAt s.auth.now then _ else _ : LockoutTx Unit) s = _ ∧ _
      rw [if_neg hnow]
      split
      · exact ⟨s, rfl, rfl⟩
      · exact ⟨_, rfl, rfl⟩
    rw [if_neg fun h => hnow (hlocked.mp h), hverify, ← hauth]
    exact h s'

theorem guardedLogin_evaluate (env : AuthEnv) (email password : String) :
    Mirrors (guardedLogin env email password) (login env email password) := by
  refine (mirrors_onService _).bind fun found => ?_
  rcases found with _ | ⟨user, _ | credential, generation⟩
  · exact mirrors_throw _
  · exact mirrors_throw _
  · dsimp only
    split
    · exact mirrors_throw _
    · -- The check and the verification are one step here, and follow the clock there.
      refine mirrors_verifyPassword credential _ ?_
      split
      · exact mirrors_completeGuarded credential generation
      · exact (mirrors_recordFailed _ _).bind fun _ => mirrors_throw _

end mirrors

/-! ## The Lockout Holds -/

/-- The lockout bounds the guesses, and no login clears a lockout in force. -/
structure LockoutHolds (policy : AuthPolicy) (s : LockoutStore) : Prop where
  bounded : ∀ userId, attempts userId s.events ≤ policy.loginMaxFailedAttempts
  kept : ∀ userId, .lockoutCleared userId ∉ s.events

/-- A login finds the credential as it read it: a wrong password is verified while the attempts and
the lockout are the same and no other wrong password of the account is still to be stored; it is
stored over no higher number; and the reset after a right one meets the same lockout. -/
def Undisturbed : LoginAccess → LockoutStore → Prop
  | .verify credential false, s => ¬ credential.LockedAt s.auth.now →
      credential.userId ∉ s.unrecorded ∧
        ∃ c ∈ findCredential credential.userId s.auth,
          c.failedAttemptCount = credential.failedAttemptCount ∧
            c.lockedUntil = credential.lockedUntil
  | .record userId currentCount, s =>
      ∀ c ∈ findCredential userId s.auth, c.failedAttemptCount ≤ currentCount
  | .reset credential, s =>
      ∀ c ∈ findCredential credential.userId s.auth, c.lockedUntil = credential.lockedUntil
  | _, _ => True

instance : (l : LoginAccess) → (s : LockoutStore) → Decidable (Undisturbed l s)
  | .verify _ false, _ => inferInstanceAs (Decidable (¬ _ → _ ∧ ∃ _ ∈ _, _))
  | .record _ _, _ => inferInstanceAs (Decidable (∀ _ ∈ _, _))
  | .reset _, _ => inferInstanceAs (Decidable (∀ _ ∈ _, _))
  | .verify _ true, _ | .auth _, _ | .tick, _ => isTrue trivial

/-- While an account is not locked, its wrong passwords are those that are stored and those that are
still to be stored, of which there is at most one. -/
structure Guarded (policy : AuthPolicy) (s : LockoutStore) : Prop extends LockoutHolds policy s where
  single : ∀ userId, s.unrecorded.count userId ≤ 1
  counted : ∀ userId c, findCredential userId s.auth = some c → ¬ c.LockedAt s.auth.now →
    attempts userId s.events ≤
      min c.failedAttemptCount (policy.loginMaxFailedAttempts - 1) + s.unrecorded.count userId

section changes

variable {policy : AuthPolicy} {s s' : LockoutStore}

theorem Fresh.guarded (h : Fresh s) : Guarded policy s where
  bounded userId := by simp [h.2, attempts]
  kept userId := by simp [h.2]
  single userId := by simp [h.1]
  counted userId c _ _ := by simp [h.2, attempts]

theorem Guarded.of_sameCredentials (h : Guarded policy s) {auth : AuthStore}
    (hcredentials : auth.credentials = s.auth.credentials) (hnow : auth.now = s.auth.now) :
    Guarded policy { s with auth } where
  bounded := h.bounded
  kept := h.kept
  single := h.single
  counted userId c hc hlocked := by
    refine h.counted userId c ?_ ?_
    · rwa [findCredential, ← hcredentials]
    · rwa [← hnow]

theorem updateCredential_eq_ok {userId : ℕ} {f : UserCredential → UserCredential}
    {a a' : AuthStore} (hf : ∀ c, (f c).userId = c.userId)
    (h : updateCredential userId f a = .ok ((), a')) :
    a'.now = a.now ∧ ∀ id, findCredential id a' =
      (findCredential id a).map fun c => if c.userId = userId then f c else c := by
  obtain ⟨_, _, hget, h⟩ := Transaction.bind_eq_ok_iff.mp h
  cases hget
  split at h
  · obtain ⟨-, rfl⟩ := (Table.update_eq_ok_iff (ε := AuthError) userCredential).mp h
    refine ⟨rfl, fun id => ?_⟩
    refine (find?_updateWhere (g := UserCredential.userId) hf _ id).trans ?_
    simp only [decide_eq_true_eq]
    rfl
  · cases h

theorem userId_of_findCredential {a : AuthStore} {userId : ℕ} {c : UserCredential}
    (h : findCredential userId a = some c) : c.userId = userId := by
  simpa using List.find?_some h

theorem findCredential_updated {userId id : ℕ} {f : UserCredential → UserCredential}
    {a a' : AuthStore} {c : UserCredential} (hf : ∀ c, (f c).userId = c.userId)
    (h : updateCredential userId f a = .ok ((), a')) (hc : findCredential id a' = some c) :
    ∃ c₀, findCredential id a = some c₀ ∧ (id = userId ∧ c = f c₀ ∨ id ≠ userId ∧ c = c₀) := by
  rw [(updateCredential_eq_ok hf h).2, Option.map_eq_some_iff] at hc
  obtain ⟨c₀, hc₀, rfl⟩ := hc
  refine ⟨c₀, hc₀, ?_⟩
  rw [userId_of_findCredential hc₀]
  by_cases hid : id = userId
  · exact .inl ⟨hid, if_pos hid⟩
  · exact .inr ⟨hid, if_neg hid⟩

theorem attempts_wrongPassword (id userId : ℕ) (events : List LoginEvent) :
    attempts id (.wrongPassword userId :: events) =
      attempts id events + if userId = id then 1 else 0 := by
  rw [attempts]
  split <;> rfl

theorem Guarded.verify (h : Guarded policy s) (hmax : 0 < policy.loginMaxFailedAttempts)
    {credential : UserCredential} (hadmits : Undisturbed (.verify credential false) s)
    (hlocked : ¬ credential.LockedAt s.auth.now) :
    Guarded policy { s with
      unrecorded := credential.userId :: s.unrecorded
      events := .wrongPassword credential.userId :: s.events } := by
  obtain ⟨hnone, c, hc, -, hsame⟩ := hadmits hlocked
  have hcount : s.unrecorded.count credential.userId = 0 := List.count_eq_zero.mpr hnone
  have hopen : ¬ c.LockedAt s.auth.now := by
    rw [UserCredential.LockedAt, hsame]
    exact hlocked
  have hattempts := h.counted credential.userId c hc hopen
  refine ⟨⟨fun id => ?_, fun id => ?_⟩, fun id => ?_, fun id c' hc' hopen' => ?_⟩
  · rw [attempts_wrongPassword]
    by_cases hid : credential.userId = id
    · subst hid
      rw [if_pos rfl]
      omega
    · rw [if_neg hid, Nat.add_zero]
      exact h.bounded id
  · rw [List.mem_cons, not_or]
    exact ⟨by simp, h.kept id⟩
  · dsimp only
    rw [List.count_cons]
    by_cases hid : credential.userId = id
    · subst hid
      simp [hcount]
    · simpa [hid] using h.single id
  · have hold := h.counted id c' hc' hopen'
    dsimp only
    rw [attempts_wrongPassword, List.count_cons]
    by_cases hid : credential.userId = id
    · simp only [hid, beq_self_eq_true, if_true]
      omega
    · simpa [hid] using hold

theorem onAuth_eq_ok {α : Type} {t : AuthTx α} {a : α} (h : onAuth t s = .ok (a, s')) :
    ∃ auth, t s.auth = .ok (a, auth) ∧ s' = { s with auth } := by
  rw [onAuth] at h
  split at h
  · next auth hok =>
    cases h
    exact ⟨auth, hok, rfl⟩
  · cases h

theorem Guarded.storeFailedAttempt {env : AuthEnv} (h : Guarded env.policy s)
    {userId currentCount now : ℕ} (hadmits : Undisturbed (.record userId currentCount) s)
    (hok : storeFailedAttempt env userId currentCount now s = .ok ((), s')) :
    Guarded env.policy s' ∧ s'.auth.now = s.auth.now := by
  obtain ⟨_, s₁, hupdate, hok⟩ := Transaction.bind_eq_ok_iff.mp hok
  obtain ⟨auth, hauth, rfl⟩ := onAuth_eq_ok hupdate
  cases hok
  have hrow : ∀ c : UserCredential,
      (c.failedAttempt env.policy currentCount now).userId = c.userId := by
    intro c
    rw [UserCredential.failedAttempt]
    split <;> rfl
  have hnow := (updateCredential_eq_ok hrow hauth).1
  refine ⟨⟨⟨fun id => ?_, fun id => ?_⟩, fun id => ?_, fun id c hc hopen => ?_⟩, hnow⟩
  · refine Nat.le_trans ?_ (h.bounded id)
    dsimp only
    split
    · rw [attempts]
      split
      · exact Nat.zero_le _
      · exact Nat.le_refl _
    · exact Nat.le_refl _
  · dsimp only
    split
    · rw [List.mem_cons, not_or]
      exact ⟨by simp, h.kept id⟩
    · exact h.kept id
  · exact Nat.le_trans (List.erase_sublist.count_le id) (h.single id)
  · dsimp only at hopen ⊢
    obtain ⟨c₀, hc₀, ⟨rfl, rfl⟩ | ⟨hid, rfl⟩⟩ := findCredential_updated hrow hauth hc
    · by_cases hlocks : env.policy.loginMaxFailedAttempts ≤ currentCount + 1
      · -- The account is locked, unless the lockout is over already.
        have hover : now + env.policy.loginLockoutSeconds ≤ auth.now := by
          by_contra hlater
          refine hopen ⟨now + env.policy.loginLockoutSeconds, ?_, by omega⟩
          rw [UserCredential.failedAttempt, if_pos hlocks]
        rw [if_pos ⟨hlocks, hover⟩, attempts, if_pos rfl]
        exact Nat.zero_le _
      · have hle := hadmits c₀ hc₀
        have hsingle := h.single id
        have hcounted := h.counted id c₀ hc₀ (by
          rw [UserCredential.failedAttempt, if_neg hlocks, hnow] at hopen
          exact hopen)
        rw [if_neg fun hboth => hlocks hboth.1, UserCredential.failedAttempt, if_neg hlocks]
        dsimp only
        omega
    · have hcounted := h.counted id c hc₀ (hnow ▸ hopen)
      rw [List.count_erase_of_ne hid]
      split
      · rw [attempts, if_neg (Ne.symm hid)]
        exact hcounted
      · exact hcounted

theorem Guarded.storeSuccess (h : Guarded policy s) {credential : UserCredential}
    (hadmits : Undisturbed (.reset credential) s) (hlocked : ¬ credential.LockedAt s.auth.now)
    (hok : storeSuccess credential.userId s = .ok ((), s')) :
    Guarded policy s' ∧ s'.auth.now = s.auth.now := by
  obtain ⟨_, _, hget, hok⟩ := Transaction.bind_eq_ok_iff.mp hok
  cases hget
  obtain ⟨_, s₁, hupdate, hok⟩ := Transaction.bind_eq_ok_iff.mp hok
  obtain ⟨auth, hauth, rfl⟩ := onAuth_eq_ok hupdate
  cases hok
  have hrow : ∀ c : UserCredential, c.resetAttempts.userId = c.userId := fun _ => rfl
  have hnow := (updateCredential_eq_ok hrow hauth).1
  have hopen : ¬ s.LockedOut credential.userId := by
    rintro ⟨c, hc, hc'⟩
    rw [UserCredential.LockedAt, hadmits c hc] at hc'
    exact hlocked hc'
  dsimp only
  rw [if_neg hopen]
  refine ⟨⟨⟨fun id => ?_, fun id => ?_⟩, h.single, fun id c hc hc' => ?_⟩, hnow⟩
  · dsimp only
    rw [attempts]
    split
    · exact Nat.zero_le _
    · exact h.bounded id
  · rw [List.mem_cons, not_or]
    exact ⟨by simp, h.kept id⟩
  · dsimp only at hc' ⊢
    rw [attempts]
    obtain ⟨c₀, hc₀, ⟨rfl, rfl⟩ | ⟨hid, rfl⟩⟩ := findCredential_updated hrow hauth hc
    · rw [if_pos rfl]
      exact Nat.zero_le _
    · rw [if_neg (Ne.symm hid)]
      exact h.counted id c hc₀ (hnow ▸ hc')

theorem attempts_expired (id : ℕ) (cs : List UserCredential) (events : List LoginEvent) :
    attempts id ((cs.map fun c => .lockoutExpired c.userId) ++ events) =
      if id ∈ cs.map UserCredential.userId then 0 else attempts id events := by
  induction cs with
  | nil => rfl
  | cons c cs ih =>
    rw [List.map_cons, List.cons_append, attempts, ih]
    by_cases hid : c.userId = id
    · simp [hid]
    · simp [hid, Ne.symm hid]

theorem Guarded.tick (h : Guarded policy s) : Guarded policy (passTime s) := by
  have hle : ∀ id, attempts id (passTime s).events ≤ attempts id s.events := by
    intro id
    rw [Auth.passTime]
    dsimp only
    rw [attempts_expired]
    split
    · exact Nat.zero_le _
    · exact Nat.le_refl _
  refine ⟨⟨fun id => Nat.le_trans (hle id) (h.bounded id), fun id hmem => ?_⟩, h.single,
    fun id c hc hopen => ?_⟩
  · rcases List.mem_append.mp hmem with hmem | hmem
    · simp at hmem
    · exact h.kept id hmem
  · by_cases hlocked : c.LockedAt s.auth.now
    · -- The lockout ends with this step.
      obtain ⟨lockedUntil, huntil, hlt⟩ := hlocked
      have heq : lockedUntil = s.auth.now + 1 := by
        by_contra hne
        exact hopen ⟨lockedUntil, huntil, show s.auth.now + 1 < lockedUntil by omega⟩
      have hmem : id ∈ (s.auth.credentials.filter fun c =>
          c.lockedUntil = some (s.auth.now + 1)).map UserCredential.userId := by
        refine List.mem_map.mpr ⟨c, List.mem_filter.mpr ⟨List.mem_of_find?_eq_some hc, ?_⟩,
          userId_of_findCredential hc⟩
        simp [huntil, heq]
      rw [Auth.passTime]
      dsimp only
      rw [attempts_expired, if_pos hmem]
      exact Nat.zero_le _
    · exact Nat.le_trans (hle id) (h.counted id c hc hlocked)

end changes

/-! ## The Logins Keep It -/

/-- The credentials and the clock are the same. -/
structure SameCredentials (a a' : AuthStore) : Prop where
  credentials : a'.credentials = a.credentials
  now : a'.now = a.now

instance : IsPreorder AuthStore SameCredentials where
  refl _ := ⟨rfl, rfl⟩
  trans _ _ _ h₁ h₂ := ⟨h₂.credentials.trans h₁.credentials, h₂.now.trans h₁.now⟩

/-- Time does not run backwards. -/
def LockoutStore.Before (s s' : LockoutStore) : Prop := s.auth.now ≤ s'.auth.now

instance : IsPreorder LockoutStore LockoutStore.Before where
  refl s := Nat.le_refl s.auth.now
  trans _ _ _ h₁ h₂ := Nat.le_trans h₁ h₂

/-- The lockout holds and time goes on, as long as the steps are undisturbed. -/
def lockoutContract (policy : AuthPolicy) : Contract LockoutStore LoginAccess :=
  .ofInvariant Undisturbed (Guarded policy) LockoutStore.Before

section programs

variable {env} {policy : AuthPolicy}

/-- An access of the service that leaves the credentials and the clock alone. -/
def LeavesCredentials (_ : AuthAccess) (w : AuthStore → AuthStore) : Prop :=
  ∀ a, SameCredentials a (w a)

theorem leavesCredentials_id (l : AuthAccess) : LeavesCredentials l id := fun _ => ⟨rfl, rfl⟩

theorem leavesCredentials_commit {α : Type} {l : AuthAccess} {t : AuthTx α}
    (h : t.Within SameCredentials) : LeavesCredentials l (Prog.commit t) := by
  intro a
  cases ht : t a with
  | ok r =>
    rw [Prog.commit_of_ok ht]
    exact h a r.1 r.2 ht
  | error e =>
    rw [Prog.commit_of_error ht]
    exact refl_of SameCredentials a

theorem always_onService {α : Type} {p : AuthService α} (h : p.Always LeavesCredentials) :
    (onService p).Always (lockoutContract policy).Allows := by
  refine Prog.always_onPart (h.mono fun l w hw s _ hs => ?_)
  obtain ⟨hcredentials, hnow⟩ := hw s.auth
  exact ⟨hs.of_sameCredentials hcredentials hnow, Nat.le_of_eq hnow.symm⟩

theorem query_leavesCredentials {α : Type} (f : AuthStore → α) :
    (query f).Always LeavesCredentials :=
  Prog.always_read (leavesCredentials_id _)

theorem triple_query {α : Type} (f : AuthStore → α) :
    (lockoutContract policy).Triple (Guarded policy) (onService (query f))
      fun _ => Guarded policy := by
  intro s hs
  have hframe := Contract.wp_frame Contract.stable_invariant hs
    (Contract.safe_of_always (s := s) (always_onService (query_leavesCredentials f)))
  exact Contract.wp_mono (fun _ _ h => h.2) (fun _ _ _ => trivial) hframe

theorem external_leavesCredentials : external.Always LeavesCredentials :=
  Prog.always_read (leavesCredentials_id _)

theorem generateId_within_sameCredentials : generateId.Within SameCredentials := by
  rintro a id a' h
  cases h
  exact ⟨rfl, rfl⟩

theorem setMfaToken_leavesCredentials (userId generation : ℕ) :
    (Prog.atomically (.setMfaToken userId) (setMfaToken env userId generation)).Always
      LeavesCredentials := by
  refine Prog.always_atomically (leavesCredentials_commit ?_)
  refine Transaction.within_bind generateId_within_sameCredentials fun key => ?_
  refine Transaction.within_bind ?_ fun _ => Transaction.within_pure _
  exact Transaction.within_modify fun _ => ⟨rfl, rfl⟩

theorem issueSession_leavesCredentials (userId generation : ℕ) :
    (issueSession env userId generation).Always LeavesCredentials := by
  refine Prog.always_bind (query_leavesCredentials _) fun now => ?_
  refine Prog.always_bind (Prog.always_atomically (leavesCredentials_commit ?_))
    fun sessionId => Prog.always_bind (Prog.always_atomically (leavesCredentials_commit ?_))
      fun _ => Prog.always_bind external_leavesCredentials fun _ => Prog.always_pure _
  · refine Transaction.within_bind generateId_within_sameCredentials fun id => ?_
    refine Transaction.within_bind ?_ fun _ => Transaction.within_pure _
    exact Table.within_insert _ fun _ _ => ⟨rfl, rfl⟩
  · refine Transaction.within_bind generateId_within_sameCredentials fun id => ?_
    refine Transaction.within_bind generateId_within_sameCredentials fun familyId => ?_
    refine Transaction.within_bind generateId_within_sameCredentials fun tokenHash => ?_
    refine Transaction.within_bind ?_ fun _ => Transaction.within_pure _
    exact Table.within_insert _ fun _ _ => ⟨rfl, rfl⟩

theorem stable_notLocked (credential : UserCredential) :
    (lockoutContract policy).Stable fun s =>
      Guarded policy s ∧ ¬ credential.LockedAt s.auth.now := by
  refine Contract.stable_of_mono fun s s' _ hle hopen => ?_
  rintro ⟨lockedUntil, huntil, hlt⟩
  exact hopen ⟨lockedUntil, huntil, Nat.lt_of_le_of_lt hle hlt⟩

theorem triple_verifyPassword (hmax : 0 < policy.loginMaxFailedAttempts)
    (credential : UserCredential) (valid : Bool) :
    (lockoutContract policy).Triple (Guarded policy)
      (Prog.atomically (.verify credential valid) (verifyPassword credential valid))
      fun _ s => Guarded policy s ∧ ¬ credential.LockedAt s.auth.now := by
  refine Contract.triple_atomically Contract.stable_invariant fun s _ s' hs hadmits hok => ?_
  obtain ⟨_, _, hget, hok⟩ := Transaction.bind_eq_ok_iff.mp hok
  cases hget
  split at hok
  · cases hok
  · next hopen =>
    split at hok
    · cases hok
      exact ⟨fun hs => ⟨hs, Nat.le_refl _⟩, hs, hopen⟩
    · next hvalid =>
      cases hok
      rw [Bool.not_eq_true] at hvalid
      subst hvalid
      have hs' := hs.verify hmax hadmits hopen
      exact ⟨fun _ => ⟨hs', Nat.le_refl _⟩, hs', hopen⟩

theorem triple_recordFailed (userId currentCount : ℕ) :
    (lockoutContract env.policy).Triple (Guarded env.policy)
      (recordFailed env userId currentCount) fun _ _ => True := by
  refine (triple_query AuthStore.now).bind fun now => ?_
  refine Contract.triple_atomically Contract.stable_invariant fun s _ s' hs hadmits hok => ?_
  obtain ⟨hs', hnow⟩ := hs.storeFailedAttempt hadmits hok
  exact ⟨fun _ => ⟨hs', Nat.le_of_eq hnow.symm⟩, trivial⟩

theorem triple_completeGuarded (credential : UserCredential) (generation : ℕ) :
    (lockoutContract env.policy).Triple
      (fun s => Guarded env.policy s ∧ ¬ credential.LockedAt s.auth.now)
      (completeGuarded env credential generation) fun _ _ => True := by
  refine Contract.Triple.bind (G := fun _ _ => True)
    (Contract.triple_atomically (stable_notLocked credential) fun s _ s' hs hadmits hok => ?_)
    fun _ s _ => ?_
  · obtain ⟨hs', hnow⟩ := hs.1.storeSuccess hadmits hs.2 hok
    exact ⟨fun _ => ⟨hs', Nat.le_of_eq hnow.symm⟩, trivial⟩
  · refine Contract.safe_of_always ?_
    refine Prog.always_bind (always_onService external_leavesCredentials) fun _ => ?_
    split
    · exact Prog.always_bind (always_onService (setMfaToken_leavesCredentials _ _))
        fun _ => Prog.always_pure _
    · exact always_onService (issueSession_leavesCredentials _ _)

theorem triple_guardedLogin (hmax : 0 < env.policy.loginMaxFailedAttempts)
    (email password : String) :
    (lockoutContract env.policy).Triple (Guarded env.policy) (guardedLogin env email password)
      fun _ _ => True := by
  refine (triple_query (findLogin email)).bind fun found => ?_
  rcases found with _ | ⟨user, _ | credential, generation⟩
  · exact Contract.triple_throw
  · exact Contract.triple_throw
  · dsimp only
    split
    · exact Contract.triple_throw
    · refine (triple_verifyPassword hmax credential _).bind fun _ => ?_
      split
      · exact triple_completeGuarded credential generation
      · refine Contract.Triple.bind (G := fun _ _ => True) ?_ fun _ => Contract.triple_throw
        exact (triple_recordFailed user.id credential.failedAttemptCount).mono
          (fun s hs => hs.1) fun _ _ h => h

theorem loginSystem_respects (hmax : 0 < env.policy.loginMaxFailedAttempts) :
    (loginSystem env).Respects (lockoutContract env.policy) := by
  intro s₀ s i hinit hev _
  have hs : Guarded env.policy s := (hev hinit.guarded).1
  cases i with
  | login email password =>
    refine Contract.safe_bind Contract.stable_invariant hs
      ((triple_guardedLogin hmax email password).safe hs) fun _ _ _ => trivial
  | tick =>
    refine Contract.safe_of_always (Prog.always_atomically ?_)
    refine Contract.allows_commit (K := lockoutContract env.policy) fun s _ s' _ hok hs => ?_
    cases hok
    exact ⟨hs.tick, Nat.le_succ _⟩

/-- **The lockout of logins.** In every run in which the logins find their credentials as they read
them, the lockout bounds the guesses of every account, and no login clears a lockout in force. -/
theorem lockoutHolds_of_undisturbed (env : AuthEnv)
    (hmax : 0 < env.policy.loginMaxFailedAttempts) {c : Config LockoutStore LoginAccess AuthError}
    (h : (loginSystem env).Reachable Undisturbed c) : LockoutHolds env.policy c.store := by
  obtain ⟨s₀, hinit, hev⟩ := (loginSystem_respects hmax).evolves_of_reachable h
  exact (hev hinit.guarded).1.toLockoutHolds

end programs

/-! ## Histories -/

/-- One user, of whom nothing is recorded. -/
def oneAccount : LockoutStore where
  auth := oneUser

/-- A login with a wrong password, as program `n`. -/
def wrongLogin (n : ℕ) : List (Move LoginRequest AuthError) :=
  .spawn (.login "reader@example.org" "guess") :: List.replicate 4 (.proceed n)

/-- Two guesses, one after the other. -/
theorem lockoutHolds_of_undisturbed_guesses :
    ∃ c, (loginSystem sampleEnv).Reachable Undisturbed c ∧ attempts 1 c.store.events = 2 ∧
      LockoutHolds sampleEnv.policy c.store := by
  have hplay : ((loginSystem sampleEnv).playAll Undisturbed ⟨oneAccount, []⟩
      (wrongLogin 0 ++ wrongLogin 1)).map (fun c => attempts 1 c.store.events) = some 2 := by
    decide +kernel
  obtain ⟨c, hrun, hattempts⟩ := System.exists_run_of_playAll
    (f := fun s : LockoutStore => attempts 1 s.events) hplay
  have hreach : (loginSystem sampleEnv).Reachable Undisturbed c := ⟨oneAccount, ⟨rfl, rfl⟩, hrun⟩
  exact ⟨c, hreach, hattempts, lockoutHolds_of_undisturbed sampleEnv (by decide) hreach⟩

/-- Six requests read the credential before any of them writes, and verify six wrong passwords; and
a login that was admitted before five guesses set the lockout clears it. -/
theorem not_forall_lockoutHolds :
    (¬ ∀ (env : AuthEnv) (c : Config LockoutStore LoginAccess AuthError),
      0 < env.policy.loginMaxFailedAttempts → (loginSystem env).Reachable anyAccess c →
        ∀ userId, attempts userId c.store.events ≤ env.policy.loginMaxFailedAttempts) ∧
    ¬ ∀ (env : AuthEnv) (c : Config LockoutStore LoginAccess AuthError),
      0 < env.policy.loginMaxFailedAttempts → (loginSystem env).Reachable anyAccess c →
        ∀ userId, .lockoutCleared userId ∉ c.store.events := by
  constructor
  · intro h
    have hplay : ((loginSystem sampleEnv).playAll anyAccess ⟨oneAccount, []⟩
        (List.replicate 6 (.spawn (.login "reader@example.org" "guess")) ++
          (List.range 6).map .proceed ++ (List.range 6).map .proceed)).map
            (fun c => attempts 1 c.store.events) = some 6 := by decide +kernel
    obtain ⟨c, hrun, hattempts⟩ :=
      System.exists_run_of_playAll (f := fun s : LockoutStore => attempts 1 s.events) hplay
    have hbound := h sampleEnv c (by decide) ⟨oneAccount, ⟨rfl, rfl⟩, hrun⟩ 1
    rw [hattempts] at hbound
    exact absurd hbound (by decide)
  · intro h
    have hplay : ((loginSystem sampleEnv).playAll anyAccess ⟨oneAccount, []⟩
        ([.spawn (.login "reader@example.org" "twelve-chars"), .proceed 0, .proceed 0] ++
          wrongLogin 1 ++ wrongLogin 2 ++ wrongLogin 3 ++ wrongLogin 4 ++ wrongLogin 5 ++
            [.proceed 0])).map (fun c => decide (.lockoutCleared 1 ∈ c.store.events)) =
        some true := by decide +kernel
    obtain ⟨c, hrun, hcleared⟩ := System.exists_run_of_playAll
      (f := fun s : LockoutStore => decide (.lockoutCleared 1 ∈ s.events)) hplay
    exact h sampleEnv c (by decide) ⟨oneAccount, ⟨rfl, rfl⟩, hrun⟩ 1 (of_decide_eq_true hcleared)

end AudioBook.Auth
