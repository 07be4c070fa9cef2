import AudioBook.Concurrent.Machine
import AudioBook.Relational.Table
import AudioBook.Schema.Rows

/-!
# The Lifecycle of a Voice Version

A `VoiceProfileVersion` carries its lifecycle in two columns, `approval_state` and `lock_state`. The
API's voice service creates previews and approves, rejects, locks and retires versions; the GPU
worker locks the version it synthesizes with.

- `approveVoiceProfileVersion`, `lockVoiceProfileVersion`, `retireVoiceProfileVersion`,
  `beginTtsJob`: the operations, each with its own guards.
- `Transition`: what an operation can do to a version's row.
- `voiceMachine`: operations in any order, with previews rendered and characters cast in between.

## Main results

* `step_version`: every operation keeps a version's row or makes one `Transition` of it.
* `version_lifecycle`: while no `RETIRED` version is approved again, `RETIRED` is terminal, and a
  version that has been `LOCKED` changes no more except that it may be retired.
-/

namespace AudioBook.VoiceLifecycle

open Relational Concurrent

/-! ## Rows -/

inductive VoiceLockState
  | unlocked
  | locked
  deriving DecidableEq, Repr

inductive VoiceLockReason
  | usedInGeneration
  | userLocked
  deriving DecidableEq, Repr

inductive VoicePreviewStatus
  | generating
  | ready
  | failed
  | expired
  deriving DecidableEq, Repr

structure VoiceProfile where
  id : Id
  isSystem : Bool
  tenantId : Option Id
  activeVersionId : Option Id := none
  activeVersionNumber : Option ℕ := none
  versionCount : ℕ := 0
  deletedAt : Option ℕ := none
  deriving DecidableEq

/-- `voice_profile_version`: its identity, and the columns that an operation writes. -/
structure VoiceProfileVersion where
  id : Id
  tenantId : Id
  voiceProfileId : Id
  version : ℕ
  ttsModelVersionId : Id
  baseGenerationParamsHash : Hash
  identityFingerprint : Hash
  approvalState : VoiceApprovalState := .draft
  approvedByUserId : Option Id := none
  approvedAt : Option ℕ := none
  lockState : VoiceLockState := .unlocked
  lockedAt : Option ℕ := none
  lockedReason : Option VoiceLockReason := none
  retiredAt : Option ℕ := none
  deriving DecidableEq

structure VoicePreview where
  id : Id
  tenantId : Id
  voiceProfileVersionId : Id
  bookId : Id
  status : VoicePreviewStatus
  ttsModelVersionId : Id
  generationParamsHash : Hash
  deriving DecidableEq

/-- `voice_assignment`, the columns that a retirement reads. -/
structure VoiceAssignment where
  id : Id
  voiceProfileVersionId : Id
  isActive : Bool
  deriving DecidableEq

/-- The tables of the voice registry, and the books with their tenants. -/
structure Registry where
  profiles : List VoiceProfile := []
  versions : List VoiceProfileVersion := []
  previews : List VoicePreview := []
  assignments : List VoiceAssignment := []
  books : List (Id × Id) := []
  deriving DecidableEq

structure Principal where
  sub : Id
  tenantId : Id

inductive VoiceError
  | notFound (message : String)
  | conflict (code message : String)
  | validation (message field issue : String)
  | uniqueViolation
  deriving DecidableEq, Repr

/-! ## The operations -/

def productionApprovalStates : List VoiceApprovalState := [.approved, .locked]

def requireOwnedVoiceProfile (principal : Principal) (voiceProfileId : Id) (s : Registry) :
    Except VoiceError VoiceProfile :=
  match s.profiles.find? fun p => p.id = voiceProfileId ∧ p.deletedAt = none with
  | none => .error (.notFound "Voice profile not found.")
  | some profile =>
    if ¬ profile.isSystem ∧ profile.tenantId ≠ some principal.tenantId then
      .error (.notFound "Voice profile not found.")
    else .ok profile

def requireOwnedVersion (principal : Principal) (voiceProfileId : Id) (version : ℕ)
    (s : Registry) : Except VoiceError VoiceProfileVersion := do
  let _ ← requireOwnedVoiceProfile principal voiceProfileId s
  match s.versions.find? fun v => v.voiceProfileId = voiceProfileId ∧ v.version = version with
  | none => .error (.notFound "Voice profile version not found.")
  | some row => .ok row

/-- `UPDATE voice_profile_version SET … WHERE id = …`. -/
def Registry.updateVersion (s : Registry) (id : Id) (f : VoiceProfileVersion → VoiceProfileVersion) :
    Registry :=
  { s with versions := updateWhere (fun v => decide (v.id = id)) f s.versions }

/-- `createVoiceProfileVersion`, after its checks of the body: a new version is an unlocked
`DRAFT`. -/
def createVoiceProfileVersion (principal : Principal) (voiceProfileId newId ttsModelVersionId : Id)
    (baseGenerationParamsHash identityFingerprint : Hash) (s : Registry) :
    Except VoiceError Registry := do
  let profile ← requireOwnedVoiceProfile principal voiceProfileId s
  let created : VoiceProfileVersion := {
    id := newId
    tenantId := principal.tenantId
    voiceProfileId
    version := profile.versionCount + 1
    ttsModelVersionId
    baseGenerationParamsHash
    identityFingerprint }
  -- The primary key and the two unique indexes of the table.
  if s.versions.any fun v => v.id = newId ∨ v.voiceProfileId = voiceProfileId ∧
      (v.version = created.version ∨ v.identityFingerprint = identityFingerprint) then
    .error .uniqueViolation
  else .ok { s with
    versions := s.versions ++ [created]
    profiles := updateWhere (fun p => decide (p.id = voiceProfileId))
      (fun p => { p with versionCount := profile.versionCount + 1 }) s.profiles }

/-- `createVoicePreviews`, under the ids that its samples are given. -/
def createVoicePreviews (principal : Principal) (voiceProfileId : Id) (version : ℕ)
    (bookId : Option Id) (previewIds : List Id) (s : Registry) : Except VoiceError Registry := do
  let row ← requireOwnedVersion principal voiceProfileId version s
  match bookId with
  | none =>
    .error (.validation "book_id is required to generate a voice preview." "book_id" "required")
  | some bookId =>
    if (bookId, principal.tenantId) ∉ s.books then .error (.notFound "Book not found.")
    else .ok { s with
      previews := s.previews ++ previewIds.map fun id => {
        id
        tenantId := principal.tenantId
        voiceProfileVersionId := row.id
        bookId
        status := .generating
        ttsModelVersionId := row.ttsModelVersionId
        generationParamsHash := row.baseGenerationParamsHash } }

/-- Some preview of the version is `READY`. -/
def Registry.hasReadyPreview (s : Registry) (versionId : Id) : Bool :=
  s.previews.any fun p => p.voiceProfileVersionId = versionId ∧ p.status = .ready

/-- The version becomes the active one of its profile, unless a newer one is. -/
def activate (row : VoiceProfileVersion) (profile : VoiceProfile) : VoiceProfile :=
  if profile.activeVersionNumber.all (· < row.version) then
    { profile with activeVersionId := some row.id, activeVersionNumber := some row.version }
  else profile

/-- `approveVoiceProfileVersion`: `approved := false` rejects. -/
def approveVoiceProfileVersion (principal : Principal) (voiceProfileId : Id) (version : ℕ)
    (approved : Bool) (now : ℕ) (s : Registry) : Except VoiceError Registry := do
  let row ← requireOwnedVersion principal voiceProfileId version s
  if ¬ approved then
    if row.approvalState ≠ .previewGenerated then
      .error (.conflict "INVALID_STATE_TRANSITION"
        "Only a PREVIEW_GENERATED version can be rejected back to DRAFT.")
    else .ok (s.updateVersion row.id fun v => { v with approvalState := .draft })
  else if row.approvalState ∈ productionApprovalStates then .ok s
  else if row.approvalState ≠ .previewGenerated ∧ ¬ s.hasReadyPreview row.id then
    .error (.conflict "PREVIEW_REQUIRED_BEFORE_APPROVAL"
      "At least one READY preview is required before approval.")
  else
    let s := s.updateVersion row.id fun v => { v with
      approvalState := .approved
      approvedByUserId := some principal.sub
      approvedAt := some now }
    .ok { s with profiles := updateWhere (fun p => decide (p.id = voiceProfileId)) (activate row)
                                s.profiles }

def lockVoiceProfileVersion (principal : Principal) (voiceProfileId : Id) (version : ℕ)
    (reason : VoiceLockReason) (now : ℕ) (s : Registry) : Except VoiceError Registry := do
  let row ← requireOwnedVersion principal voiceProfileId version s
  if row.lockState = .locked then .ok s
  else if row.approvalState ∉ productionApprovalStates then
    .error (.conflict "INVALID_STATE_TRANSITION" "Only an APPROVED version can be locked.")
  else .ok (s.updateVersion row.id fun v => { v with
    lockState := .locked, lockedAt := some now, lockedReason := some reason })

def retireVoiceProfileVersion (principal : Principal) (voiceProfileId : Id) (version : ℕ)
    (now : ℕ) (s : Registry) : Except VoiceError Registry := do
  let row ← requireOwnedVersion principal voiceProfileId version s
  if s.assignments.any fun a => a.voiceProfileVersionId = row.id ∧ a.isActive then
    .error (.conflict "VOICE_PROFILE_IN_USE"
      "This version has an active character assignment and cannot be retired.")
  else .ok (s.updateVersion row.id fun v => { v with
    approvalState := .retired, retiredAt := some now })

/-- The statement of `begin_tts_job` that locks the version a synthesis uses. -/
def beginTtsJob (voiceProfileVersionId : Id) (now : ℕ) (s : Registry) : Registry :=
  { s with
    versions := updateWhere (fun v => decide (v.id = voiceProfileVersionId ∧
        v.lockState = .unlocked ∧ v.approvalState ∈ productionApprovalStates))
      (fun v => { v with
        lockState := .locked, lockedAt := some now, lockedReason := some .usedInGeneration })
      s.versions }

/-- `mark_voice_preview_ready` and `mark_voice_preview_failed`. -/
def markVoicePreview (previewId : Id) (status : VoicePreviewStatus) (s : Registry) : Registry :=
  { s with previews := updateWhere (fun p => decide (p.id = previewId))
                          (fun p => { p with status }) s.previews }

/-! ## Sequences of operations -/

/-- An operation on the registry, or a change of the rows that operations read. -/
inductive VoiceOp
  | createVersion (principal : Principal) (voiceProfileId newId ttsModelVersionId : Id)
      (baseGenerationParamsHash identityFingerprint : Hash)
  | createPreviews (principal : Principal) (voiceProfileId : Id) (version : ℕ)
      (bookId : Option Id) (previewIds : List Id)
  | approve (principal : Principal) (voiceProfileId : Id) (version : ℕ) (approved : Bool) (now : ℕ)
  | lock (principal : Principal) (voiceProfileId : Id) (version : ℕ) (reason : VoiceLockReason)
      (now : ℕ)
  | retire (principal : Principal) (voiceProfileId : Id) (version : ℕ) (now : ℕ)
  | freeze (voiceProfileVersionId : Id) (now : ℕ)
  /-- The GPU worker has rendered a preview, or failed to, or a sweep has expired it. -/
  | renderPreview (previewId : Id) (status : VoicePreviewStatus)
  | cast (assignments : List VoiceAssignment)
  | change (profiles : List VoiceProfile) (books : List (Id × Id))

def VoiceOp.run : VoiceOp → Registry → Except VoiceError Registry
  | .createVersion principal voiceProfileId newId model params fingerprint, s =>
    createVoiceProfileVersion principal voiceProfileId newId model params fingerprint s
  | .createPreviews principal voiceProfileId version bookId previewIds, s =>
    createVoicePreviews principal voiceProfileId version bookId previewIds s
  | .approve principal voiceProfileId version approved now, s =>
    approveVoiceProfileVersion principal voiceProfileId version approved now s
  | .lock principal voiceProfileId version reason now, s =>
    lockVoiceProfileVersion principal voiceProfileId version reason now s
  | .retire principal voiceProfileId version now, s =>
    retireVoiceProfileVersion principal voiceProfileId version now s
  | .freeze versionId now, s => .ok (beginTtsJob versionId now s)
  | .renderPreview previewId status, s => .ok (markVoicePreview previewId status s)
  | .cast assignments, s => .ok { s with assignments }
  | .change profiles books, s => .ok { s with profiles, books }

/-- Operations one after the other, from a registry without versions. A refused request changes
nothing. -/
def voiceMachine : Machine Registry VoiceOp where
  init s := s.versions = []
  step op s := match op.run s with
    | .ok s' => some s'
    | .error _ => some s

/-- The operation approves a version that is `RETIRED`. -/
def ApprovesRetired (op : VoiceOp) (s : Registry) : Prop :=
  match op with
  | .approve principal voiceProfileId version true _ =>
    ∃ row, requireOwnedVersion principal voiceProfileId version s = .ok row ∧
      row.approvalState = .retired ∧ s.hasReadyPreview row.id
  | _ => False

/-! ## What an operation does to a row -/

/-- What an operation makes of a version's row. -/
inductive Transition (v : VoiceProfileVersion) : VoiceProfileVersion → Prop
  | reject : v.approvalState = .previewGenerated → Transition v { v with approvalState := .draft }
  | approve (user : Id) (now : ℕ) :
      v.approvalState ∉ productionApprovalStates → v.approvalState ≠ .retired →
        Transition v { v with
          approvalState := .approved, approvedByUserId := some user, approvedAt := some now }
  | lock (reason : VoiceLockReason) (now : ℕ) :
      v.lockState = .unlocked → v.approvalState ∈ productionApprovalStates →
        Transition v { v with
          lockState := .locked, lockedAt := some now, lockedReason := some reason }
  | retire (now : ℕ) : Transition v { v with approvalState := .retired, retiredAt := some now }

/-- A row is kept or makes a transition. -/
def Evolves (v v' : VoiceProfileVersion) : Prop := v' = v ∨ Transition v v'

theorem Evolves.id_eq {v v' : VoiceProfileVersion} (h : Evolves v v') : v'.id = v.id := by
  rcases h with rfl | h
  · rfl
  · cases h <;> rfl

/-- No two versions have the same id. -/
def Registry.VersionIds (s : Registry) : Prop := (s.versions.map VoiceProfileVersion.id).Nodup

/-- Every row evolves, and what is new is not locked. -/
structure Registry.Evolves (s s' : Registry) : Prop where
  ids : s'.VersionIds
  rows : ∀ v ∈ s.versions, ∃ v' ∈ s'.versions, VoiceLifecycle.Evolves v v'
  origin : ∀ v' ∈ s'.versions,
    v'.lockState = .unlocked ∨ ∃ v ∈ s.versions, VoiceLifecycle.Evolves v v'

variable {s s' : Registry}

theorem Registry.Evolves.of_versions_eq (hids : s.VersionIds) (h : s'.versions = s.versions) :
    s.Evolves s' where
  ids := by rwa [VersionIds, h]
  rows v hv := ⟨v, h ▸ hv, .inl rfl⟩
  origin v' hv' := .inr ⟨v', h ▸ hv', .inl rfl⟩

theorem Registry.Evolves.of_updateWhere {p : VoiceProfileVersion → Bool}
    {f : VoiceProfileVersion → VoiceProfileVersion} (hids : s.VersionIds)
    (h : s'.versions = updateWhere p f s.versions) (hf : ∀ v ∈ s.versions, p v → Transition v (f v)) :
    s.Evolves s' := by
  have hrow : ∀ v ∈ s.versions, VoiceLifecycle.Evolves v (if p v then f v else v) := by
    intro v hv
    split
    · next hp => exact .inr (hf v hv hp)
    · exact .inl rfl
  refine ⟨?_, fun v hv => ⟨_, h ▸ List.mem_map_of_mem hv, hrow v hv⟩, fun v' hv' => .inr ?_⟩
  · have hmap : s'.versions.map VoiceProfileVersion.id = s.versions.map VoiceProfileVersion.id := by
      rw [h, updateWhere, List.map_map]
      exact List.map_congr_left fun v hv => (hrow v hv).id_eq
    rwa [VersionIds, hmap]
  · rw [h, updateWhere] at hv'
    obtain ⟨v, hv, rfl⟩ := List.mem_map.mp hv'
    exact ⟨v, hv, hrow v hv⟩

variable {row : VoiceProfileVersion}

theorem eq_of_id_eq (hids : s.VersionIds) {v : VoiceProfileVersion} (hv : v ∈ s.versions)
    (hrow : row ∈ s.versions) (hid : v.id = row.id) : v = row :=
  List.inj_on_of_nodup_map hids hv hrow hid

theorem Registry.Evolves.of_updateVersion {f : VoiceProfileVersion → VoiceProfileVersion}
    (hids : s.VersionIds) (hrow : row ∈ s.versions)
    (h : s'.versions = (s.updateVersion row.id f).versions) (hf : Transition row (f row)) :
    s.Evolves s' := by
  refine .of_updateWhere hids h fun v hv hid => ?_
  rwa [eq_of_id_eq hids hv hrow (of_decide_eq_true hid)]

theorem mem_of_requireOwnedVersion {principal : Principal} {voiceProfileId : Id} {version : ℕ}
    (h : requireOwnedVersion principal voiceProfileId version s = .ok row) : row ∈ s.versions := by
  obtain ⟨-, -, h⟩ := except_bind_eq_ok_iff.mp h
  split at h
  · cases h
  · next hfind =>
    cases h
    exact List.mem_of_find?_eq_some hfind

theorem step_version {op : VoiceOp} (hids : s.VersionIds) (hop : ¬ ApprovesRetired op s)
    (h : op.run s = .ok s') : s.Evolves s' := by
  cases op with
  | createVersion principal voiceProfileId newId model params fingerprint =>
    obtain ⟨profile, -, h⟩ := except_bind_eq_ok_iff.mp h
    dsimp only at h
    split at h
    · cases h
    · next hfresh =>
      cases h
      refine ⟨?_, fun v hv => ⟨v, List.mem_append_left _ hv, .inl rfl⟩, fun v' hv' => ?_⟩
      · -- The new id is none of the ids that are taken.
        rw [Registry.VersionIds, List.map_append, List.map_singleton, List.nodup_append]
        refine ⟨hids, List.nodup_singleton _, fun i hi j hj heq => hfresh ?_⟩
        obtain ⟨v, hv, rfl⟩ := List.mem_map.mp hi
        obtain rfl := List.mem_singleton.mp hj
        exact List.any_eq_true.mpr ⟨v, hv, decide_eq_true (.inl heq)⟩
      · rcases List.mem_append.mp hv' with hv' | hv'
        · exact .inr ⟨v', hv', .inl rfl⟩
        · obtain rfl := List.mem_singleton.mp hv'
          exact .inl rfl
  | createPreviews principal voiceProfileId version bookId previewIds =>
    obtain ⟨row, -, h⟩ := except_bind_eq_ok_iff.mp h
    split at h
    · cases h
    · split at h
      · cases h
      · cases h
        exact .of_versions_eq hids rfl
  | approve principal voiceProfileId version approved now =>
    obtain ⟨row, hrow, hbody⟩ := except_bind_eq_ok_iff.mp h
    have hmem := mem_of_requireOwnedVersion hrow
    split at hbody
    · -- A rejection.
      split at hbody
      · cases hbody
      · next hstate =>
        cases hbody
        exact .of_updateVersion hids hmem rfl (.reject (not_not.mp hstate))
    · next happroved =>
      obtain rfl : approved = true := by simpa using happroved
      split at hbody
      · cases hbody
        exact .of_versions_eq hids rfl
      · next hstate =>
        split at hbody
        · cases hbody
        · next hpreview =>
          cases hbody
          refine .of_updateVersion hids hmem rfl (.approve principal.sub now hstate ?_)
          intro hretired
          refine hop ⟨row, hrow, hretired, ?_⟩
          -- A `RETIRED` version passes the guard with a `READY` preview only.
          by_contra hnone
          exact hpreview ⟨by simp [hretired], hnone⟩
  | lock principal voiceProfileId version reason now =>
    obtain ⟨row, hrow, h⟩ := except_bind_eq_ok_iff.mp h
    have hmem := mem_of_requireOwnedVersion hrow
    split at h
    · cases h
      exact .of_versions_eq hids rfl
    · next hlock =>
      split at h
      · cases h
      · next hstate =>
        cases h
        refine .of_updateVersion hids hmem rfl (.lock reason now ?_ (not_not.mp hstate))
        cases hstate' : row.lockState with
        | unlocked => rfl
        | locked => exact absurd hstate' hlock
  | retire principal voiceProfileId version now =>
    obtain ⟨row, hrow, h⟩ := except_bind_eq_ok_iff.mp h
    have hmem := mem_of_requireOwnedVersion hrow
    split at h
    · cases h
    · cases h
      exact .of_updateVersion hids hmem rfl (.retire now)
  | freeze versionId now =>
    cases h
    refine .of_updateWhere hids rfl fun v _ hp => ?_
    obtain ⟨-, hlock, hstate⟩ := of_decide_eq_true hp
    exact .lock .usedInGeneration now hlock hstate
  | renderPreview previewId status =>
    cases h
    exact .of_versions_eq hids rfl
  | cast assignments =>
    cases h
    exact .of_versions_eq hids rfl
  | change profiles books =>
    cases h
    exact .of_versions_eq hids rfl

/-! ## The lifecycle -/

/-- The operations of a history in which no `RETIRED` version is approved again. -/
def KeepsRetired (op : VoiceOp) (s : Registry) : Prop := ¬ ApprovesRetired op s

/-- Ids are unique, and what is locked has been approved. -/
structure Registry.WellFormed (s : Registry) : Prop where
  ids : s.VersionIds
  locked : ∀ v ∈ s.versions, v.lockState = .locked →
    v.approvalState ∈ productionApprovalStates ∨ v.approvalState = .retired

theorem Transition.of_retired {v v' : VoiceProfileVersion} (h : Transition v v')
    (hv : v.approvalState = .retired) :
    ∃ retiredAt, v' = { v with approvalState := .retired, retiredAt } := by
  cases h with
  | reject hstate => simp [hv] at hstate
  | approve user now _ hstate => exact absurd hv hstate
  | lock reason now _ hstate => simp [hv, productionApprovalStates] at hstate
  | retire now => exact ⟨some now, rfl⟩

theorem Transition.of_locked {v v' : VoiceProfileVersion} (h : Transition v v')
    (hv : v.lockState = .locked)
    (hstate : v.approvalState ∈ productionApprovalStates ∨ v.approvalState = .retired) :
    ∃ retiredAt, v' = { v with approvalState := .retired, retiredAt } := by
  cases h with
  | reject hpreview => simp [hpreview, productionApprovalStates] at hstate
  | approve user now hnot hretired => exact absurd hstate (by tauto)
  | lock reason now hunlocked _ => simp [hv] at hunlocked
  | retire now => exact ⟨some now, rfl⟩

theorem Transition.locked_approved {v v' : VoiceProfileVersion} (h : Transition v v')
    (hv : v.lockState = .locked →
      v.approvalState ∈ productionApprovalStates ∨ v.approvalState = .retired)
    (hv' : v'.lockState = .locked) :
    v'.approvalState ∈ productionApprovalStates ∨ v'.approvalState = .retired := by
  cases h with
  | reject hpreview => simpa [hpreview, productionApprovalStates] using hv hv'
  | approve user now _ _ => exact .inl (List.mem_cons_self ..)
  | lock reason now _ hstate => exact .inl hstate
  | retire now => exact .inr rfl

theorem wellFormed_step {op : VoiceOp} (hs : s.WellFormed) (hop : KeepsRetired op s)
    (h : voiceMachine.step op s = some s') : s'.WellFormed ∧ s.Evolves s' := by
  simp only [voiceMachine] at h
  split at h
  · next s₁ hrun =>
    cases h
    have hstep := step_version hs.ids hop hrun
    refine ⟨⟨hstep.ids, fun v' hv' hlocked => ?_⟩, hstep⟩
    rcases hstep.origin v' hv' with hnew | ⟨v, hv, rfl | htransition⟩
    · simp [hnew] at hlocked
    · exact hs.locked v' hv hlocked
    · exact htransition.locked_approved (hs.locked v hv) hlocked
  · cases h
    exact ⟨hs, .of_versions_eq hs.ids rfl⟩

theorem wellFormed_of_reachable (hs : voiceMachine.Reachable KeepsRetired s) : s.WellFormed := by
  refine hs.invariant (fun s hinit => ?_) fun op s s' hs hop h => (wellFormed_step hs hop h).1
  have hempty : s.versions = [] := hinit
  exact ⟨by simp [Registry.VersionIds, hempty], by simp [hempty]⟩

/-- What a later state may show of a version: nothing new of a `RETIRED` one but a later
retirement, and of a `LOCKED` one no more than that it has been retired. -/
structure Settled (v v' : VoiceProfileVersion) : Prop where
  retired : v.approvalState = .retired → ∃ retiredAt, v' = { v with retiredAt }
  locked : v.lockState = .locked →
    v' = v ∨ ∃ retiredAt, v' = { v with approvalState := .retired, retiredAt }

theorem Settled.evolves {v v₁ v₂ : VoiceProfileVersion} (h : Settled v v₁)
    (hv₁ : v₁.lockState = .locked →
      v₁.approvalState ∈ productionApprovalStates ∨ v₁.approvalState = .retired)
    (hrow : Evolves v₁ v₂) : Settled v v₂ := by
  rcases hrow with rfl | htransition
  · exact h
  constructor
  · intro hretired
    obtain ⟨retiredAt₁, rfl⟩ := h.retired hretired
    obtain ⟨retiredAt, rfl⟩ := htransition.of_retired hretired
    exact ⟨retiredAt, by rw [hretired]⟩
  · intro hlocked
    right
    rcases h.locked hlocked with rfl | ⟨retiredAt₁, rfl⟩
    · exact htransition.of_locked hlocked (hv₁ hlocked)
    · exact htransition.of_locked hlocked (.inr rfl)

/-- **The lifecycle of a voice version.** In every history in which no `RETIRED` version is approved
again, a version that is `RETIRED` stays `RETIRED`, and one that has been `LOCKED` stays locked,
with the same lock, approval and identity: it changes at most by being retired. -/
theorem version_lifecycle {s s' : Registry} (hs : voiceMachine.Reachable KeepsRetired s)
    (hrun : voiceMachine.Run KeepsRetired s s') {v : VoiceProfileVersion} (hv : v ∈ s.versions) :
    ∃ v' ∈ s'.versions, v'.id = v.id ∧ Settled v v' := by
  have hinv : s'.WellFormed ∧ ∃ v' ∈ s'.versions, v'.id = v.id ∧ Settled v v' := by
    refine Machine.Run.invariant
      (P := fun s' => s'.WellFormed ∧ ∃ v' ∈ s'.versions, v'.id = v.id ∧ Settled v v') ?_ hrun
      ⟨wellFormed_of_reachable hs, v, hv, rfl, fun _ => ⟨v.retiredAt, rfl⟩, fun _ => .inl rfl⟩
    rintro op s₁ s₂ ⟨hs₁, v₁, hv₁, hid, hsettled⟩ hop hstep
    obtain ⟨hs₂, hevolves⟩ := wellFormed_step hs₁ hop hstep
    obtain ⟨v₂, hv₂, hrow⟩ := hevolves.rows v₁ hv₁
    exact ⟨hs₂, v₂, hv₂, hrow.id_eq.trans hid, hsettled.evolves (hs₁.locked v₁ hv₁) hrow⟩
  exact hinv.2

/-! ## Histories -/

instance (op : VoiceOp) (s : Registry) : Decidable (ApprovesRetired op s) :=
  match op with
  | .approve principal voiceProfileId version true _ =>
    match h : requireOwnedVersion principal voiceProfileId version s with
    | .error _ => isFalse (by rintro ⟨row, hrow, -⟩; simp [h] at hrow)
    | .ok row => decidable_of_iff (row.approvalState = .retired ∧ s.hasReadyPreview row.id)
        ⟨fun hr => ⟨row, h, hr⟩, by rintro ⟨row', hrow', hr⟩; cases h.symm.trans hrow'; exact hr⟩
  | .approve _ _ _ false _ | .createVersion .. | .createPreviews .. | .lock .. | .retire ..
  | .freeze .. | .renderPreview .. | .cast .. | .change .. => isFalse id

instance (op : VoiceOp) (s : Registry) : Decidable (KeepsRetired op s) :=
  inferInstanceAs (Decidable (¬ _))

def narratorProfile : VoiceProfile := { id := 1, isSystem := false, tenantId := some 1 }

/-- A user of tenant 1. -/
def castingDirector : Principal := { sub := 2, tenantId := 1 }

/-- A version is created, previewed, approved and locked. -/
def lockVersion : List VoiceOp :=
  [.change [narratorProfile] [(5, 1)], .createVersion castingDirector 1 7 3 0 0,
    .createPreviews castingDirector 1 1 (some 5) [9], .renderPreview 9 .ready,
    .approve castingDirector 1 1 true 10, .lock castingDirector 1 1 .userLocked 20]

def lockedVersion : VoiceProfileVersion :=
  { id := 7, tenantId := 1, voiceProfileId := 1, version := 1, ttsModelVersionId := 3,
    baseGenerationParamsHash := 0, identityFingerprint := 0, approvalState := .approved,
    approvedByUserId := some 2, approvedAt := some 10, lockState := .locked, lockedAt := some 20,
    lockedReason := some .userLocked }

def lockedRegistry : Registry :=
  { profiles := [{ narratorProfile with
      activeVersionId := some 7, activeVersionNumber := some 1, versionCount := 1 }]
    versions := [lockedVersion]
    previews := [⟨9, 1, 7, 5, .ready, 3, 0⟩]
    books := [(5, 1)] }

theorem run_lockVersion : voiceMachine.Run KeepsRetired {} lockedRegistry := by
  have hreplay : voiceMachine.replay KeepsRetired lockVersion {} = some lockedRegistry := by
    decide +kernel
  exact Machine.run_of_replay hreplay

/-- A locked version is retired, and shows nothing else that is new. -/
theorem version_lifecycle_lockVersion :
    ∃ s', voiceMachine.Run KeepsRetired lockedRegistry s' ∧
      ∃ v' ∈ s'.versions, v'.approvalState = .retired ∧ v'.id = 7 ∧ Settled lockedVersion v' := by
  have hs : voiceMachine.Reachable KeepsRetired lockedRegistry := ⟨{}, rfl, run_lockVersion⟩
  obtain ⟨s', hrun, hstates⟩ := Machine.exists_run_of_replay (s := lockedRegistry)
    (f := fun s => s.versions.map VoiceProfileVersion.approvalState)
    (show (voiceMachine.replay KeepsRetired [.retire castingDirector 1 1 30] _).map _ =
      some [.retired] by decide +kernel)
  obtain ⟨v', hv', hid, hsettled⟩ := version_lifecycle hs hrun (List.mem_singleton_self _)
  have hstate : v'.approvalState ∈ s'.versions.map VoiceProfileVersion.approvalState :=
    List.mem_map_of_mem hv'
  rw [hstates, List.mem_singleton] at hstate
  exact ⟨s', hrun, v', hv', hstate, hid, hsettled⟩

/-- A version that is locked does change again: it can be retired. -/
theorem not_forall_locked_unchanged :
    ¬ ∀ s s', voiceMachine.Reachable Machine.anyEvent s →
        voiceMachine.Run Machine.anyEvent s s' → ∀ v ∈ s.versions,
          (v.approvalState = .retired → ∃ v' ∈ s'.versions, v'.id = v.id ∧
            v'.approvalState = .retired) ∧
          (v.lockState = .locked → v ∈ s'.versions) := by
  intro h
  have hreplay : voiceMachine.replay Machine.anyEvent lockVersion {} = some lockedRegistry := by
    decide +kernel
  have hs : voiceMachine.Run Machine.anyEvent {} lockedRegistry := Machine.run_of_replay hreplay
  obtain ⟨s', hrun, hstates⟩ := Machine.exists_run_of_replay (s := lockedRegistry)
    (f := fun s => decide (lockedVersion ∈ s.versions))
    (show (voiceMachine.replay Machine.anyEvent [.retire castingDirector 1 1 30] _).map _ =
      some false by decide +kernel)
  have hkept := (h _ s' ⟨{}, rfl, hs⟩ hrun lockedVersion (List.mem_singleton_self _)).2 rfl
  simp [hkept] at hstates

end AudioBook.VoiceLifecycle
