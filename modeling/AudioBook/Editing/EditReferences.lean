import AudioBook.Editing.ChunkEdits

/-!
# The References of an Edited Chunk

A `PATCH` names a character, a voice profile and a voice version by their ids. The service looks the
version up without its tenant and connects all three by id, so what a request comes to can depend on
rows that its tenant cannot see.

- `Agree`: two states with the same rows of a tenant.
- `Confined`: the references after a request are known ones, and its outcome does not depend on the
  rows of other tenants.
- `StaysWithin`: the ids that the request comes to look up are the tenant's affair.

## Main results

* `confined_iff`: a request is confined exactly when it stays within what the tenant sees.
-/

namespace AudioBook.ChunkEdits

open Function (update update_self update_of_ne)

/-! ## What a Tenant Sees -/

/-- The book is one of the tenant's. -/
def EditState.TenantBook (s : EditState) (tenantId bookId : Id) : Prop :=
  ∃ book, s.books bookId = some book ∧ book.tenantId = tenantId

/-- The profile is one of the tenant's, or of the system. -/
def VoiceProfile.VisibleTo (tenantId : Id) (profile : VoiceProfile) : Prop :=
  profile.isSystem = true ∨ profile.tenantId = some tenantId

def EditState.SeesCharacter (s : EditState) (tenantId id : Id) : Prop :=
  ∃ character, s.characters id = some character ∧ character.tenantId = tenantId

def EditState.SeesProfile (s : EditState) (tenantId id : Id) : Prop :=
  ∃ profile, s.voiceProfiles id = some profile ∧ profile.VisibleTo tenantId

/-- The id is that of a version of a profile that the tenant sees. -/
def EditState.SeesVersion (s : EditState) (tenantId id : Id) : Prop :=
  ∃ version, s.voiceProfileVersions id = some version ∧
    s.SeesProfile tenantId version.voiceProfileId

/-- A chunk of the tenant's refers to the id. -/
def EditState.Holds (s : EditState) (tenantId : Id) (ref : AudioScriptChunk → Option Id)
    (id : Id) : Prop :=
  ∃ chunkId c, s.chunks chunkId = some c ∧ s.TenantBook tenantId c.bookId ∧ ref c = some id

/-- What the foreign keys promise, and that there are always ids without a row. -/
structure EditState.WellFormed (s : EditState) : Prop where
  characters : ∀ chunkId c, s.chunks chunkId = some c → ∀ id, c.characterId = some id →
    (s.characters id).isSome
  profiles : ∀ chunkId c, s.chunks chunkId = some c → ∀ id, c.voiceProfileId = some id →
    (s.voiceProfiles id).isSome
  versions : ∀ chunkId c, s.chunks chunkId = some c → ∀ id, c.voiceProfileVersionId = some id →
    (s.voiceProfileVersions id).isSome
  characterBooks : ∀ id character, s.characters id = some character →
    ∃ book, s.books character.bookId = some book ∧ book.tenantId = character.tenantId
  versionProfiles : ∀ id version, s.voiceProfileVersions id = some version →
    (s.voiceProfiles version.voiceProfileId).isSome
  freeBooks : ∀ n, ∃ id > n, s.books id = none
  freeProfiles : ∀ n, ∃ id > n, s.voiceProfiles id = none

/-- The two states have the same rows of the tenant. -/
structure Agree (tenantId : Id) (s s' : EditState) : Prop where
  books : ∀ id book, book.tenantId = tenantId → (s.books id = some book ↔ s'.books id = some book)
  chunks : ∀ id c, s.TenantBook tenantId c.bookId → (s.chunks id = some c ↔ s'.chunks id = some c)
  characters : ∀ id character, character.tenantId = tenantId →
    (s.characters id = some character ↔ s'.characters id = some character)
  profiles : ∀ id profile, profile.VisibleTo tenantId →
    (s.voiceProfiles id = some profile ↔ s'.voiceProfiles id = some profile)
  versions : ∀ id version, s.SeesProfile tenantId version.voiceProfileId →
    (s.voiceProfileVersions id = some version ↔ s'.voiceProfileVersions id = some version)
  rendered : ∀ id c, s.chunks id = some c → s.TenantBook tenantId c.bookId →
    s'.rendered id = s.rendered id

/-! ## Confinement -/

/-- What the tenant learns of a request: its error, or the chunk after it. -/
def PatchRequest.outcome (r : PatchRequest) (s : EditState) :
    Except PatchError (Option AudioScriptChunk) :=
  (updateAudioScriptChunk r s).map fun s' => s'.chunks r.chunkId

/-- The character was referenced by the chunk, is of its book, or is seen by the tenant. -/
def AllowedCharacter (tenantId : Id) (s : EditState) (c : AudioScriptChunk) (id : Id) : Prop :=
  c.characterId = some id ∨
    (∃ character, s.characters id = some character ∧ character.bookId = c.bookId) ∨
      s.SeesCharacter tenantId id

/-- The profile was referenced by the chunk, or is seen by the tenant. -/
def AllowedProfile (tenantId : Id) (s : EditState) (c : AudioScriptChunk) (id : Id) : Prop :=
  c.voiceProfileId = some id ∨ s.SeesProfile tenantId id

/-- The version was referenced by the chunk, or is seen by the tenant. -/
def AllowedVersion (tenantId : Id) (s : EditState) (c : AudioScriptChunk) (id : Id) : Prop :=
  c.voiceProfileVersionId = some id ∨ s.SeesVersion tenantId id

/-- Every reference of `c'`, the chunk after a request, was one of `c` or is allowed. -/
structure RefersWithin (tenantId : Id) (s : EditState) (c c' : AudioScriptChunk) : Prop where
  character : ∀ id, c'.characterId = some id → AllowedCharacter tenantId s c id
  profile : ∀ id, c'.voiceProfileId = some id → AllowedProfile tenantId s c id
  version : ∀ id, c'.voiceProfileVersionId = some id → AllowedVersion tenantId s c id

/-- A request cannot reach across tenants or books. -/
structure Confined (r : PatchRequest) (s : EditState) : Prop where
  references : ∀ s' c c', updateAudioScriptChunk r s = .ok s' → s.chunks r.chunkId = some c →
    s'.chunks r.chunkId = some c' → RefersWithin r.tenantId s c c'
  independent : ∀ s', s'.WellFormed → Agree r.tenantId s s' → r.outcome s' = r.outcome s

/-- With the body's values written, the chunk meets the constraints of its table, and the audio
chunks keep their characters. -/
def PatchRequest.Fits (r : PatchRequest) (s : EditState) (c : AudioScriptChunk) : Prop :=
  ((r.body.write c.toChunkContent).speakerType = .character →
      (r.body.write c.toChunkContent).characterId ≠ none) ∧
    (c.text ≠ "" ∨ (r.body.write c.toChunkContent).nonVerbal ≠ none) ∧
      ∀ id ∈ s.rendered r.chunkId, (r.body.write c.toChunkContent).characterId = some id

/-- Whether the id exists does not depend on other tenants: it is seen, or a chunk of the tenant's
refers to it. -/
def Anchored (tenantId : Id) (s : EditState) (sees : Id → Prop)
    (ref : AudioScriptChunk → Option Id) (id : Id) : Prop :=
  sees id ∨ s.Holds tenantId ref id

/-- The connected records are the tenant's own affair: they are there whatever other tenants do, and
where the edit goes through they are allowed. -/
structure ConnectsWithin (r : PatchRequest) (s : EditState) (c : AudioScriptChunk) : Prop where
  character : ∀ id, r.body.characterId = some id →
    Anchored r.tenantId s (s.SeesCharacter r.tenantId) (fun c => c.characterId) id ∧
      (r.Fits s c → AllowedCharacter r.tenantId s c id)
  profile : ∀ id, r.body.voiceProfileId = some id →
    Anchored r.tenantId s (s.SeesProfile r.tenantId) (fun c => c.voiceProfileId) id ∧
      (r.Fits s c → AllowedProfile r.tenantId s c id)

/-- The request is refused before it looks an id up, or it looks up a version that the tenant sees
and is refused for it, or connects records within what the tenant sees. -/
def StaysWithin (r : PatchRequest) (s : EditState) : Prop :=
  ∀ c, requireChunk r s = .ok c → c.state ≠ .locked →
    (∀ id, r.body.voiceProfileVersionId = some id → s.SeesVersion r.tenantId id) ∧
      (checkVoiceBinding r.body s = .ok () → ConnectsWithin r s c)

/-! ## What a Request Comes To -/

section Outcomes

variable {r : PatchRequest} {s s' : EditState} {c : AudioScriptChunk}

theorem outcome_of_requireChunk_error {e : PatchError} (h : requireChunk r s = .error e) :
    r.outcome s = .error e := by
  rw [PatchRequest.outcome, updateAudioScriptChunk, h]
  rfl

theorem outcome_of_locked (hchunk : requireChunk r s = .ok c) (hstate : c.state = .locked) :
    r.outcome s = .error (.conflict "AUDIO_SCRIPT_CHUNK_FROZEN"
      ("This chunk is LOCKED (already used for generation) and cannot be edited in place. " ++
        "Request a new chunk version via revise-director instead.")) := by
  rw [PatchRequest.outcome, updateAudioScriptChunk, hchunk]
  show Except.map _ (if c.state = .locked then _ else _) = _
  rw [if_pos hstate]
  rfl

theorem outcome_of_voice_error {e : PatchError} (hchunk : requireChunk r s = .ok c)
    (hstate : c.state ≠ .locked) (hvoice : checkVoiceBinding r.body s = .error e) :
    r.outcome s = .error e := by
  rw [PatchRequest.outcome, updateAudioScriptChunk, hchunk]
  show Except.map _ (if c.state = .locked then _ else _) = _
  rw [if_neg hstate, hvoice]
  rfl

theorem update_of_checked (hchunk : requireChunk r s = .ok c) (hstate : c.state ≠ .locked)
    (hvoice : checkVoiceBinding r.body s = .ok ()) :
    updateAudioScriptChunk r s = updateChunk r c s := by
  rw [updateAudioScriptChunk, hchunk]
  show (if c.state = .locked then _ else _) = _
  rw [if_neg hstate, hvoice]
  rfl

theorem meetsChecks_editedChunk (c : AudioScriptChunk) (body : UpdateAudioScriptChunkBody)
    (sub : Id) (now : ℕ) :
    (editedChunk c body sub now).meetsChecks ↔
      ((body.write c.toChunkContent).speakerType = .character →
          (body.write c.toChunkContent).characterId ≠ none) ∧
        (c.text ≠ "" ∨ (body.write c.toChunkContent).nonVerbal ≠ none) := by
  simp [AudioScriptChunk.meetsChecks, editedChunk]

theorem updateChunk_eq_ok_iff :
    updateChunk r c s = .ok s' ↔
      connects r.body s ∧ r.Fits s c ∧
        s' = { s with
          chunks := update s.chunks r.chunkId (some (editedChunk c r.body r.sub r.now)) } := by
  rw [updateChunk, PatchRequest.Fits, ← and_assoc (b := _ ∨ _),
    ← meetsChecks_editedChunk c r.body r.sub r.now]
  by_cases hconnects : connects r.body s
  · by_cases hchecks : (editedChunk c r.body r.sub r.now).meetsChecks
    · simp only [hconnects, hchecks, not_true, if_false]
      split
      · next hkept =>
        obtain ⟨id, hid, hne⟩ := hkept
        simp only [reduceCtorEq, true_and, false_iff]
        exact fun h => hne (h.1 id hid)
      · next hkept =>
        push Not at hkept
        rw [Except.ok.injEq, eq_comm]
        exact ⟨fun h => ⟨trivial, ⟨trivial, hkept⟩, h⟩, fun h => h.2.2⟩
    · simp [hconnects, hchecks]
  · simp [hconnects]

end Outcomes

/-! ## What the Tenant's Rows Decide -/

section Agreement

variable {tenantId : Id} {s s' : EditState}

theorem Agree.tenantBook_iff (h : Agree tenantId s s') (bookId : Id) :
    s.TenantBook tenantId bookId ↔ s'.TenantBook tenantId bookId := by
  refine exists_congr fun book => and_congr_left fun htenant => ?_
  exact h.books bookId book htenant

variable {id : Id}

theorem Agree.seesCharacter (h : Agree tenantId s s') (hid : s.SeesCharacter tenantId id) :
    s'.SeesCharacter tenantId id := by
  obtain ⟨character, hcharacter, htenant⟩ := hid
  exact ⟨character, (h.characters id character htenant).mp hcharacter, htenant⟩

theorem Agree.seesProfile (h : Agree tenantId s s') (hid : s.SeesProfile tenantId id) :
    s'.SeesProfile tenantId id := by
  obtain ⟨profile, hprofile, hvisible⟩ := hid
  exact ⟨profile, (h.profiles id profile hvisible).mp hprofile, hvisible⟩

theorem Agree.holds (h : Agree tenantId s s') {ref : AudioScriptChunk → Option Id}
    (hid : s.Holds tenantId ref id) : s'.Holds tenantId ref id := by
  obtain ⟨chunkId, c, hc, hbook, href⟩ := hid
  exact ⟨chunkId, c, (h.chunks chunkId c hbook).mp hc, (h.tenantBook_iff _).mp hbook, href⟩

theorem Agree.version_eq (h : Agree tenantId s s') (hid : s.SeesVersion tenantId id) :
    s'.voiceProfileVersions id = s.voiceProfileVersions id := by
  obtain ⟨version, hversion, hprofile⟩ := hid
  rw [hversion]
  exact (h.versions id version hprofile).mp hversion

variable {r : PatchRequest} {c : AudioScriptChunk}

theorem requireChunk_of_not_tenantBook (h : ¬ s.TenantBook r.tenantId r.bookId) :
    requireChunk r s = .error (.notFound "Book not found.") := by
  rw [requireChunk]
  split
  · rfl
  · next book hbook =>
    rw [if_pos]
    exact fun htenant => h ⟨book, hbook, htenant⟩

theorem requireChunk_of_tenantBook (h : s.TenantBook r.tenantId r.bookId) :
    requireChunk r s =
      match (s.chunks r.chunkId).filter fun c => c.bookId = r.bookId ∧ c.isCurrent with
      | some c => .ok c
      | none => .error (.notFound "Audio Script chunk not found.") := by
  obtain ⟨book, hbook, htenant⟩ := h
  rw [requireChunk, hbook]
  dsimp only
  rw [if_neg (not_not.mpr htenant)]
  cases s.chunks r.chunkId with
  | none => rfl
  | some c =>
    dsimp only
    split
    · next hcurrent => simp [Option.filter, hcurrent]
    · next hcurrent => simp [Option.filter, hcurrent]

theorem Agree.requireChunk_eq (h : Agree r.tenantId s s') :
    requireChunk r s' = requireChunk r s := by
  by_cases hbook : s.TenantBook r.tenantId r.bookId
  · rw [requireChunk_of_tenantBook hbook,
      requireChunk_of_tenantBook ((h.tenantBook_iff _).mp hbook)]
    have hfound : ((s'.chunks r.chunkId).filter fun c => c.bookId = r.bookId ∧ c.isCurrent) =
        (s.chunks r.chunkId).filter fun c => c.bookId = r.bookId ∧ c.isCurrent := by
      ext c
      simp only [Option.filter_eq_some_iff, decide_eq_true_eq]
      refine and_congr_left fun hcurrent => (h.chunks r.chunkId c ?_).symm
      rwa [hcurrent.1]
    rw [hfound]
  · rw [requireChunk_of_not_tenantBook hbook,
      requireChunk_of_not_tenantBook fun hbook' => hbook ((h.tenantBook_iff _).mpr hbook')]

variable {body : UpdateAudioScriptChunkBody}

theorem Agree.checkVoiceBinding_eq (h : Agree tenantId s s')
    (hseen : ∀ id, body.voiceProfileVersionId = some id → s.SeesVersion tenantId id) :
    checkVoiceBinding body s' = checkVoiceBinding body s := by
  rw [checkVoiceBinding, checkVoiceBinding]
  cases hid : body.voiceProfileVersionId with
  | none => rfl
  | some id =>
    dsimp only
    rw [h.version_eq (hseen id hid)]

theorem connects_of_anchored (hs : s.WellFormed)
    (hcharacter : ∀ id, body.characterId = some id →
      Anchored tenantId s (s.SeesCharacter tenantId) (fun c => c.characterId) id)
    (hprofile : ∀ id, body.voiceProfileId = some id →
      Anchored tenantId s (s.SeesProfile tenantId) (fun c => c.voiceProfileId) id)
    (hversion : ∀ id, body.voiceProfileVersionId = some id → s.SeesVersion tenantId id) :
    connects body s := by
  refine ⟨fun id hid => ?_, fun id hid => ?_, fun id hid => ?_⟩
  · rcases hcharacter id hid with ⟨character, hfound, -⟩ | ⟨chunkId, c, hc, -, href⟩
    · rw [hfound]
      rfl
    · exact hs.characters chunkId c hc id href
  · rcases hprofile id hid with ⟨profile, hfound, -⟩ | ⟨chunkId, c, hc, -, href⟩
    · rw [hfound]
      rfl
    · exact hs.profiles chunkId c hc id href
  · obtain ⟨version, hfound, -⟩ := hversion id hid
    rw [hfound]
    rfl

theorem Agree.anchored (h : Agree tenantId s s') {sees sees' : Id → Prop}
    {ref : AudioScriptChunk → Option Id} (hsees : sees id → sees' id)
    (hid : Anchored tenantId s sees ref id) : Anchored tenantId s' sees' ref id :=
  hid.imp hsees h.holds

theorem outcome_congr (hchunk : requireChunk r s = .ok c) (hchunk' : requireChunk r s' = .ok c)
    (hstate : c.state ≠ .locked) (hvoice : checkVoiceBinding r.body s = .ok ())
    (hvoice' : checkVoiceBinding r.body s' = .ok ()) (hconnects : connects r.body s)
    (hconnects' : connects r.body s') (hrendered : s'.rendered r.chunkId = s.rendered r.chunkId) :
    r.outcome s' = r.outcome s := by
  rw [PatchRequest.outcome, PatchRequest.outcome, update_of_checked hchunk hstate hvoice,
    update_of_checked hchunk' hstate hvoice', updateChunk, updateChunk, hrendered]
  simp only [hconnects, hconnects', not_true, if_false]
  split
  · rfl
  · split
    · rfl
    · simp [Except.map]

theorem StaysWithin.independent (h : StaysWithin r s) (hs : s.WellFormed) (hs' : s'.WellFormed)
    (hagree : Agree r.tenantId s s') : r.outcome s' = r.outcome s := by
  have hsame := hagree.requireChunk_eq
  cases hchunk : requireChunk r s with
  | error e =>
    rw [outcome_of_requireChunk_error hchunk,
      outcome_of_requireChunk_error (hsame.trans hchunk)]
  | ok c =>
    have hchunk' := hsame.trans hchunk
    by_cases hstate : c.state = .locked
    · rw [outcome_of_locked hchunk hstate, outcome_of_locked hchunk' hstate]
    · obtain ⟨hseen, hwithin⟩ := h c hchunk hstate
      have hcheck := hagree.checkVoiceBinding_eq hseen
      cases hvoice : checkVoiceBinding r.body s with
      | error e =>
        rw [outcome_of_voice_error hchunk hstate hvoice,
          outcome_of_voice_error hchunk' hstate (hcheck.trans hvoice)]
      | ok _ =>
        have hconnects := hwithin hvoice
        obtain ⟨⟨book, hbook, htenant⟩, hfound, hof, -⟩ := requireChunk_eq_ok_iff.mp hchunk
        refine outcome_congr hchunk hchunk' hstate hvoice (hcheck.trans hvoice) ?_ ?_ ?_
        · exact connects_of_anchored hs (fun id hid => (hconnects.character id hid).1)
            (fun id hid => (hconnects.profile id hid).1) hseen
        · apply connects_of_anchored hs'
          · intro id hid
            exact hagree.anchored hagree.seesCharacter (hconnects.character id hid).1
          · intro id hid
            exact hagree.anchored hagree.seesProfile (hconnects.profile id hid).1
          · intro id hid
            obtain ⟨version, hversion, hprofile⟩ := hseen id hid
            exact ⟨version, (hagree.versions id version hprofile).mp hversion,
              hagree.seesProfile hprofile⟩
        · exact hagree.rendered r.chunkId c hfound ⟨book, hof ▸ hbook, htenant⟩

theorem characterId_write {c : ChunkContent} (h : (body.write c).characterId = some id) :
    body.characterId = some id ∨ c.characterId = some id := by
  rw [UpdateAudioScriptChunkBody.characterId]
  dsimp only [UpdateAudioScriptChunkBody.write] at h
  cases hid : (body.performance.getD {}).characterId with
  | none => exact .inr (by rwa [hid] at h)
  | some named => exact .inl (by rwa [hid] at h)

theorem voiceProfileId_write {c : ChunkContent} (h : (body.write c).voiceProfileId = some id) :
    body.voiceProfileId = some id ∨ c.voiceProfileId = some id := by
  rw [UpdateAudioScriptChunkBody.voiceProfileId]
  dsimp only [UpdateAudioScriptChunkBody.write] at h
  cases hid : (body.voiceBinding.getD {}).voiceProfileId with
  | none => exact .inr (by rwa [hid] at h)
  | some named => exact .inl (by rwa [hid] at h)

theorem voiceProfileVersionId_write {c : ChunkContent}
    (h : (body.write c).voiceProfileVersionId = some id) :
    body.voiceProfileVersionId = some id ∨ c.voiceProfileVersionId = some id := by
  rw [UpdateAudioScriptChunkBody.voiceProfileVersionId]
  dsimp only [UpdateAudioScriptChunkBody.write] at h
  cases hid : (body.voiceBinding.getD {}).voiceProfileVersionId with
  | none => exact .inr (by rwa [hid] at h)
  | some named => exact .inl (by rwa [hid] at h)

theorem StaysWithin.refersWithin (h : StaysWithin r s) {c c' : AudioScriptChunk}
    (hok : updateAudioScriptChunk r s = .ok s') (hc : s.chunks r.chunkId = some c)
    (hc' : s'.chunks r.chunkId = some c') : RefersWithin r.tenantId s c c' := by
  obtain ⟨chunk, hchunk, hstate, hvoice, -, -⟩ := updateAudioScriptChunk_eq_ok hok
  obtain ⟨-, hfound, -⟩ := requireChunk_eq_ok_iff.mp hchunk
  obtain rfl : chunk = c := Option.some.inj (hfound.symm.trans hc)
  rw [update_of_checked hchunk hstate hvoice] at hok
  obtain ⟨-, hfits, rfl⟩ := updateChunk_eq_ok_iff.mp hok
  dsimp only at hc'
  rw [update_self] at hc'
  cases hc'
  obtain ⟨hseen, hwithin⟩ := h chunk hchunk hstate
  have hconnects := hwithin hvoice
  refine ⟨fun id hid => ?_, fun id hid => ?_, fun id hid => ?_⟩
  · rcases characterId_write hid with hnamed | hold
    · exact (hconnects.character id hnamed).2 hfits
    · exact .inl hold
  · rcases voiceProfileId_write hid with hnamed | hold
    · exact (hconnects.profile id hnamed).2 hfits
    · exact .inl hold
  · rcases voiceProfileVersionId_write hid with hnamed | hold
    · exact .inr (hseen id hnamed)
    · exact .inl hold

end Agreement

/-! ## What Other Tenants Can Change -/

section Others

variable {tenantId : Id} {s : EditState}

open Classical in
noncomputable def EditState.ownChunks (s : EditState) (tenantId : Id) :
    Id → Option AudioScriptChunk :=
  fun id => (s.chunks id).filter fun c => s.TenantBook tenantId c.bookId

noncomputable def EditState.withoutCharacter (s : EditState) (tenantId id : Id) : EditState :=
  { s with
    chunks := s.ownChunks tenantId
    characters := update s.characters id none }

/-- The state without the profile, and without the chunks of other tenants; the profile's versions
belong to the profile `free`, which is another tenant's. -/
noncomputable def EditState.withoutProfile (s : EditState) (tenantId id free : Id) : EditState :=
  { s with
    chunks := s.ownChunks tenantId
    voiceProfiles :=
      update (update s.voiceProfiles free (some { tenantId := some (tenantId + 1) })) id none
    voiceProfileVersions := fun v => (s.voiceProfileVersions v).map fun version =>
      if version.voiceProfileId = id then { version with voiceProfileId := free } else version }

/-- The state in which the version is one of the profile `free`, which is another tenant's. -/
def EditState.withVersion (s : EditState) (tenantId id free : Id)
    (approvalState : VoiceApprovalState) : EditState :=
  { s with
    voiceProfiles := update s.voiceProfiles free (some { tenantId := some (tenantId + 1) })
    voiceProfileVersions := update s.voiceProfileVersions id (some ⟨free, approvalState⟩) }

/-- The state in which the character and the profile that the body names are there: another tenant
has those that are missing. -/
def EditState.withNamed (s : EditState) (tenantId free : Id) (body : UpdateAudioScriptChunkBody) :
    EditState :=
  { s with
    books := update s.books free (some ⟨tenantId + 1⟩)
    characters := fun id => s.characters id <|>
      if body.characterId = some id then some ⟨tenantId + 1, free⟩ else none
    voiceProfiles := fun id => s.voiceProfiles id <|>
      if body.voiceProfileId = some id then some { tenantId := some (tenantId + 1) } else none }

theorem EditState.ownChunks_eq_some_iff {id : Id} {c : AudioScriptChunk} :
    s.ownChunks tenantId id = some c ↔ s.chunks id = some c ∧ s.TenantBook tenantId c.bookId := by
  simp [ownChunks, Option.filter_eq_some_iff]

theorem not_visibleTo_succ :
    ¬ VoiceProfile.VisibleTo tenantId { tenantId := some (tenantId + 1) } := by
  rintro (hsystem | htenant)
  · cases hsystem
  · exact absurd (Option.some.inj htenant) (Nat.succ_ne_self tenantId)

theorem agree_withoutCharacter {id : Id} (hid : ¬ s.SeesCharacter tenantId id) :
    Agree tenantId s (s.withoutCharacter tenantId id) where
  books _ _ _ := Iff.rfl
  chunks k c hc := by
    rw [EditState.withoutCharacter, EditState.ownChunks_eq_some_iff, and_iff_left hc]
  characters k character htenant := by
    dsimp only [EditState.withoutCharacter]
    by_cases hk : k = id
    · subst hk
      rw [update_self]
      exact ⟨fun hfound => (hid ⟨character, hfound, htenant⟩).elim, fun hnone => by cases hnone⟩
    · rw [update_of_ne hk]
  profiles _ _ _ := Iff.rfl
  versions _ _ _ := Iff.rfl
  rendered _ _ _ _ := rfl

theorem wellFormed_withoutCharacter (hs : s.WellFormed) {id : Id}
    (hid : ¬ s.Holds tenantId (fun c => c.characterId) id) :
    (s.withoutCharacter tenantId id).WellFormed where
  characters k c hc ref href := by
    obtain ⟨hfound, hbook⟩ := EditState.ownChunks_eq_some_iff.mp hc
    dsimp only [EditState.withoutCharacter]
    rw [update_of_ne]
    · exact hs.characters k c hfound ref href
    · rintro rfl
      exact hid ⟨k, c, hfound, hbook, href⟩
  profiles k c hc := hs.profiles k c (EditState.ownChunks_eq_some_iff.mp hc).1
  versions k c hc := hs.versions k c (EditState.ownChunks_eq_some_iff.mp hc).1
  characterBooks k character hcharacter := by
    dsimp only [EditState.withoutCharacter] at hcharacter
    by_cases hk : k = id
    · subst hk
      rw [update_self] at hcharacter
      cases hcharacter
    · rw [update_of_ne hk] at hcharacter
      exact hs.characterBooks k character hcharacter
  versionProfiles := hs.versionProfiles
  freeBooks := hs.freeBooks
  freeProfiles := hs.freeProfiles

theorem agree_withoutProfile {id free : Id} (hid : ¬ s.SeesProfile tenantId id)
    (hfree : s.voiceProfiles free = none) :
    Agree tenantId s (s.withoutProfile tenantId id free) where
  books _ _ _ := Iff.rfl
  chunks k c hc := by
    rw [EditState.withoutProfile, EditState.ownChunks_eq_some_iff, and_iff_left hc]
  characters _ _ _ := Iff.rfl
  profiles k profile hvisible := by
    dsimp only [EditState.withoutProfile]
    by_cases hk : k = id
    · subst hk
      rw [update_self]
      exact ⟨fun hfound => (hid ⟨profile, hfound, hvisible⟩).elim, fun hnone => by cases hnone⟩
    · rw [update_of_ne hk]
      by_cases hkfree : k = free
      · subst hkfree
        rw [update_self, hfree]
        constructor
        · rintro ⟨⟩
        · rintro ⟨⟩
          exact (not_visibleTo_succ hvisible).elim
      · rw [update_of_ne hkfree]
  versions k version hprofile := by
    dsimp only [EditState.withoutProfile]
    cases hfound : s.voiceProfileVersions k with
    | none => simp
    | some found =>
      rw [Option.map_some, Option.some.injEq, Option.some.injEq]
      split
      · next hof =>
        -- The moved version is one of the profile `free`, which the tenant does not see.
        constructor
        · rintro rfl
          exact (hid (hof ▸ hprofile)).elim
        · rintro rfl
          obtain ⟨profile, hnone, -⟩ := hprofile
          simp [hfree] at hnone
      · rfl
  rendered _ _ _ _ := rfl

theorem wellFormed_withoutProfile (hs : s.WellFormed) {id free : Id}
    (hid : ¬ s.Holds tenantId (fun c => c.voiceProfileId) id) (hne : free ≠ id) :
    (s.withoutProfile tenantId id free).WellFormed where
  characters k c hc := hs.characters k c (EditState.ownChunks_eq_some_iff.mp hc).1
  profiles k c hc ref href := by
    obtain ⟨hfound, hbook⟩ := EditState.ownChunks_eq_some_iff.mp hc
    dsimp only [EditState.withoutProfile]
    rw [update_of_ne]
    · by_cases hfree : ref = free
      · rw [hfree, update_self]
        rfl
      · rw [update_of_ne hfree]
        exact hs.profiles k c hfound ref href
    · rintro rfl
      exact hid ⟨k, c, hfound, hbook, href⟩
  versions k c hc ref href := by
    dsimp only [EditState.withoutProfile]
    rw [Option.isSome_map]
    exact hs.versions k c (EditState.ownChunks_eq_some_iff.mp hc).1 ref href
  characterBooks := hs.characterBooks
  versionProfiles k version hversion := by
    obtain ⟨found, hfound, rfl⟩ := Option.map_eq_some_iff.mp hversion
    dsimp only [EditState.withoutProfile]
    split
    · rw [update_of_ne hne, update_self]
      rfl
    · next hof =>
      rw [update_of_ne hof]
      by_cases hfree : found.voiceProfileId = free
      · rw [hfree, update_self]
        rfl
      · rw [update_of_ne hfree]
        exact hs.versionProfiles k found hfound
  freeBooks := hs.freeBooks
  freeProfiles n := by
    obtain ⟨k, hk, hnone⟩ := hs.freeProfiles (max n free)
    refine ⟨k, (le_max_left n free).trans_lt hk, ?_⟩
    dsimp only [EditState.withoutProfile]
    by_cases hkid : k = id
    · rw [hkid, update_self]
    · rw [update_of_ne hkid, update_of_ne ((le_max_right n free).trans_lt hk).ne', hnone]

theorem agree_withVersion {id free : Id} (hid : ¬ s.SeesVersion tenantId id)
    (hfree : s.voiceProfiles free = none) (approvalState : VoiceApprovalState) :
    Agree tenantId s (s.withVersion tenantId id free approvalState) where
  books _ _ _ := Iff.rfl
  chunks _ _ _ := Iff.rfl
  characters _ _ _ := Iff.rfl
  profiles k profile hvisible := by
    dsimp only [EditState.withVersion]
    by_cases hk : k = free
    · subst hk
      rw [update_self, hfree]
      constructor
      · rintro ⟨⟩
      · rintro ⟨⟩
        exact (not_visibleTo_succ hvisible).elim
    · rw [update_of_ne hk]
  versions k version hprofile := by
    dsimp only [EditState.withVersion]
    by_cases hk : k = id
    · subst hk
      rw [update_self]
      constructor
      · exact fun hfound => (hid ⟨version, hfound, hprofile⟩).elim
      · rintro ⟨⟩
        obtain ⟨profile, hnone, -⟩ := hprofile
        simp [hfree] at hnone
    · rw [update_of_ne hk]
  rendered _ _ _ _ := rfl

theorem wellFormed_withVersion (hs : s.WellFormed) (id free : Id)
    (approvalState : VoiceApprovalState) :
    (s.withVersion tenantId id free approvalState).WellFormed where
  characters := hs.characters
  profiles k c hc ref href := by
    dsimp only [EditState.withVersion]
    by_cases hfree : ref = free
    · rw [hfree, update_self]
      rfl
    · rw [update_of_ne hfree]
      exact hs.profiles k c hc ref href
  versions k c hc ref href := by
    dsimp only [EditState.withVersion]
    by_cases hid : ref = id
    · rw [hid, update_self]
      rfl
    · rw [update_of_ne hid]
      exact hs.versions k c hc ref href
  characterBooks := hs.characterBooks
  versionProfiles k version hversion := by
    dsimp only [EditState.withVersion] at hversion ⊢
    by_cases hfree : version.voiceProfileId = free
    · rw [hfree, update_self]
      rfl
    · rw [update_of_ne hfree]
      by_cases hk : k = id
      · subst hk
        rw [update_self] at hversion
        cases hversion
        exact (hfree rfl).elim
      · rw [update_of_ne hk] at hversion
        exact hs.versionProfiles k version hversion
  freeBooks := hs.freeBooks
  freeProfiles n := by
    obtain ⟨k, hk, hnone⟩ := hs.freeProfiles (max n free)
    refine ⟨k, (le_max_left n free).trans_lt hk, ?_⟩
    dsimp only [EditState.withVersion]
    rw [update_of_ne ((le_max_right n free).trans_lt hk).ne', hnone]

theorem agree_withNamed {free : Id} (hfree : s.books free = none)
    (body : UpdateAudioScriptChunkBody) : Agree tenantId s (s.withNamed tenantId free body) where
  books k book htenant := by
    dsimp only [EditState.withNamed]
    by_cases hk : k = free
    · subst hk
      rw [update_self, hfree]
      constructor
      · rintro ⟨⟩
      · rintro ⟨⟩
        exact absurd htenant (Nat.succ_ne_self tenantId)
    · rw [update_of_ne hk]
  chunks _ _ _ := Iff.rfl
  characters k character htenant := by
    dsimp only [EditState.withNamed]
    cases s.characters k with
    | some found => rfl
    | none =>
      refine ⟨fun hnone => (by cases hnone), fun hadded => ?_⟩
      obtain ⟨-, hadded⟩ := Option.ite_none_right_eq_some.mp hadded
      cases hadded
      exact absurd htenant (Nat.succ_ne_self tenantId)
  profiles k profile hvisible := by
    dsimp only [EditState.withNamed]
    cases s.voiceProfiles k with
    | some found => rfl
    | none =>
      refine ⟨fun hnone => (by cases hnone), fun hadded => ?_⟩
      obtain ⟨-, hadded⟩ := Option.ite_none_right_eq_some.mp hadded
      cases hadded
      exact (not_visibleTo_succ hvisible).elim
  versions _ _ _ := Iff.rfl
  rendered _ _ _ _ := rfl

theorem isSome_orElse {α : Type} {a b : Option α} (h : a.isSome) : (a <|> b).isSome := by
  obtain ⟨x, rfl⟩ := Option.isSome_iff_exists.mp h
  rfl

theorem wellFormed_withNamed (hs : s.WellFormed) {free : Id} (hfree : s.books free = none)
    (body : UpdateAudioScriptChunkBody) : (s.withNamed tenantId free body).WellFormed where
  characters k c hc ref href := isSome_orElse (hs.characters k c hc ref href)
  profiles k c hc ref href := isSome_orElse (hs.profiles k c hc ref href)
  versions := hs.versions
  characterBooks k character hcharacter := by
    dsimp only [EditState.withNamed] at hcharacter ⊢
    cases hfound : s.characters k with
    | some _ =>
      rw [hfound] at hcharacter
      cases hcharacter
      obtain ⟨book, hbook, htenant⟩ := hs.characterBooks k character hfound
      refine ⟨book, ?_, htenant⟩
      rwa [update_of_ne]
      intro heq
      simp [heq, hfree] at hbook
    | none =>
      rw [hfound] at hcharacter
      obtain ⟨-, hadded⟩ := Option.ite_none_right_eq_some.mp hcharacter
      cases hadded
      exact ⟨_, update_self .., rfl⟩
  versionProfiles k version hversion := isSome_orElse (hs.versionProfiles k version hversion)
  freeBooks n := by
    obtain ⟨k, hk, hnone⟩ := hs.freeBooks (max n free)
    refine ⟨k, (le_max_left n free).trans_lt hk, ?_⟩
    dsimp only [EditState.withNamed]
    rw [update_of_ne ((le_max_right n free).trans_lt hk).ne', hnone]
  freeProfiles n := by
    obtain ⟨k, hk, hnone⟩ := hs.freeProfiles (max n (body.voiceProfileId.getD 0))
    refine ⟨k, (le_max_left n _).trans_lt hk, ?_⟩
    dsimp only [EditState.withNamed]
    rw [hnone, if_neg]
    · rfl
    · intro heq
      rw [heq] at hk
      exact absurd ((le_max_right n _).trans_lt hk) (lt_irrefl _)

end Others

/-! ## The Condition Is Exact -/

section Exact

variable {r : PatchRequest} {s : EditState} {c : AudioScriptChunk}

theorem outcome_of_not_connects (hchunk : requireChunk r s = .ok c) (hstate : c.state ≠ .locked)
    (hvoice : checkVoiceBinding r.body s = .ok ()) (h : ¬ connects r.body s) :
    r.outcome s = .error .recordNotFound := by
  rw [PatchRequest.outcome, update_of_checked hchunk hstate hvoice, updateChunk]
  simp [h, Except.map]

theorem outcome_ne_of_connects (hchunk : requireChunk r s = .ok c) (hstate : c.state ≠ .locked)
    (hvoice : checkVoiceBinding r.body s = .ok ()) (h : connects r.body s) :
    r.outcome s ≠ .error .recordNotFound := by
  rw [PatchRequest.outcome, update_of_checked hchunk hstate hvoice, updateChunk]
  simp only [h, not_true, if_false]
  split
  · simp [Except.map]
  · split <;> simp [Except.map]

theorem outcome_ne_of_checked (hchunk : requireChunk r s = .ok c) (hstate : c.state ≠ .locked)
    (hvoice : checkVoiceBinding r.body s = .ok ()) (code message : String) :
    r.outcome s ≠ .error (.conflict code message) := by
  rw [PatchRequest.outcome, update_of_checked hchunk hstate hvoice, updateChunk]
  split
  · simp [Except.map]
  · split
    · simp [Except.map]
    · split <;> simp [Except.map]

theorem Confined.seesVersion (h : Confined r s) (hs : s.WellFormed)
    (hchunk : requireChunk r s = .ok c) (hstate : c.state ≠ .locked) {id : Id}
    (hid : r.body.voiceProfileVersionId = some id) : s.SeesVersion r.tenantId id := by
  by_contra hunseen
  obtain ⟨free, -, hfree⟩ := hs.freeProfiles 0
  have hagree := agree_withVersion hunseen hfree
  have houtcome := fun approvalState =>
    h.independent _ (wellFormed_withVersion hs id free approvalState) (hagree approvalState)
  have hchunks := fun approvalState => (hagree approvalState).requireChunk_eq.trans hchunk
  have happroved : checkVoiceBinding r.body (s.withVersion r.tenantId id free .approved) =
      .ok () := by
    rw [checkVoiceBinding, hid]
    simp [EditState.withVersion]
  have hretired : checkVoiceBinding r.body (s.withVersion r.tenantId id free .retired) =
      .error (.conflict "VOICE_PROFILE_NOT_APPROVED"
        "The requested voice_profile_version_id is not an APPROVED or LOCKED voice.") := by
    rw [checkVoiceBinding, hid]
    simp [EditState.withVersion]
  have hrefused := outcome_of_voice_error (hchunks .retired) hstate hretired
  rw [houtcome, ← houtcome .approved] at hrefused
  exact outcome_ne_of_checked (hchunks .approved) hstate happroved _ _ hrefused

theorem outcome_ne_recordNotFound (h : Confined r s) (hs : s.WellFormed)
    (hchunk : requireChunk r s = .ok c) (hstate : c.state ≠ .locked)
    (hvoice : checkVoiceBinding r.body s = .ok ()) : r.outcome s ≠ .error .recordNotFound := by
  obtain ⟨free, -, hfree⟩ := hs.freeBooks 0
  have hagree : Agree r.tenantId s (s.withNamed r.tenantId free r.body) :=
    agree_withNamed hfree r.body
  rw [← h.independent _ (wellFormed_withNamed hs hfree r.body) hagree]
  refine outcome_ne_of_connects (hagree.requireChunk_eq.trans hchunk) hstate hvoice
    ⟨fun id hid => ?_, fun id hid => ?_, fun id hid => ?_⟩
  · dsimp only [EditState.withNamed]
    cases s.characters id with
    | some _ => rfl
    | none =>
      rw [if_pos (Option.mem_def.mp hid)]
      rfl
  · dsimp only [EditState.withNamed]
    cases s.voiceProfiles id with
    | some _ => rfl
    | none =>
      rw [if_pos (Option.mem_def.mp hid)]
      rfl
  · obtain ⟨version, hversion, -⟩ := h.seesVersion hs hchunk hstate hid
    exact Option.isSome_of_mem hversion

theorem Confined.character_anchored (h : Confined r s) (hs : s.WellFormed)
    (hchunk : requireChunk r s = .ok c) (hstate : c.state ≠ .locked)
    (hvoice : checkVoiceBinding r.body s = .ok ()) {id : Id}
    (hid : r.body.characterId = some id) :
    Anchored r.tenantId s (s.SeesCharacter r.tenantId) (fun c => c.characterId) id := by
  by_contra hfree
  obtain ⟨hunseen, hunheld⟩ := not_or.mp hfree
  have hagree := agree_withoutCharacter hunseen
  refine outcome_ne_recordNotFound h hs hchunk hstate hvoice ?_
  rw [← h.independent _ (wellFormed_withoutCharacter hs hunheld) hagree]
  refine outcome_of_not_connects (hagree.requireChunk_eq.trans hchunk) hstate hvoice ?_
  intro hconnects
  have hfound := hconnects.1 id hid
  simp [EditState.withoutCharacter] at hfound

theorem Confined.profile_anchored (h : Confined r s) (hs : s.WellFormed)
    (hchunk : requireChunk r s = .ok c) (hstate : c.state ≠ .locked)
    (hvoice : checkVoiceBinding r.body s = .ok ()) {id : Id}
    (hid : r.body.voiceProfileId = some id) :
    Anchored r.tenantId s (s.SeesProfile r.tenantId) (fun c => c.voiceProfileId) id := by
  by_contra hanchored
  obtain ⟨hunseen, hunheld⟩ := not_or.mp hanchored
  obtain ⟨free, hlt, hfree⟩ := hs.freeProfiles id
  have hagree := agree_withoutProfile hunseen hfree
  refine outcome_ne_recordNotFound h hs hchunk hstate hvoice ?_
  rw [← h.independent _ (wellFormed_withoutProfile hs hunheld (Nat.ne_of_gt hlt)) hagree]
  have hseen : ∀ id, r.body.voiceProfileVersionId = some id → s.SeesVersion r.tenantId id :=
    fun _ hversion => h.seesVersion hs hchunk hstate hversion
  have hcheck := hagree.checkVoiceBinding_eq hseen
  refine outcome_of_not_connects (hagree.requireChunk_eq.trans hchunk) hstate
    (hcheck.trans hvoice) ?_
  intro hconnects
  have hfound := hconnects.2.1 id hid
  simp [EditState.withoutProfile] at hfound

theorem characterId_write_of_named {body : UpdateAudioScriptChunkBody} {content : ChunkContent}
    {id : Id} (h : body.characterId = some id) : (body.write content).characterId = some id := by
  rw [UpdateAudioScriptChunkBody.characterId, Option.join_eq_some_iff] at h
  dsimp only [UpdateAudioScriptChunkBody.write]
  rw [h, Option.getD_some]

theorem voiceProfileId_write_of_named {body : UpdateAudioScriptChunkBody} {content : ChunkContent}
    {id : Id} (h : body.voiceProfileId = some id) :
    (body.write content).voiceProfileId = some id := by
  rw [UpdateAudioScriptChunkBody.voiceProfileId] at h
  dsimp only [UpdateAudioScriptChunkBody.write]
  rw [h]
  rfl

theorem Confined.staysWithin (h : Confined r s) (hs : s.WellFormed) : StaysWithin r s := by
  intro c hchunk hstate
  have hseen : ∀ id, r.body.voiceProfileVersionId = some id → s.SeesVersion r.tenantId id :=
    fun _ hid => h.seesVersion hs hchunk hstate hid
  refine ⟨hseen, fun hvoice => ?_⟩
  have hcharacter : ∀ id, r.body.characterId = some id → Anchored r.tenantId s _ _ id :=
    fun _ hid => h.character_anchored hs hchunk hstate hvoice hid
  have hprofile : ∀ id, r.body.voiceProfileId = some id → Anchored r.tenantId s _ _ id :=
    fun _ hid => h.profile_anchored hs hchunk hstate hvoice hid
  have hrefers : r.Fits s c →
      RefersWithin r.tenantId s c (editedChunk c r.body r.sub r.now) := by
    intro hfits
    have hok : updateAudioScriptChunk r s = .ok { s with
        chunks := update s.chunks r.chunkId (some (editedChunk c r.body r.sub r.now)) } := by
      rw [update_of_checked hchunk hstate hvoice, updateChunk_eq_ok_iff]
      exact ⟨connects_of_anchored hs hcharacter hprofile hseen, hfits, rfl⟩
    exact h.references _ c _ hok (requireChunk_eq_ok_iff.mp hchunk).2.1 (update_self ..)
  exact ⟨fun id hid => ⟨hcharacter id hid, fun hfits =>
      (hrefers hfits).character id (characterId_write_of_named hid)⟩,
    fun id hid => ⟨hprofile id hid, fun hfits =>
      (hrefers hfits).profile id (voiceProfileId_write_of_named hid)⟩⟩

/-- **The references of an edited chunk.** A `PATCH` reaches across no tenants and no books exactly
when the ids that it comes to look up are the tenant's affair: it names a version that the tenant
sees, or none, and the character and the profile that it connects are seen by the tenant or held by
one of its chunks, and allowed for this chunk where the edit goes through. -/
theorem confined_iff (r : PatchRequest) {s : EditState} (hs : s.WellFormed) :
    Confined r s ↔ StaysWithin r s :=
  ⟨fun h => h.staysWithin hs, fun h =>
    ⟨fun _ _ _ hok hc hc' => h.refersWithin hok hc hc', fun _ hs' hagree =>
      h.independent hs hs' hagree⟩⟩

end Exact

/-! ## Histories -/

/-- Book 2 of tenant 1 and book 4 of tenant 9, each with a character and an approved voice; chunk 3
is of book 2. -/
def twoTenants : EditState where
  books := update (update (fun _ => none) 2 (some ⟨1⟩)) 4 (some ⟨9⟩)
  chunks := update (fun _ => none) 3
    (some { id := 3, bookId := 2, text := "Who is there?", speakerType := .narrator })
  characters := update (update (fun _ => none) 6 (some ⟨1, 2⟩)) 8 (some ⟨9, 4⟩)
  voiceProfiles :=
    update (update (fun _ => none) 10 (some { tenantId := some 1 })) 12
      (some { tenantId := some 9 })
  voiceProfileVersions :=
    update (update (fun _ => none) 11 (some ⟨10, .approved⟩)) 13 (some ⟨12, .approved⟩)
  rendered _ := []

theorem eq_of_update {α : Type} {a i : Id} {x z : α}
    (h : update (fun _ => none) a (some x) i = some z) : z = x := by
  by_cases ha : i = a
  · subst ha
    rw [update_self] at h
    exact (Option.some.inj h).symm
  · rw [update_of_ne ha] at h
    cases h

theorem eq_of_update_update {α : Type} {a b i : Id} {x y z : α}
    (h : update (update (fun _ => none) a (some x)) b (some y) i = some z) :
    i = a ∧ z = x ∨ i = b ∧ z = y := by
  by_cases hb : i = b
  · subst hb
    rw [update_self] at h
    exact .inr ⟨rfl, (Option.some.inj h).symm⟩
  · rw [update_of_ne hb] at h
    by_cases ha : i = a
    · subst ha
      rw [update_self] at h
      exact .inl ⟨rfl, (Option.some.inj h).symm⟩
    · rw [update_of_ne ha] at h
      cases h

theorem free_update_update {α : Type} (a b : ℕ) (x y : Option α) (n : ℕ) :
    ∃ id > n, update (update (fun _ => none) a x) b y id = none := by
  refine ⟨n + a + b + 1, by omega, ?_⟩
  rw [update_of_ne (by omega), update_of_ne (by omega)]

theorem wellFormed_twoTenants : twoTenants.WellFormed where
  characters chunkId c hc id hid := by
    obtain rfl := eq_of_update hc
    cases hid
  profiles chunkId c hc id hid := by
    obtain rfl := eq_of_update hc
    cases hid
  versions chunkId c hc id hid := by
    obtain rfl := eq_of_update hc
    cases hid
  characterBooks id character hcharacter := by
    rcases eq_of_update_update hcharacter with ⟨-, rfl⟩ | ⟨-, rfl⟩
    · exact ⟨⟨1⟩, rfl, rfl⟩
    · exact ⟨⟨9⟩, rfl, rfl⟩
  versionProfiles id version hversion := by
    rcases eq_of_update_update hversion with ⟨-, rfl⟩ | ⟨-, rfl⟩
    · rfl
    · rfl
  freeBooks := free_update_update 2 4 _ _
  freeProfiles := free_update_update 10 12 _ _

/-- A `PATCH` of chunk 3 by a user of tenant 1. -/
def patchOf (body : UpdateAudioScriptChunkBody) : PatchRequest :=
  { sub := 5, tenantId := 1, bookId := 2, chunkId := 3, body }

/-- Another tenant's version is looked up, and so a request that names it is not confined. -/
theorem not_confined_version :
    ¬ Confined (patchOf { voiceBinding := some { voiceProfileVersionId := some 13 } })
      twoTenants := by
  rw [confined_iff _ wellFormed_twoTenants]
  intro h
  obtain ⟨hseen, -⟩ := h _ (requireChunk_eq_ok_iff.mpr ⟨⟨⟨1⟩, rfl, rfl⟩, rfl, rfl, rfl⟩) (by decide)
  obtain ⟨version, hversion, profile, hprofile, hvisible⟩ := hseen 13 rfl
  cases hversion
  cases hprofile
  rcases hvisible with hsystem | htenant
  · cases hsystem
  · cases htenant

/-- Another tenant's character is connected. -/
theorem not_forall_confined :
    ¬ ∀ (r : PatchRequest) (s : EditState), s.WellFormed → Confined r s := by
  intro h
  have hconfined := h (patchOf { performance := some { characterId := some (some 8) } }) twoTenants
    wellFormed_twoTenants
  have hrefers := hconfined.references _ _ _ rfl rfl rfl
  rcases hrefers.character 8 rfl with hold | ⟨character, hcharacter, hbook⟩ |
    ⟨character, hcharacter, htenant⟩
  · cases hold
  · cases hcharacter
    cases hbook
  · cases hcharacter
    cases htenant

end AudioBook.ChunkEdits
