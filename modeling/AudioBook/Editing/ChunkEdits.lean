import AudioBook.Relational.Table
import AudioBook.Schema.Rows
import Mathlib.Data.Rat.Defs
import Mathlib.Logic.Function.Basic

/-!
# Editing an Audio Script Chunk

`updateAudioScriptChunk` of the Director service: what a `PATCH` of a chunk checks, what it records
of the Director's values, and what it writes.

- `ChunkField`, `AudioScriptChunk.value`: the fields of a chunk that a `PATCH` may name.
- `UpdateAudioScriptChunkBody.edited`: the value that a body gives to a field, if it names it.
- `changedOriginal`: what the service records in `director_original`.
- `updateAudioScriptChunk`: the request.

## Main results

* `value_editedChunk`: a `PATCH` gives every named field its value and keeps the others.
* `changedOriginal_apply`: what is recorded of a field, and when.
-/

namespace AudioBook.ChunkEdits

open Relational (except_bind_eq_ok_iff)

/-! ## Fields -/

inductive DeliveryMode
  | normal
  | internalThought
  | whisper
  | shout
  | laughing
  | crying
  | singing
  | readingAloud
  deriving DecidableEq, Repr

inductive Emotion
  | neutral
  | happy
  | sad
  | grief
  | angry
  | fearful
  | surprised
  | disgusted
  | excited
  | calm
  | tense
  | anxious
  | somber
  | confident
  | uncertain
  | playful
  | serious
  deriving DecidableEq, Repr

inductive ReviewFlag
  | directorFallback
  | unknownSpeaker
  | lowConfidence
  | characterMetadataChanged
  | pronunciationLexiconChanged
  | capabilityGap
  | textHashMismatch
  deriving DecidableEq, Repr

/-- An element of `pauses`. -/
structure Pause where
  position : String
  offsetChars : Option ℕ := none
  durationMs : ℕ
  kind : Option String := none
  breath : Option String := none
  deriving DecidableEq

/-- An element of `emphasis`. -/
structure Emphasis where
  offsetChars : ℕ
  lengthChars : ℕ
  strength : ℚ
  deriving DecidableEq

/-- An element of `non_verbal`. -/
structure NonVerbal where
  offsetChars : ℕ
  lengthChars : ℕ
  expression : String
  intensity : ℚ
  placement : String
  deriving DecidableEq

/-- The fields of a chunk that a `PATCH` may name. -/
inductive ChunkField
  | speakerType
  | characterId
  | isDialogue
  | deliveryMode
  | emotion
  | emotionIntensity
  | pacing
  | pitch
  | volume
  | pauses
  | emphasis
  | nonVerbal
  | voiceProfileId
  | voiceProfileVersionId
  | ttsProviderId
  | seed
  | targetSampleRate
  | targetChannels
  | reviewFlags
  deriving DecidableEq, Repr

def ChunkField.Value : ChunkField → Type
  | .speakerType => SpeakerType
  | .characterId => Option Id
  | .isDialogue => Bool
  | .deliveryMode => DeliveryMode
  | .emotion => Emotion
  | .emotionIntensity => ℚ
  | .pacing => ℚ
  | .pitch => ℚ
  | .volume => ℚ
  | .pauses => Option (List Pause)
  | .emphasis => Option (List Emphasis)
  | .nonVerbal => Option (List NonVerbal)
  | .voiceProfileId => Option Id
  | .voiceProfileVersionId => Option Id
  | .ttsProviderId => Option String
  | .seed => Option ℤ
  | .targetSampleRate => Option ℕ
  | .targetChannels => Option ℕ
  | .reviewFlags => List ReviewFlag

instance : (f : ChunkField) → DecidableEq f.Value
  | .speakerType => inferInstanceAs (DecidableEq SpeakerType)
  | .characterId => inferInstanceAs (DecidableEq (Option Id))
  | .isDialogue => inferInstanceAs (DecidableEq Bool)
  | .deliveryMode => inferInstanceAs (DecidableEq DeliveryMode)
  | .emotion => inferInstanceAs (DecidableEq Emotion)
  | .emotionIntensity => inferInstanceAs (DecidableEq ℚ)
  | .pacing => inferInstanceAs (DecidableEq ℚ)
  | .pitch => inferInstanceAs (DecidableEq ℚ)
  | .volume => inferInstanceAs (DecidableEq ℚ)
  | .pauses => inferInstanceAs (DecidableEq (Option (List Pause)))
  | .emphasis => inferInstanceAs (DecidableEq (Option (List Emphasis)))
  | .nonVerbal => inferInstanceAs (DecidableEq (Option (List NonVerbal)))
  | .voiceProfileId => inferInstanceAs (DecidableEq (Option Id))
  | .voiceProfileVersionId => inferInstanceAs (DecidableEq (Option Id))
  | .ttsProviderId => inferInstanceAs (DecidableEq (Option String))
  | .seed => inferInstanceAs (DecidableEq (Option ℤ))
  | .targetSampleRate => inferInstanceAs (DecidableEq (Option ℕ))
  | .targetChannels => inferInstanceAs (DecidableEq (Option ℕ))
  | .reviewFlags => inferInstanceAs (DecidableEq (List ReviewFlag))

/-- `director_original`: the JSON object, as the values that it has under the fields' names. -/
abbrev DirectorOriginal : Type := (f : ChunkField) → Option f.Value

/-! ## Rows -/

inductive ChunkOrigin
  | autoGenerated
  | humanReviewed
  | humanModified
  | locked
  deriving DecidableEq, Repr

structure Override where
  modifiedByUserId : Id
  modifiedAt : ℕ
  reason : Option String
  deriving DecidableEq

/-- The columns of `audio_script_chunk` that a `PATCH` may name. -/
structure ChunkContent where
  speakerType : SpeakerType
  characterId : Option Id := none
  isDialogue : Bool := false
  deliveryMode : DeliveryMode := .normal
  emotion : Emotion := .neutral
  emotionIntensity : ℚ := 0
  pacing : ℚ := 1
  pitch : ℚ := 0
  volume : ℚ := 0
  pauses : Option (List Pause) := none
  emphasis : Option (List Emphasis) := none
  nonVerbal : Option (List NonVerbal) := none
  voiceProfileId : Option Id := none
  voiceProfileVersionId : Option Id := none
  ttsProviderId : Option String := none
  seed : Option ℤ := none
  targetSampleRate : Option ℕ := none
  targetChannels : Option ℕ := none
  reviewFlags : List ReviewFlag := []
  deriving DecidableEq

/-- `audio_script_chunk`: these columns, its text, and the columns that a `PATCH` reads or writes
besides. -/
structure AudioScriptChunk extends ChunkContent where
  id : Id
  bookId : Id
  text : String
  isCurrent : Bool := true
  state : AudioScriptChunkState := .draft
  lockedAt : Option ℕ := none
  origin : ChunkOrigin := .autoGenerated
  directorOriginal : Option DirectorOriginal := none
  override : Option Override := none
  rowVersion : ℕ := 0

def ChunkContent.value (c : ChunkContent) : (f : ChunkField) → f.Value
  | .speakerType => c.speakerType
  | .characterId => c.characterId
  | .isDialogue => c.isDialogue
  | .deliveryMode => c.deliveryMode
  | .emotion => c.emotion
  | .emotionIntensity => c.emotionIntensity
  | .pacing => c.pacing
  | .pitch => c.pitch
  | .volume => c.volume
  | .pauses => c.pauses
  | .emphasis => c.emphasis
  | .nonVerbal => c.nonVerbal
  | .voiceProfileId => c.voiceProfileId
  | .voiceProfileVersionId => c.voiceProfileVersionId
  | .ttsProviderId => c.ttsProviderId
  | .seed => c.seed
  | .targetSampleRate => c.targetSampleRate
  | .targetChannels => c.targetChannels
  | .reviewFlags => c.reviewFlags

def ChunkContent.ofValues (v : (f : ChunkField) → f.Value) : ChunkContent where
  speakerType := v .speakerType
  characterId := v .characterId
  isDialogue := v .isDialogue
  deliveryMode := v .deliveryMode
  emotion := v .emotion
  emotionIntensity := v .emotionIntensity
  pacing := v .pacing
  pitch := v .pitch
  volume := v .volume
  pauses := v .pauses
  emphasis := v .emphasis
  nonVerbal := v .nonVerbal
  voiceProfileId := v .voiceProfileId
  voiceProfileVersionId := v .voiceProfileVersionId
  ttsProviderId := v .ttsProviderId
  seed := v .seed
  targetSampleRate := v .targetSampleRate
  targetChannels := v .targetChannels
  reviewFlags := v .reviewFlags

@[simp]
theorem ChunkContent.ofValues_value (c : ChunkContent) : ofValues c.value = c := rfl

@[simp]
theorem ChunkContent.value_ofValues (v : (f : ChunkField) → f.Value) (f : ChunkField) :
    (ofValues v).value f = v f := by
  cases f <;> rfl

theorem ChunkContent.eq_of_value {c c' : ChunkContent} (h : ∀ f, c.value f = c'.value f) :
    c = c' := by
  rw [← ofValues_value c, ← ofValues_value c', funext h]

/-! ## The Body -/

/-- `performance` of the body; `some none` is a JSON `null`. -/
structure PerformanceEdit where
  speakerType : Option SpeakerType := none
  characterId : Option (Option Id) := none
  isDialogue : Option Bool := none
  deliveryMode : Option DeliveryMode := none
  emotion : Option Emotion := none
  emotionIntensity : Option ℚ := none
  pacing : Option ℚ := none
  pitch : Option ℚ := none
  volume : Option ℚ := none
  pauses : Option (List Pause) := none
  emphasis : Option (List Emphasis) := none
  nonVerbal : Option (List NonVerbal) := none

/-- `voice_binding` of the body. -/
structure VoiceBindingEdit where
  voiceProfileId : Option Id := none
  voiceProfileVersionId : Option Id := none

/-- `generation_control` of the body; `some none` is a JSON `null`. -/
structure GenerationControlEdit where
  ttsProviderId : Option String := none
  seed : Option (Option ℤ) := none
  targetSampleRate : Option (Option ℕ) := none
  targetChannels : Option (Option ℕ) := none

/-- `UpdateAudioScriptChunkBody`; `reviewFlags` is that of `quality`. -/
structure UpdateAudioScriptChunkBody where
  performance : Option PerformanceEdit := none
  voiceBinding : Option VoiceBindingEdit := none
  generationControl : Option GenerationControlEdit := none
  reviewFlags : Option (List ReviewFlag) := none
  reason : Option String := none

/-- `Object.keys` of `performance`. -/
def PerformanceEdit.keys (p : PerformanceEdit) : List String :=
  [("speaker_type", p.speakerType.isSome), ("character_id", p.characterId.isSome),
    ("is_dialogue", p.isDialogue.isSome), ("delivery_mode", p.deliveryMode.isSome),
    ("emotion", p.emotion.isSome), ("emotion_intensity", p.emotionIntensity.isSome),
    ("pacing", p.pacing.isSome), ("pitch", p.pitch.isSome), ("volume", p.volume.isSome),
    ("pauses", p.pauses.isSome), ("emphasis", p.emphasis.isSome),
    ("non_verbal", p.nonVerbal.isSome)].filterMap fun k => if k.2 then some k.1 else none

def UpdateAudioScriptChunkBody.write (body : UpdateAudioScriptChunkBody) (c : ChunkContent) :
    ChunkContent :=
  let p := body.performance.getD {}
  let v := body.voiceBinding.getD {}
  let g := body.generationControl.getD {}
  { speakerType := p.speakerType.getD c.speakerType
    characterId := p.characterId.getD c.characterId
    isDialogue := p.isDialogue.getD c.isDialogue
    deliveryMode := p.deliveryMode.getD c.deliveryMode
    emotion := p.emotion.getD c.emotion
    emotionIntensity := p.emotionIntensity.getD c.emotionIntensity
    pacing := p.pacing.getD c.pacing
    pitch := p.pitch.getD c.pitch
    volume := p.volume.getD c.volume
    pauses := p.pauses <|> c.pauses
    emphasis := p.emphasis <|> c.emphasis
    nonVerbal := p.nonVerbal <|> c.nonVerbal
    voiceProfileId := v.voiceProfileId <|> c.voiceProfileId
    voiceProfileVersionId := v.voiceProfileVersionId <|> c.voiceProfileVersionId
    ttsProviderId := g.ttsProviderId <|> c.ttsProviderId
    seed := g.seed.getD c.seed
    targetSampleRate := g.targetSampleRate.getD c.targetSampleRate
    targetChannels := g.targetChannels.getD c.targetChannels
    reviewFlags := body.reviewFlags.getD c.reviewFlags }

/-! ## What Is Recorded of the Director's Values -/

/-- `snakeKey.replace(/_([a-z])/g, (_, c) => c.toUpperCase())`. -/
def camelCase (snakeKey : String) : String :=
  .ofList (go snakeKey.toList)
where
  go : List Char → List Char
    | '_' :: c :: cs => if c.isLower then c.toUpper :: go cs else '_' :: go (c :: cs)
    | c :: cs => c :: go cs
    | [] => []

/-- `performanceFieldMap`: the names under which the chunk's values are recorded. -/
def performanceFieldMap : List (String × ChunkField) :=
  [("speakerType", .speakerType), ("characterId", .characterId), ("isDialogue", .isDialogue),
    ("deliveryMode", .deliveryMode), ("emotion", .emotion),
    ("emotionIntensity", .emotionIntensity), ("pacing", .pacing), ("pitch", .pitch),
    ("volume", .volume)]

def recordFirst (chunk : ChunkContent) (f : ChunkField) (original : DirectorOriginal) :
    DirectorOriginal :=
  if (original f).isSome then original else Function.update original f (some (chunk.value f))

/-- One step of the loop over the requested keys. -/
def recordKey (chunk : ChunkContent) (original : DirectorOriginal) (snakeKey : String) :
    DirectorOriginal :=
  match performanceFieldMap.lookup (camelCase snakeKey) with
  | some f => recordFirst chunk f original
  | none => original

/-- `changedOriginal`: the recorded values, and those that the request adds. -/
def changedOriginal (chunk : AudioScriptChunk) (body : UpdateAudioScriptChunkBody) :
    DirectorOriginal :=
  let existingOriginal := chunk.directorOriginal.getD fun _ => none
  let requestedPerformanceKeys :=
    ((body.performance.getD {}).keys).filter fun k => k ∉ ["pauses", "emphasis", "non_verbal"]
  let changed := requestedPerformanceKeys.foldl (recordKey chunk.toChunkContent) existingOriginal
  if body.voiceBinding.isSome then
    recordFirst chunk.toChunkContent .voiceProfileVersionId changed
  else changed

def editedChunk (chunk : AudioScriptChunk) (body : UpdateAudioScriptChunkBody) (sub : Id)
    (now : ℕ) : AudioScriptChunk :=
  { chunk with
    toChunkContent := body.write chunk.toChunkContent
    rowVersion := chunk.rowVersion + 1
    origin := .humanModified
    directorOriginal := some (changedOriginal chunk body)
    override := some ⟨sub, now, body.reason⟩
    state := .draft }

/-! ## The Request -/

/-- `book`, by its id. -/
structure Book where
  tenantId : Id

/-- `character`, by its id. -/
structure Character where
  tenantId : Id
  bookId : Id

/-- `voice_profile`, by its id. -/
structure VoiceProfile where
  isSystem : Bool := false
  tenantId : Option Id

/-- `voice_profile_version`, by its id. -/
structure VoiceProfileVersion where
  voiceProfileId : Id
  approvalState : VoiceApprovalState

/-- The tables that a `PATCH` reads, as their rows by the primary keys. -/
structure EditState where
  books : Id → Option Book
  chunks : Id → Option AudioScriptChunk
  characters : Id → Option Character
  voiceProfiles : Id → Option VoiceProfile
  voiceProfileVersions : Id → Option VoiceProfileVersion
  /-- The characters that the rows of `audio_chunk` name together with a chunk. -/
  rendered : Id → List Id

/-- How a `PATCH` is refused. -/
inductive PatchError
  | notFound (message : String)
  | conflict (code message : String)
  /-- A record to connect is not there (`P2025`). -/
  | recordNotFound
  | checkViolation
  | foreignKeyViolation
  deriving DecidableEq, Repr

/-- A `PATCH` of a chunk. -/
structure PatchRequest where
  sub : Id
  tenantId : Id
  bookId : Id
  chunkId : Id
  body : UpdateAudioScriptChunkBody
  now : ℕ := 0

def UpdateAudioScriptChunkBody.characterId (body : UpdateAudioScriptChunkBody) : Option Id :=
  ((body.performance.getD {}).characterId).join

def UpdateAudioScriptChunkBody.voiceProfileId (body : UpdateAudioScriptChunkBody) : Option Id :=
  (body.voiceBinding.getD {}).voiceProfileId

def UpdateAudioScriptChunkBody.voiceProfileVersionId (body : UpdateAudioScriptChunkBody) :
    Option Id :=
  (body.voiceBinding.getD {}).voiceProfileVersionId

/-- `requireOwnedBook`, then `requireAudioScriptChunk`. -/
def requireChunk (r : PatchRequest) (s : EditState) : Except PatchError AudioScriptChunk :=
  match s.books r.bookId with
  | none => .error (.notFound "Book not found.")
  | some book =>
    if book.tenantId ≠ r.tenantId then .error (.notFound "Book not found.")
    else match s.chunks r.chunkId with
      | none => .error (.notFound "Audio Script chunk not found.")
      | some chunk =>
        if chunk.bookId = r.bookId ∧ chunk.isCurrent then .ok chunk
        else .error (.notFound "Audio Script chunk not found.")

def checkVoiceBinding (body : UpdateAudioScriptChunkBody) (s : EditState) :
    Except PatchError Unit :=
  match body.voiceProfileVersionId with
  | none => .ok ()
  | some versionId =>
    if ∃ version ∈ s.voiceProfileVersions versionId,
        version.approvalState ∈ [VoiceApprovalState.approved, .locked] then .ok ()
    else .error (.conflict "VOICE_PROFILE_NOT_APPROVED"
      "The requested voice_profile_version_id is not an APPROVED or LOCKED voice.")

/-- The records that the update connects are there. -/
def connects (body : UpdateAudioScriptChunkBody) (s : EditState) : Prop :=
  (∀ id ∈ body.characterId, (s.characters id).isSome) ∧
    (∀ id ∈ body.voiceProfileId, (s.voiceProfiles id).isSome) ∧
      ∀ id ∈ body.voiceProfileVersionId, (s.voiceProfileVersions id).isSome

instance (body : UpdateAudioScriptChunkBody) (s : EditState) : Decidable (connects body s) :=
  inferInstanceAs (Decidable (_ ∧ _ ∧ _))

/-- The `CHECK` constraints of `audio_script_chunk`. -/
def AudioScriptChunk.meetsChecks (c : AudioScriptChunk) : Prop :=
  (c.speakerType = .character → c.characterId ≠ none) ∧
    (c.state = .locked → c.voiceProfileVersionId ≠ none ∧ c.lockedAt ≠ none) ∧
      (c.text ≠ "" ∨ c.nonVerbal ≠ none)

instance (c : AudioScriptChunk) : Decidable c.meetsChecks :=
  inferInstanceAs (Decidable (_ ∧ _ ∧ _))

/-- `audioScriptChunk.update`: the row as it is read here is changed in place. -/
def updateChunk (r : PatchRequest) (chunk : AudioScriptChunk) (s : EditState) :
    Except PatchError EditState :=
  let edited := editedChunk chunk r.body r.sub r.now
  if ¬ connects r.body s then .error .recordNotFound
  else if ¬ edited.meetsChecks then .error .checkViolation
  -- `audio_chunk_script_chunk_character_fkey`: an audio chunk keeps the character it names.
  else if ∃ characterId ∈ s.rendered r.chunkId, edited.characterId ≠ some characterId then
    .error .foreignKeyViolation
  else .ok { s with chunks := Function.update s.chunks r.chunkId (some edited) }

def updateAudioScriptChunk (r : PatchRequest) (s : EditState) : Except PatchError EditState := do
  let chunk ← requireChunk r s
  if chunk.state = .locked then
    .error (.conflict "AUDIO_SCRIPT_CHUNK_FROZEN"
      ("This chunk is LOCKED (already used for generation) and cannot be edited in place. " ++
        "Request a new chunk version via revise-director instead."))
  else
    checkVoiceBinding r.body s
    updateChunk r chunk s

/-! ## What Is Written and What Is Recorded -/

def requestedFields (body : UpdateAudioScriptChunkBody) : List ChunkField :=
  ((body.performance.getD {}).keys.filter fun k => k ∉ ["pauses", "emphasis", "non_verbal"])
      |>.filterMap (fun k => performanceFieldMap.lookup (camelCase k))
      |>.append (if body.voiceBinding.isSome then [.voiceProfileVersionId] else [])

theorem foldl_recordFirst (chunk : ChunkContent) (fields : List ChunkField)
    (original : DirectorOriginal) (f : ChunkField) :
    fields.foldl (fun original f => recordFirst chunk f original) original f =
      (original f <|> if f ∈ fields then some (chunk.value f) else none) := by
  induction fields generalizing original with
  | nil => simp
  | cons g fields ih =>
    rw [List.foldl_cons, ih, recordFirst]
    by_cases hg : (original g).isSome
    · rw [if_pos hg]
      by_cases hf : f = g
      · subst hf
        obtain ⟨v, hv⟩ := Option.isSome_iff_exists.mp hg
        simp [hv]
      · simp [hf]
    · rw [if_neg hg]
      by_cases hf : f = g
      · subst hf
        simp [Option.not_isSome_iff_eq_none.mp hg]
      · simp [hf]

theorem foldl_recordKey (chunk : ChunkContent) (keys : List String)
    (original : DirectorOriginal) :
    keys.foldl (recordKey chunk) original =
      (keys.filterMap fun k => performanceFieldMap.lookup (camelCase k)).foldl
        (fun original f => recordFirst chunk f original) original := by
  induction keys generalizing original with
  | nil => rfl
  | cons k keys ih =>
    rw [List.foldl_cons, ih, recordKey, List.filterMap_cons]
    cases performanceFieldMap.lookup (camelCase k) <;> rfl

theorem changedOriginal_apply (chunk : AudioScriptChunk) (body : UpdateAudioScriptChunkBody)
    (f : ChunkField) :
    changedOriginal chunk body f =
      ((chunk.directorOriginal.getD fun _ => none) f <|>
        if f ∈ requestedFields body then some (chunk.value f) else none) := by
  rw [← foldl_recordFirst, requestedFields, List.append_eq, List.foldl_append, ← foldl_recordKey,
    changedOriginal]
  split <;> rfl

/-- The body gives the field a value that is recorded first. -/
def UpdateAudioScriptChunkBody.records (body : UpdateAudioScriptChunkBody) : ChunkField → Bool
  | .speakerType => (body.performance.getD {}).speakerType.isSome
  | .characterId => (body.performance.getD {}).characterId.isSome
  | .isDialogue => (body.performance.getD {}).isDialogue.isSome
  | .deliveryMode => (body.performance.getD {}).deliveryMode.isSome
  | .emotion => (body.performance.getD {}).emotion.isSome
  | .emotionIntensity => (body.performance.getD {}).emotionIntensity.isSome
  | .pacing => (body.performance.getD {}).pacing.isSome
  | .pitch => (body.performance.getD {}).pitch.isSome
  | .volume => (body.performance.getD {}).volume.isSome
  | .voiceProfileVersionId => body.voiceBinding.isSome
  | .pauses | .emphasis | .nonVerbal | .voiceProfileId | .ttsProviderId | .seed
  | .targetSampleRate | .targetChannels | .reviewFlags => false

theorem lookup_camelCase :
    ∀ k ∈ [("speaker_type", ChunkField.speakerType), ("character_id", .characterId),
      ("is_dialogue", .isDialogue), ("delivery_mode", .deliveryMode), ("emotion", .emotion),
      ("emotion_intensity", .emotionIntensity), ("pacing", .pacing), ("pitch", .pitch),
      ("volume", .volume)],
      performanceFieldMap.lookup (camelCase k.1) = some k.2 := by
  decide

theorem mem_filterMap_marked {α : Type} {a : α} {entries : List (α × Bool)} :
    a ∈ entries.filterMap (fun k => if k.2 then some k.1 else none) ↔ (a, true) ∈ entries := by
  simp

theorem filterMap_filter_marked {α β : Type} (keep : α → Bool) (rename : α → Option β)
    (entries : List (α × Bool)) :
    (((entries.filterMap fun k => if k.2 then some k.1 else none).filter keep).filterMap rename) =
      ((entries.filter fun k => keep k.1).filterMap
          fun k => (rename k.1).map fun b => (b, k.2)).filterMap
        fun k => if k.2 then some k.1 else none := by
  induction entries with
  | nil => rfl
  | cons entry entries ih =>
      obtain ⟨a, marked⟩ := entry
      by_cases ha : keep a <;> cases marked <;> cases hb : rename a <;>
        simpa [ha, hb, List.filter_cons] using ih

theorem filterMap_keys (p : PerformanceEdit) :
    ((p.keys.filter fun k => k ∉ ["pauses", "emphasis", "non_verbal"]).filterMap
        fun k => performanceFieldMap.lookup (camelCase k)) =
      [(ChunkField.speakerType, p.speakerType.isSome), (.characterId, p.characterId.isSome),
        (.isDialogue, p.isDialogue.isSome), (.deliveryMode, p.deliveryMode.isSome),
        (.emotion, p.emotion.isSome), (.emotionIntensity, p.emotionIntensity.isSome),
        (.pacing, p.pacing.isSome), (.pitch, p.pitch.isSome),
        (.volume, p.volume.isSome)].filterMap fun k => if k.2 then some k.1 else none := by
  have hfields := lookup_camelCase
  simp only [List.forall_mem_cons] at hfields
  obtain ⟨h₁, h₂, h₃, h₄, h₅, h₆, h₇, h₈, h₉, -⟩ := hfields
  rw [PerformanceEdit.keys, filterMap_filter_marked]
  refine congrArg (List.filterMap _) ?_
  simp [h₁, h₂, h₃, h₄, h₅, h₆, h₇, h₈, h₉]

theorem mem_requestedFields {body : UpdateAudioScriptChunkBody} {f : ChunkField} :
    f ∈ requestedFields body ↔ body.records f = true := by
  have happend : ∀ l : List ChunkField, l.append (if body.voiceBinding.isSome then
      [.voiceProfileVersionId] else []) = l ++ if body.voiceBinding.isSome then
      [.voiceProfileVersionId] else [] := fun _ => rfl
  rw [requestedFields, filterMap_keys, happend, List.mem_append, mem_filterMap_marked]
  cases f <;> simp [UpdateAudioScriptChunkBody.records]

/-- The fields whose values no request records. -/
def unrecordedFields : List ChunkField :=
  [.pauses, .emphasis, .nonVerbal, .voiceProfileId, .ttsProviderId, .seed, .targetSampleRate,
    .targetChannels, .reviewFlags]

theorem records_of_mem_unrecordedFields (body : UpdateAudioScriptChunkBody) {f : ChunkField}
    (hf : f ∈ unrecordedFields) : body.records f = false := by
  cases f <;> first | rfl | simp [unrecordedFields] at hf

theorem records_of_changed {body : UpdateAudioScriptChunkBody} {c : ChunkContent} {f : ChunkField}
    (hf : f ∉ unrecordedFields) (h : (body.write c).value f ≠ c.value f) :
    body.records f = true := by
  by_contra hnone
  refine h ?_
  clear h
  cases f <;> simp_all [UpdateAudioScriptChunkBody.records, UpdateAudioScriptChunkBody.write,
    ChunkContent.value, unrecordedFields] <;> rfl

/-! ## What a Request Does -/

theorem updateAudioScriptChunk_eq_ok {r : PatchRequest} {s s' : EditState}
    (h : updateAudioScriptChunk r s = .ok s') :
    ∃ chunk, requireChunk r s = .ok chunk ∧ chunk.state ≠ .locked ∧
      checkVoiceBinding r.body s = .ok () ∧ connects r.body s ∧
        s' = { s with chunks :=
          Function.update s.chunks r.chunkId (some (editedChunk chunk r.body r.sub r.now)) } := by
  obtain ⟨chunk, hchunk, h⟩ := except_bind_eq_ok_iff.mp h
  split at h
  · cases h
  · next hstate =>
    obtain ⟨_, hvoice, h⟩ := except_bind_eq_ok_iff.mp h
    dsimp only [updateChunk] at h
    split at h
    · cases h
    · next hconnects =>
      split at h
      · cases h
      · split at h
        · cases h
        · cases h
          exact ⟨chunk, hchunk, hstate, hvoice, not_not.mp hconnects, rfl⟩

theorem requireChunk_eq_ok_iff {r : PatchRequest} {s : EditState} {chunk : AudioScriptChunk} :
    requireChunk r s = .ok chunk ↔
      (∃ book, s.books r.bookId = some book ∧ book.tenantId = r.tenantId) ∧
        s.chunks r.chunkId = some chunk ∧ chunk.bookId = r.bookId ∧ chunk.isCurrent = true := by
  rw [requireChunk]
  cases hbook : s.books r.bookId with
  | none => simp
  | some book =>
    cases hchunk : s.chunks r.chunkId with
    | none => by_cases htenant : book.tenantId = r.tenantId <;> simp [htenant]
    | some c =>
      by_cases htenant : book.tenantId = r.tenantId
      · dsimp only
        rw [if_neg (not_not.mpr htenant)]
        by_cases hcurrent : c.bookId = r.bookId ∧ c.isCurrent = true
        · rw [if_pos hcurrent]
          constructor
          · rintro ⟨⟩
            exact ⟨⟨book, rfl, htenant⟩, rfl, hcurrent⟩
          · rintro ⟨-, ⟨⟩, -⟩
            rfl
        · rw [if_neg hcurrent]
          constructor
          · rintro ⟨⟩
          · rintro ⟨-, ⟨⟩, h⟩
            exact absurd h hcurrent
      · simp [htenant]

end AudioBook.ChunkEdits
