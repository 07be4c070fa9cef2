import Mathlib.Data.Int.Notation
import Mathlib.Tactic.Common

/-!
# Rows of the Database

The enumerations and the rows of the tables that the job queue, ingestion, the Director, speech
synthesis and assembly read and write. A nullable timestamp whose value nothing reads is kept as
the fact that it is set.
-/

namespace AudioBook

abbrev Id := ℕ

/-- A SHA-256 digest. -/
abbrev Hash := ℕ

/-- Text as a sequence of code points. -/
abbrev Text := List Char

instance : LawfulBEq Text := inferInstance

/-! ## Jobs -/

inductive JobStatus
  | created
  | queued
  | running
  | retrying
  | blocked
  | succeeded
  | failed
  | cancelled
  | deadLettered
  deriving DecidableEq, Repr

inductive JobType
  | parseBook
  | ocrPage
  | normalizeText
  | analyzeStructure
  | analyzeScene
  | buildStoryBibleDelta
  | generateDirectorIr
  | reviseDirectorIr
  | generateVoicePreview
  | generateTtsChunk
  | validateAudio
  | processAudio
  | verifyTranscript
  | assembleChapter
  | assembleAudiobook
  | encodeDeliveryFormat
  | cleanupArtifacts
  deriving DecidableEq, Repr

/-- `resource_type`, the types that are modelled. -/
inductive ResourceType
  | bookVersion
  | chapter
  | audioScript
  | audioScriptChunk
  | audioChunk
  | chapterAudio
  | audiobook
  deriving DecidableEq, Repr

inductive DeliveryFormat
  | m4b
  | m4a
  | mp3PerChapter
  deriving DecidableEq, Repr

/-- The `scope` of an assembly request. -/
inductive AssemblyScope
  | chapter
  | audiobook
  deriving DecidableEq, Repr

inductive TtsErrorCode
  | invalidAudioScript
  | voiceNotFound
  | voiceVersionInvalid
  | missingVoiceProfile
  | voiceModelIncompatible
  | modelNotFound
  | modelLoadFailed
  | gpuOutOfMemory
  | gpuUnavailable
  | voiceLanguageMismatch
  | unsupportedTtsCapability
  | providerTimeout
  | providerRateLimit
  | synthesisFailed
  | audioCorrupted
  | audioValidationFailed
  | outputStorageFailed
  | voiceModelUnavailable
  | voiceConsistencyViolation
  | artifactUploadUnverified
  | invalidSourceHash
  deriving DecidableEq, Repr

inductive ErrorCode
  | chapterManifestIncomplete
  | directorVersionMixingForbidden
  | chapterAssemblyFailed
  | audiobookAssemblyFailed
  | deliveryFormatEncodeFailed
  | dependencyFailure
  | audioScriptNotValidated
  | castingIncomplete
  | voiceProfileNotApproved
  | directorModelFailed
  | directorValidationFailed
  | voiceConsistencyViolation
  | invalidModelOutput
  | insufficientContext
  | jobNotFound
  | ttsJobNotFound
  | audioScriptNotFound
  | modelVersionNotRegistered
  | semanticAnalysisFailed
  | jobTransientFailure
  | workerDraining
  | tts (code : TtsErrorCode)
  | p2002
  /-- The database client's code for a violated foreign key. -/
  | p2003
  /-- The database client's code for an update of a row that is not there. -/
  | p2025
  deriving DecidableEq, Repr

/-- The `scope` document of a job: `{scope, delivery_formats}` on assembly jobs, `{format}` on
encode jobs. -/
structure JobScope where
  scope : Option AssemblyScope := none
  /-- The delivery formats of an assembly request. -/
  deliveryFormats : List DeliveryFormat := []
  format : Option DeliveryFormat := none
  deriving DecidableEq

/-- The payload of a `generate_director_ir` message. -/
structure DirectorPayload where
  bookId : Id
  bookVersionId : Id
  /-- The script being written, `null` in the first message of a run. -/
  audioScriptId : Option Id
  directorVersion : ℕ
  chapterId : Id
  remainingChapterIds : List Id
  allChapterIds : List Id
  rootJobId : Id
  /-- The `sequence_index` of the chapter's first chunk. -/
  sequenceIndexStart : ℕ
  deriving DecidableEq

/-- The `analysis_mode` of an analysis. -/
inductive AnalysisMode
  | incremental
  | rebuild
  deriving DecidableEq, Repr

/-- The payload of the messages of an analysis, `analyze_scene` and `build_story_bible_delta`. -/
structure AnalysisPayload where
  bookId : Id
  bookVersionId : Id
  /-- The story bible being written, missing in the first message of an analysis. -/
  storyBibleVersionId : Option Id
  chapterId : Id
  remainingChapterIds : List Id
  rootJobId : Id
  analysisMode : AnalysisMode
  deriving DecidableEq

inductive CommandPayload
  | analyzeScene (payload : AnalysisPayload)
  | buildStoryBibleDelta (payload : AnalysisPayload)
  | generateDirectorIr (payload : DirectorPayload)
  | reviseDirectorIr (bookId : Id) (chunkIds : List Id) (directorVersion : ℕ)
  | generateTtsChunk (audioScriptChunkId ttsJobId : Id)
  | assembleChapter (chapterId : Id)
  | assembleAudiobook (bookId : Id) (deliveryFormats : List DeliveryFormat)
  | encodeDeliveryFormat (audiobookId : Id) (format : DeliveryFormat)
  deriving DecidableEq

structure Envelope where
  /-- The id of the job, and of the message on the broker. -/
  jobId : Id
  entityId : Option Id
  payload : CommandPayload
  deriving DecidableEq

/-- The templates of `idempotency_key`. Ids and digests contain no separator, so two keys are
equal exactly when their templates and parts are. -/
inductive IdempotencyKey
  | assembleChapter (chapterId : Id) (manifestHash : Hash)
  | assembleAudiobook (bookVersionId : Id)
  | assembleAudiobookManifest (bookVersionId : Id) (manifestHash : Hash)
      (primaryFormat : DeliveryFormat)
  | encodeDeliveryFormat (audiobookId : Id) (format : DeliveryFormat)
  | analyzeScene (bookVersionId chapterId : Id) (analysisMode : AnalysisMode)
  | analysisRun (bookVersionId chapterId : Id) (analysisMode : AnalysisMode) (jobId : Id)
  | storyBible (storyBibleVersionId chapterId modelVersionId : Id)
  | directorRun (bookVersionId chapterId : Id) (directorVersion : ℕ) (jobId : Id)
  | directorChapter (audioScriptId chapterId : Id) (directorVersion : ℕ)
      (contextBundleHash : Hash)
  | ttsCoordinator (audioScriptId jobId : Id)
  | tts (audioScriptChunkId : Id) (voiceVersion : ℕ) (ttsModelVersionId : Id)
      (generationParamsHash : Hash)
  | other (key : ℕ)
  deriving DecidableEq, Repr

structure ProcessingJob where
  id : Id
  bookId : Option Id
  type : JobType
  status : JobStatus := .created
  relatedResourceType : ResourceType
  relatedResourceId : Id
  scope : Option JobScope := none
  parentJobId : Option Id := none
  attemptCount : ℕ := 0
  maxAttempts : ℕ := 3
  cancellationRequested : Bool := false
  errorCode : Option ErrorCode := none
  idempotencyKey : IdempotencyKey
  /-- The stored message, from which the sweeper re-enqueues a lost job. -/
  dispatchEnvelope : Option Envelope := none
  queued : Bool := false

/-! ## Books and Their Text -/

structure Book where
  id : Id
  currentBookVersionId : Option Id := none
  currentAudioScriptId : Option Id := none
  currentAudiobookId : Option Id := none
  /-- The title, the author and the language are all set. -/
  metadataComplete : Bool := true
  deletedAt : Bool := false

structure BookVersion where
  id : Id
  bookId : Id
  version : ℕ
  isCurrent : Bool
  contentHash : Hash
  pipelineVersion : ℕ
  superseded : Bool := false
  supersededByBookVersionId : Option Id := none

inductive MatterType
  | frontMatter
  | body
  | backMatter
  deriving DecidableEq, Repr

structure Chapter where
  id : Id
  bookId : Id
  bookVersionId : Id
  orderIndex : ℕ
  matterType : MatterType

structure Paragraph where
  id : Id
  bookVersionId : Id
  chapterId : Id
  orderIndex : ℕ
  spinePosition : ℕ
  text : Text

/-! ## Scripts -/

inductive AudioScriptState
  | draft
  | validated
  | superseded
  deriving DecidableEq, Repr

structure AudioScript where
  id : Id
  bookId : Id
  bookVersionId : Id
  version : ℕ
  supersedesAudioScriptId : Option Id := none
  supersededByAudioScriptId : Option Id := none
  isCurrent : Bool := false
  directorVersion : ℕ
  state : AudioScriptState := .draft
  coverageVerified : Bool := false
  coverageGapCount : ℕ := 0
  coverageOverlapCount : ℕ := 0
  jobId : Option Id

inductive AudioScriptChunkState
  | draft
  | validated
  | locked
  | superseded
  deriving DecidableEq, Repr

inductive SpeakerType
  | narrator
  | character
  | unknown
  | system
  deriving DecidableEq, Repr

/-- `audio_script_chunk_source`: the part of a paragraph that a chunk speaks. -/
structure ChunkSource where
  paragraphId : Id
  paragraphCharStart : ℤ
  paragraphCharEnd : ℤ
  deriving DecidableEq, Repr

/-- `audio_script_chunk`, joined with its one `audio_script_chunk_source` row. -/
structure AudioScriptChunk where
  id : Id
  bookId : Id
  audioScriptId : Id
  chapterId : Id
  sequenceIndex : ℕ
  chapterSequenceIndex : ℕ
  version : ℕ := 1
  supersedesChunkId : Option Id := none
  supersededByChunkId : Option Id := none
  isCurrent : Bool := true
  directorVersion : ℕ
  text : Text
  nonVerbal : Bool := false
  sceneId : Option Id := none
  speakerType : SpeakerType
  characterId : Option Id := none
  voiceProfileVersionId : Option Id := none
  fallbackApplied : Bool := false
  /-- `LOW_CONFIDENCE` is among `review_flags`. -/
  lowConfidence : Bool := false
  state : AudioScriptChunkState := .draft
  lockedAt : Bool := false
  currentAudioChunkId : Option Id := none
  sourceContentHash : Hash := 0
  source : ChunkSource

/-! ## Audio -/

inductive AudioChunkStatus
  | pending
  | generating
  | generated
  | validated
  | assembled
  | failed
  | invalid
  | superseded
  deriving DecidableEq, Repr

structure AudioChunk where
  id : Id
  audioScriptChunkId : Id
  ttsJobId : Id
  chapterId : Id
  supersedesAudioChunkId : Option Id := none
  supersededByAudioChunkId : Option Id := none
  isCurrent : Bool
  status : AudioChunkStatus
  contentHash : Hash
  durationMs : ℕ
  objectVerified : Bool
  voiceProfileVersionId : Id := 0
  generationParamsHash : Hash := 0
  sourceContentHash : Hash := 0

inductive TtsJobStatus
  | pending
  | running
  | succeeded
  | failed
  | cancelled
  deriving DecidableEq, Repr

structure TtsJob where
  id : Id
  audioScriptChunkId : Id
  status : TtsJobStatus
  audioChunkId : Option Id := none
  durationMs : Option ℕ := none
  voiceProfileVersionId : Id := 0
  generationParamsHash : Hash := 0
  ttsModelVersionId : Id := 0

inductive VoiceApprovalState
  | draft
  | previewGenerated
  | approved
  | locked
  | retired
  deriving DecidableEq, Repr

structure VoiceProfileVersion where
  id : Id
  approvalState : VoiceApprovalState
  /-- The number of the version within its profile. -/
  version : ℕ := 1
  ttsModelVersionId : Id := 0
  baseGenerationParamsHash : Hash := 0

inductive VoiceAssignmentRole
  | narrator
  | character
  deriving DecidableEq, Repr

structure VoiceAssignment where
  id : Id
  bookId : Id
  characterId : Id
  voiceProfileId : Id
  voiceProfileVersionId : Id
  role : VoiceAssignmentRole
  isActive : Bool
  supersededByAssignmentId : Option Id := none

inductive ChapterAudioStatus
  | pending
  | assembling
  | assembled
  | invalid
  | superseded
  deriving DecidableEq, Repr

structure ChapterAudio where
  id : Id
  chapterId : Id
  version : ℕ
  isCurrent : Bool
  isPreviewBuild : Bool := false
  status : ChapterAudioStatus
  chunkManifestHash : Hash
  directorVersion : ℕ
  voiceConsistencyVerified : Bool
  jobId : Option Id
  contentHash : Hash

inductive AudiobookStatus
  | draftMetadata
  | assembling
  | ready
  | failed
  | superseded
  deriving DecidableEq, Repr

structure AudiobookChapter where
  chapterId : Id
  chapterAudioId : Id
  deriving DecidableEq, Repr

/-- `audiobook`, with its `audiobook_chapter` rows in order. -/
structure Audiobook where
  id : Id
  bookId : Id
  bookVersionId : Id
  version : ℕ
  isCurrent : Bool
  isPreviewBuild : Bool := false
  status : AudiobookStatus
  containerFormat : DeliveryFormat
  chapterCount : ℕ
  chapterManifestHash : Hash
  jobId : Option Id
  chapters : List AudiobookChapter

/-- The `status` of an `audiobook_rendition`. -/
inductive RenditionStatus
  | pending
  | encoding
  | ready
  | failed
  deriving DecidableEq, Repr

structure AudiobookRendition where
  id : Id
  audiobookId : Id
  format : DeliveryFormat
  chapterId : Option Id
  status : RenditionStatus
  /-- `encode_params.policy_version` is the packaging policy in force. -/
  matchesCurrentPolicy : Bool

end AudioBook
