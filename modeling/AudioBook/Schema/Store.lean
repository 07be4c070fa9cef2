import AudioBook.Relational.Table
import AudioBook.Schema.Rows

/-!
# The Store and Its Constraints

Everything the services share: the database tables with the constraints that the migrations
declare on them, the messages on the broker, and the cancellation flags in the cache. Foreign
keys into rows that are never deleted while the services run are left out; the self-references,
which a transaction can break by the order of its statements, are kept.
-/

namespace AudioBook

open Relational

/-- The state that the services share. -/
structure Store where
  processingJobs : List ProcessingJob := []
  books : List Book := []
  bookVersions : List BookVersion := []
  chapters : List Chapter := []
  paragraphs : List Paragraph := []
  audioScripts : List AudioScript := []
  audioScriptChunks : List AudioScriptChunk := []
  audioChunks : List AudioChunk := []
  ttsJobs : List TtsJob := []
  voiceAssignments : List VoiceAssignment := []
  voiceProfileVersions : List VoiceProfileVersion := []
  chapterAudios : List ChapterAudio := []
  audiobooks : List Audiobook := []
  audiobookRenditions : List AudiobookRendition := []
  /-- The messages that were put on the broker and not removed. -/
  queue : List Envelope := []
  /-- The jobs whose cancellation flag is set in the cache. -/
  cancellationFlags : List Id := []
  /-- The next id that `generateId` hands out. -/
  nextId : Id := 0

inductive Fault
  | violation (v : Violation)
  | coded (code : ErrorCode)
  | uncoded
  deriving DecidableEq, Repr

instance : OfViolation Fault := ⟨Fault.violation⟩

abbrev Tx := Transaction Store Fault

/-- Hand out a fresh id. -/
def generateId : Tx Id := fun s => .ok (s.nextId, { s with nextId := s.nextId + 1 })

/-- Hand out `n` fresh ids. -/
def generateIds (n : ℕ) : Tx (List Id) := fun s =>
  .ok (List.range' s.nextId n, { s with nextId := s.nextId + n })

namespace ProcessingJob

/-- The key under which a job occupies `processing_job_tenant_idempotency_key`. -/
def activeIdempotencyKey (job : ProcessingJob) : Option IdempotencyKey :=
  if job.status ∈ [.failed, .cancelled, .deadLettered] then none else some job.idempotencyKey

end ProcessingJob

namespace Db

/-- The table `processing_job`. -/
def processingJob : Table Store ProcessingJob where
  rows := Store.processingJobs
  setRows rows s := { s with processingJobs := rows }
  constraints := [
    .uniqueWhere fun job => some job.id,
    .uniqueWhere ProcessingJob.activeIdempotencyKey,
    .check fun job => decide (job.attemptCount ≤ job.maxAttempts + 1),
    .check fun job => decide (job.status ∈ [.failed, .deadLettered] → job.errorCode.isSome),
    .selfReference ProcessingJob.id ProcessingJob.parentJobId]

/-- The table `book`. -/
def book : Table Store Book where
  rows := Store.books
  setRows rows s := { s with books := rows }
  constraints := [.uniqueWhere fun b => some b.id]

/-- The key of `book_version_current_key`. -/
def bookVersionCurrentKey (v : BookVersion) : Option Id :=
  if v.isCurrent then some v.bookId else none

/-- The key of `book_version_pipeline_content_hash_key`. -/
def bookVersionContentKey (v : BookVersion) : Option (Id × ℕ × Hash) :=
  if v.superseded then none else some (v.bookId, v.pipelineVersion, v.contentHash)

/-- The table `book_version`. -/
def bookVersion : Table Store BookVersion where
  rows := Store.bookVersions
  setRows rows s := { s with bookVersions := rows }
  constraints := [
    .uniqueWhere fun v => some v.id,
    .uniqueWhere fun v => some (v.bookId, v.version),
    .uniqueWhere bookVersionCurrentKey,
    .uniqueWhere bookVersionContentKey,
    .selfReference BookVersion.id BookVersion.supersededByBookVersionId]

/-- The table `chapter`. -/
def chapter : Table Store Chapter where
  rows := Store.chapters
  setRows rows s := { s with chapters := rows }
  constraints := [
    .uniqueWhere fun c => some c.id,
    .uniqueWhere fun c => some (c.bookVersionId, c.orderIndex)]

/-- The table `paragraph`. -/
def paragraph : Table Store Paragraph where
  rows := Store.paragraphs
  setRows rows s := { s with paragraphs := rows }
  constraints := [
    .uniqueWhere fun p => some p.id,
    .uniqueWhere fun p => some (p.bookVersionId, p.spinePosition)]

/-- The key of `audio_script_current_key`. -/
def audioScriptCurrentKey (script : AudioScript) : Option Id :=
  if script.isCurrent then some script.bookId else none

/-- `audio_script_coverage_invariant_chk`. -/
def coverageInvariant (script : AudioScript) : Bool :=
  decide (script.state = .validated → script.coverageVerified ∧ script.coverageGapCount = 0 ∧
    script.coverageOverlapCount = 0)

/-- The table `audio_script`. -/
def audioScript : Table Store AudioScript where
  rows := Store.audioScripts
  setRows rows s := { s with audioScripts := rows }
  constraints := [
    .uniqueWhere fun script => some script.id,
    .uniqueWhere fun script => some (script.bookId, script.version),
    .uniqueWhere audioScriptCurrentKey,
    .check coverageInvariant,
    .selfReference AudioScript.id AudioScript.supersedesAudioScriptId,
    .selfReference AudioScript.id AudioScript.supersededByAudioScriptId]

/-- The key of `audio_script_chunk_sequence_current_key`. -/
def chunkSequenceCurrentKey (chunk : AudioScriptChunk) : Option (Id × ℕ) :=
  if chunk.isCurrent then some (chunk.audioScriptId, chunk.sequenceIndex) else none

/-- The table `audio_script_chunk`. -/
def audioScriptChunk : Table Store AudioScriptChunk where
  rows := Store.audioScriptChunks
  setRows rows s := { s with audioScriptChunks := rows }
  constraints := [
    .uniqueWhere fun chunk => some chunk.id,
    .uniqueWhere chunkSequenceCurrentKey,
    .check fun chunk => decide (chunk.speakerType = .character → chunk.characterId.isSome),
    .check fun chunk =>
      decide (chunk.state = .locked → chunk.voiceProfileVersionId.isSome ∧ chunk.lockedAt),
    .check fun chunk => decide (0 < chunk.text.length ∨ chunk.nonVerbal),
    .selfReference AudioScriptChunk.id AudioScriptChunk.supersedesChunkId,
    .selfReference AudioScriptChunk.id AudioScriptChunk.supersededByChunkId]

/-- The key of `audio_chunk_current_key`. -/
def audioChunkCurrentKey (chunk : AudioChunk) : Option Id :=
  if chunk.isCurrent then some chunk.audioScriptChunkId else none

/-- The table `audio_chunk`. -/
def audioChunk : Table Store AudioChunk where
  rows := Store.audioChunks
  setRows rows s := { s with audioChunks := rows }
  constraints := [
    .uniqueWhere fun chunk => some chunk.id,
    .uniqueWhere audioChunkCurrentKey,
    .check fun chunk =>
      decide (chunk.status ∈ [.generated, .validated, .assembled] → chunk.objectVerified),
    .selfReference AudioChunk.id AudioChunk.supersedesAudioChunkId,
    .selfReference AudioChunk.id AudioChunk.supersededByAudioChunkId]

/-- The table `tts_job`. -/
def ttsJob : Table Store TtsJob where
  rows := Store.ttsJobs
  setRows rows s := { s with ttsJobs := rows }
  constraints := [.uniqueWhere fun job => some job.id]

/-- The key of `voice_assignment_active_key`. -/
def voiceAssignmentActiveKey (a : VoiceAssignment) : Option (Id × Id × VoiceAssignmentRole) :=
  if a.isActive then some (a.bookId, a.characterId, a.role) else none

/-- The table `voice_assignment`. -/
def voiceAssignment : Table Store VoiceAssignment where
  rows := Store.voiceAssignments
  setRows rows s := { s with voiceAssignments := rows }
  constraints := [
    .uniqueWhere fun a => some a.id,
    .uniqueWhere voiceAssignmentActiveKey,
    .selfReference VoiceAssignment.id VoiceAssignment.supersededByAssignmentId]

/-- The table `chapter_audio`. -/
def chapterAudio : Table Store ChapterAudio where
  rows := Store.chapterAudios
  setRows rows s := { s with chapterAudios := rows }
  constraints := [
    .uniqueWhere fun a => some a.id,
    .uniqueWhere fun a => some (a.chapterId, a.version),
    .uniqueWhere fun a => if a.isPreviewBuild then none else some (a.chapterId, a.chunkManifestHash),
    .uniqueWhere fun a => if a.isCurrent && !a.isPreviewBuild then some a.chapterId else none,
    .check fun a =>
      decide (a.status = .assembled → a.isPreviewBuild ∨ a.voiceConsistencyVerified)]

/-- The key of the unique index on the current audiobook of a book. -/
def audiobookCurrentKey (a : Audiobook) : Option Id :=
  if a.isCurrent && !a.isPreviewBuild then some a.bookId else none

/-- The table `audiobook`. -/
def audiobook : Table Store Audiobook where
  rows := Store.audiobooks
  setRows rows s := { s with audiobooks := rows }
  constraints := [
    .uniqueWhere fun a => some a.id,
    .uniqueWhere fun a => some (a.bookId, a.version),
    .uniqueWhere audiobookCurrentKey]

/-- The table `audiobook_rendition`. -/
def audiobookRendition : Table Store AudiobookRendition where
  rows := Store.audiobookRenditions
  setRows rows s := { s with audiobookRenditions := rows }
  constraints := [
    .uniqueWhere fun r => some r.id,
    .uniqueWhere fun r => some (r.audiobookId, r.format, r.chapterId),
    .check fun r => decide (r.format = .mp3PerChapter ↔ r.chapterId.isSome)]

end Db

end AudioBook
