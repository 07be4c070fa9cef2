import AudioBook.Schema.Store

/-!
# What the Constraints of the Tables Say

For every table, the constraints as named facts about its rows.
-/

namespace AudioBook

open Relational

namespace Db

/-- The constraints of `processing_job`. -/
structure ProcessingJobsOk (rows : List ProcessingJob) : Prop where
  id : (rows.map ProcessingJob.id).Nodup
  activeKey : UniqueWhere ProcessingJob.activeIdempotencyKey rows
  attemptCount : ∀ job ∈ rows, job.attemptCount ≤ job.maxAttempts + 1
  errorCode : ∀ job ∈ rows, job.status ∈ [.failed, .deadLettered] → job.errorCode.isSome
  parent : SelfReferencing ProcessingJob.id ProcessingJob.parentJobId rows

theorem processingJob_accepts_iff {rows : List ProcessingJob} :
    processingJob.Accepts rows ↔ ProcessingJobsOk rows := by
  simp only [Table.Accepts, processingJob, List.forall_mem_cons, List.not_mem_nil,
    Constraint.holds_uniqueWhere, Constraint.holds_check, Constraint.holds_selfReference,
    uniqueWhere_some, decide_eq_true_eq]
  constructor
  · rintro ⟨h₁, h₂, h₃, h₄, h₅, -⟩
    exact ⟨h₁, h₂, h₃, h₄, h₅⟩
  · rintro ⟨h₁, h₂, h₃, h₄, h₅⟩
    exact ⟨h₁, h₂, h₃, h₄, h₅, by simp⟩

theorem book_accepts_iff {rows : List Book} : book.Accepts rows ↔ (rows.map Book.id).Nodup := by
  simp [Table.Accepts, book, uniqueWhere_some]

/-- The constraints of `book_version`. -/
structure BookVersionsOk (rows : List BookVersion) : Prop where
  id : (rows.map BookVersion.id).Nodup
  version : (rows.map fun v => (v.bookId, v.version)).Nodup
  current : UniqueWhere bookVersionCurrentKey rows
  content : UniqueWhere bookVersionContentKey rows
  supersededBy : SelfReferencing BookVersion.id BookVersion.supersededByBookVersionId rows

theorem bookVersion_accepts_iff {rows : List BookVersion} :
    bookVersion.Accepts rows ↔ BookVersionsOk rows := by
  simp only [Table.Accepts, bookVersion, List.forall_mem_cons, List.not_mem_nil,
    Constraint.holds_uniqueWhere, Constraint.holds_selfReference, uniqueWhere_some]
  constructor
  · rintro ⟨h₁, h₂, h₃, h₄, h₅, -⟩
    exact ⟨h₁, h₂, h₃, h₄, h₅⟩
  · rintro ⟨h₁, h₂, h₃, h₄, h₅⟩
    exact ⟨h₁, h₂, h₃, h₄, h₅, by simp⟩

theorem chapter_accepts_iff {rows : List Chapter} :
    chapter.Accepts rows ↔ (rows.map Chapter.id).Nodup ∧
      (rows.map fun c => (c.bookVersionId, c.orderIndex)).Nodup := by
  simp [Table.Accepts, chapter, uniqueWhere_some]

theorem paragraph_accepts_iff {rows : List Paragraph} :
    paragraph.Accepts rows ↔ (rows.map Paragraph.id).Nodup ∧
      (rows.map fun p => (p.bookVersionId, p.spinePosition)).Nodup := by
  simp [Table.Accepts, paragraph, uniqueWhere_some]

/-- The constraints of `audio_script`. -/
structure AudioScriptsOk (rows : List AudioScript) : Prop where
  id : (rows.map AudioScript.id).Nodup
  version : (rows.map fun script => (script.bookId, script.version)).Nodup
  current : UniqueWhere audioScriptCurrentKey rows
  coverage : ∀ script ∈ rows, coverageInvariant script = true
  supersedes : SelfReferencing AudioScript.id AudioScript.supersedesAudioScriptId rows
  supersededBy : SelfReferencing AudioScript.id AudioScript.supersededByAudioScriptId rows

theorem audioScript_accepts_iff {rows : List AudioScript} :
    audioScript.Accepts rows ↔ AudioScriptsOk rows := by
  simp only [Table.Accepts, audioScript, List.forall_mem_cons, List.not_mem_nil,
    Constraint.holds_uniqueWhere, Constraint.holds_check, Constraint.holds_selfReference,
    uniqueWhere_some]
  constructor
  · rintro ⟨h₁, h₂, h₃, h₄, h₅, h₆, -⟩
    exact ⟨h₁, h₂, h₃, h₄, h₅, h₆⟩
  · rintro ⟨h₁, h₂, h₃, h₄, h₅, h₆⟩
    exact ⟨h₁, h₂, h₃, h₄, h₅, h₆, by simp⟩

/-- The constraints of `audio_script_chunk`. -/
structure AudioScriptChunksOk (rows : List AudioScriptChunk) : Prop where
  id : (rows.map AudioScriptChunk.id).Nodup
  sequence : UniqueWhere chunkSequenceCurrentKey rows
  speaker : ∀ chunk ∈ rows, chunk.speakerType = .character → chunk.characterId.isSome
  locked : ∀ chunk ∈ rows,
    chunk.state = .locked → chunk.voiceProfileVersionId.isSome ∧ chunk.lockedAt
  text : ∀ chunk ∈ rows, 0 < chunk.text.length ∨ chunk.nonVerbal
  supersedes : SelfReferencing AudioScriptChunk.id AudioScriptChunk.supersedesChunkId rows
  supersededBy : SelfReferencing AudioScriptChunk.id AudioScriptChunk.supersededByChunkId rows

theorem audioScriptChunk_accepts_iff {rows : List AudioScriptChunk} :
    audioScriptChunk.Accepts rows ↔ AudioScriptChunksOk rows := by
  simp only [Table.Accepts, audioScriptChunk, List.forall_mem_cons, List.not_mem_nil,
    Constraint.holds_uniqueWhere, Constraint.holds_check, Constraint.holds_selfReference,
    uniqueWhere_some, decide_eq_true_eq]
  constructor
  · rintro ⟨h₁, h₂, h₃, h₄, h₅, h₆, h₇, -⟩
    exact ⟨h₁, h₂, h₃, h₄, h₅, h₆, h₇⟩
  · rintro ⟨h₁, h₂, h₃, h₄, h₅, h₆, h₇⟩
    exact ⟨h₁, h₂, h₃, h₄, h₅, h₆, h₇, by simp⟩

/-- The constraints of `audio_chunk`. -/
structure AudioChunksOk (rows : List AudioChunk) : Prop where
  id : (rows.map AudioChunk.id).Nodup
  current : UniqueWhere audioChunkCurrentKey rows
  verified : ∀ chunk ∈ rows,
    chunk.status ∈ [.generated, .validated, .assembled] → chunk.objectVerified
  supersedes : SelfReferencing AudioChunk.id AudioChunk.supersedesAudioChunkId rows
  supersededBy : SelfReferencing AudioChunk.id AudioChunk.supersededByAudioChunkId rows

theorem audioChunk_accepts_iff {rows : List AudioChunk} :
    audioChunk.Accepts rows ↔ AudioChunksOk rows := by
  simp only [Table.Accepts, audioChunk, List.forall_mem_cons, List.not_mem_nil,
    Constraint.holds_uniqueWhere, Constraint.holds_check, Constraint.holds_selfReference,
    uniqueWhere_some, decide_eq_true_eq]
  constructor
  · rintro ⟨h₁, h₂, h₃, h₄, h₅, -⟩
    exact ⟨h₁, h₂, h₃, h₄, h₅⟩
  · rintro ⟨h₁, h₂, h₃, h₄, h₅⟩
    exact ⟨h₁, h₂, h₃, h₄, h₅, by simp⟩

/-- The constraints of `voice_assignment`. -/
structure VoiceAssignmentsOk (rows : List VoiceAssignment) : Prop where
  id : (rows.map VoiceAssignment.id).Nodup
  active : UniqueWhere voiceAssignmentActiveKey rows
  supersededBy :
    SelfReferencing VoiceAssignment.id VoiceAssignment.supersededByAssignmentId rows

theorem voiceAssignment_accepts_iff {rows : List VoiceAssignment} :
    voiceAssignment.Accepts rows ↔ VoiceAssignmentsOk rows := by
  simp only [Table.Accepts, voiceAssignment, List.forall_mem_cons, List.not_mem_nil,
    Constraint.holds_uniqueWhere, Constraint.holds_selfReference, uniqueWhere_some]
  constructor
  · rintro ⟨h₁, h₂, h₃, -⟩
    exact ⟨h₁, h₂, h₃⟩
  · rintro ⟨h₁, h₂, h₃⟩
    exact ⟨h₁, h₂, h₃, by simp⟩

/-- The constraints of `chapter_audio`. -/
structure ChapterAudiosOk (rows : List ChapterAudio) : Prop where
  id : (rows.map ChapterAudio.id).Nodup
  version : (rows.map fun a => (a.chapterId, a.version)).Nodup
  manifest : UniqueWhere (fun a : ChapterAudio =>
    if a.isPreviewBuild then none else some (a.chapterId, a.chunkManifestHash)) rows
  current : UniqueWhere (fun a : ChapterAudio =>
    if a.isCurrent && !a.isPreviewBuild then some a.chapterId else none) rows
  voices : ∀ a ∈ rows, a.status = .assembled → a.isPreviewBuild ∨ a.voiceConsistencyVerified

theorem chapterAudio_accepts_iff {rows : List ChapterAudio} :
    chapterAudio.Accepts rows ↔ ChapterAudiosOk rows := by
  simp only [Table.Accepts, chapterAudio, List.forall_mem_cons, List.not_mem_nil,
    Constraint.holds_uniqueWhere, Constraint.holds_check, uniqueWhere_some, decide_eq_true_eq]
  constructor
  · rintro ⟨h₁, h₂, h₃, h₄, h₅, -⟩
    exact ⟨h₁, h₂, h₃, h₄, h₅⟩
  · rintro ⟨h₁, h₂, h₃, h₄, h₅⟩
    exact ⟨h₁, h₂, h₃, h₄, h₅, by simp⟩

/-- The constraints of `audiobook`. -/
structure AudiobooksOk (rows : List Audiobook) : Prop where
  id : (rows.map Audiobook.id).Nodup
  version : (rows.map fun a => (a.bookId, a.version)).Nodup
  current : UniqueWhere audiobookCurrentKey rows

theorem audiobook_accepts_iff {rows : List Audiobook} :
    audiobook.Accepts rows ↔ AudiobooksOk rows := by
  simp only [Table.Accepts, audiobook, List.forall_mem_cons, List.not_mem_nil,
    Constraint.holds_uniqueWhere, uniqueWhere_some]
  constructor
  · rintro ⟨h₁, h₂, h₃, -⟩
    exact ⟨h₁, h₂, h₃⟩
  · rintro ⟨h₁, h₂, h₃⟩
    exact ⟨h₁, h₂, h₃, by simp⟩

/-- The constraints of `audiobook_rendition`. -/
structure AudiobookRenditionsOk (rows : List AudiobookRendition) : Prop where
  id : (rows.map AudiobookRendition.id).Nodup
  target : (rows.map fun r => (r.audiobookId, r.format, r.chapterId)).Nodup
  mp3PerChapter : ∀ r ∈ rows, r.format = .mp3PerChapter ↔ r.chapterId.isSome

theorem audiobookRendition_accepts_iff {rows : List AudiobookRendition} :
    audiobookRendition.Accepts rows ↔ AudiobookRenditionsOk rows := by
  simp only [Table.Accepts, audiobookRendition, List.forall_mem_cons, List.not_mem_nil,
    Constraint.holds_uniqueWhere, Constraint.holds_check, uniqueWhere_some, decide_eq_true_eq]
  constructor
  · rintro ⟨h₁, h₂, h₃, -⟩
    exact ⟨h₁, h₂, h₃⟩
  · rintro ⟨h₁, h₂, h₃⟩
    exact ⟨h₁, h₂, h₃, by simp⟩

end Db

end AudioBook
