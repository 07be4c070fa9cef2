import AudioBook.Relational.Table
import AudioBook.Schema.Rows
import Mathlib.Logic.Function.Basic

/-!
# The Store of a Book's Lifecycle

What deleting, restoring and purging a book share with everything that writes its artifacts: the
book, its jobs, every table with rows that belong to it, the objects in the object store, and the
messages on the maintenance queue.

Of the foreign keys only the two that refer to the book without a cascade from it are modelled. A
statement that another one rejects is one of the refused accesses of a run.
-/

namespace AudioBook.Books

open Relational

abbrev StorageKey := ℕ

/-! ## Tables With Rows of a Book -/

/-- The tables that a purge empties, next to `processing_job` and `book`. -/
inductive BookTable
  | audiobookRendition
  | audiobookCover
  | audiobookChapter
  | audiobook
  | chapterAudioMember
  | chapterAudio
  | audioChunk
  | ttsJob
  | audioScriptChunkSource
  | audioScriptChunk
  | audioScript
  | voicePreview
  | voiceAssignment
  | voiceProfileVersion
  | voiceProfile
  | narrativeEmbedding
  | narrativeSummary
  | narrativeLocation
  | narrativeTimelineEvent
  | narrativeObject
  | narrativeFaction
  | narrativeThread
  | characterRelationship
  | sceneSemantics
  | narrativeState
  | storyBibleVersion
  | storyBible
  | pronunciationEntry
  | characterAlias
  | characterMerge
  | character
  | paragraph
  | scene
  | section
  | chapter
  | parsedPage
  | bookVersion
  | bookFile
  | processingAttempt
  | jobDependency
  | bookCounter
  deriving DecidableEq, Repr

inductive StorageClass
  | standard
  | infrequent
  | archived
  | expired
  deriving DecidableEq, Repr

inductive BookFileStatus
  | admitted
  | rejected
  | quarantined
  deriving DecidableEq, Repr

inductive VoiceProfileScope
  | tenant
  | book
  | system
  deriving DecidableEq, Repr

/-- A row of `audiobook_rendition`, beyond its id and its book. An empty key is `none`. -/
structure RenditionData where
  audiobookId : Id
  format : DeliveryFormat
  status : RenditionStatus
  storageKey : Option StorageKey
  deriving DecidableEq

/-- A row of `audiobook`, beyond its id and its book. -/
structure AudiobookData where
  isCurrent : Bool
  status : AudiobookStatus
  containerFormat : DeliveryFormat
  storageKey : StorageKey
  deriving DecidableEq

/-- A row of `chapter_audio`, beyond its id and its book. -/
structure ChapterAudioData where
  chapterId : Id
  isCurrent : Bool
  status : ChapterAudioStatus
  storageKey : StorageKey
  deriving DecidableEq

/-- A row of `audio_chunk`, beyond its id and its book. -/
structure AudioChunkData where
  audioScriptChunkId : Id
  isCurrent : Bool
  status : AudioChunkStatus
  storageKey : StorageKey
  storageClass : StorageClass := .standard
  createdAt : ℕ
  deriving DecidableEq

/-- A row of `voice_profile_version`, beyond its id. -/
structure VoiceProfileVersionData where
  voiceProfileId : Id
  referenceAudioStorageKey : Option StorageKey
  embeddingStorageKey : Option StorageKey
  deriving DecidableEq

/-- A row of `book_version`, beyond its id and its book. -/
structure BookVersionData where
  parsedDocumentStorageKey : Option StorageKey
  ocrReportStorageKey : Option StorageKey
  canonicalTextManifestStorageKey : Option StorageKey
  deriving DecidableEq

/-- A row of `book_file`, beyond its id and its book. -/
structure BookFileData where
  status : BookFileStatus
  storageKey : StorageKey
  storageClass : StorageClass := .standard
  sizeBytes : ℕ
  createdAt : ℕ
  deriving DecidableEq

/-- A row of `job_dependency`, beyond its id. -/
structure JobDependencyData where
  jobId : Id
  dependsOnJobId : Id
  deriving DecidableEq

/-- What a row of a table holds, beyond its id and its book. -/
def BookTable.Data : BookTable → Type
  | audiobookRendition => RenditionData
  | audiobookCover => StorageKey
  | audiobook => AudiobookData
  | chapterAudio => ChapterAudioData
  | audioChunk => AudioChunkData
  | voicePreview => Option StorageKey
  | voiceProfileVersion => VoiceProfileVersionData
  | voiceProfile => VoiceProfileScope
  | bookVersion => BookVersionData
  | bookFile => BookFileData
  | jobDependency => JobDependencyData
  | _ => Unit

structure BookRow (t : BookTable) where
  id : Id
  /-- `book_id`; `none` where the column is null or not there. -/
  bookId : Option Id
  data : t.Data

/-- The objects that a row refers to, as the purge selects them. -/
def BookTable.objectKeys : (t : BookTable) → t.Data → List StorageKey
  | audiobookRendition, data => RenditionData.storageKey data |>.toList
  | audiobookCover, key => [key]
  | audiobook, data => [AudiobookData.storageKey data]
  | chapterAudio, data => [ChapterAudioData.storageKey data]
  | audioChunk, data => [AudioChunkData.storageKey data]
  | voicePreview, key => Option.toList key
  | voiceProfileVersion, data =>
      (VoiceProfileVersionData.referenceAudioStorageKey data).toList ++
        (VoiceProfileVersionData.embeddingStorageKey data).toList
  | bookVersion, data =>
      (BookVersionData.parsedDocumentStorageKey data).toList ++
        (BookVersionData.ocrReportStorageKey data).toList ++
        (BookVersionData.canonicalTextManifestStorageKey data).toList
  | bookFile, data => [BookFileData.storageKey data]
  | _, _ => []

def BookRow.objectKeys {t : BookTable} (row : BookRow t) : List StorageKey :=
  t.objectKeys row.data

def BookRow.scope (row : BookRow .voiceProfile) : VoiceProfileScope := row.data

/-! ## Books and Jobs -/

structure Book where
  id : Id
  tenantId : Id
  deleted : Bool := false
  completed : Bool := false
  currentBookVersionId : Option Id := none
  currentAudiobookId : Option Id := none
  deriving DecidableEq

/-- The `idempotency_key` of a job. -/
inductive BookJobKey
  | purgeBook (bookId : Id)
  | other (key : ℕ)
  deriving DecidableEq

/-- `purgeBookEnvelope`: the message of a purge. -/
structure PurgeMessage where
  jobId : Id
  bookId : Id
  deriving DecidableEq

/-- `processing_job`. -/
structure BookJob where
  id : Id
  tenantId : Id
  bookId : Option Id
  status : JobStatus := .created
  errorCode : Option ErrorCode := none
  idempotencyKey : BookJobKey
  /-- `dispatch_envelope`, for the jobs of the maintenance queue. -/
  dispatchEnvelope : Option PurgeMessage := none
  queued : Bool := false
  deriving DecidableEq

/-- A row of `outbox_message`. -/
structure OutboxMessage where
  id : Id
  bookId : Option Id
  deriving DecidableEq

/-! ## The Store -/

structure BookStore where
  books : List Book := []
  processingJobs : List BookJob := []
  outboxMessages : List OutboxMessage := []
  /-- The rows of the tables that belong to books. -/
  rows : (t : BookTable) → List (BookRow t) := fun _ => []
  /-- The objects that are in the object store. -/
  objects : List StorageKey := []
  /-- The books with a `BOOK_PURGED` row in `audit_log`. -/
  purged : List Id := []
  storageBytes : ℤ := 0
  /-- The messages that were put on the maintenance queue. -/
  queue : List PurgeMessage := []
  /-- The next id that `generateId` hands out. -/
  nextId : Id := 0

namespace BookStore

def setRows (s : BookStore) (t : BookTable) (rows : List (BookRow t)) : BookStore :=
  { s with rows := Function.update s.rows t rows }

@[simp]
theorem setRows_self (s : BookStore) (t : BookTable) (rows : List (BookRow t)) :
    (s.setRows t rows).rows t = rows := by
  simp [setRows]

@[simp]
theorem setRows_of_ne (s : BookStore) {t t' : BookTable} (h : t' ≠ t) (rows : List (BookRow t)) :
    (s.setRows t rows).rows t' = s.rows t' := by
  simp [setRows, h]

def findBook (s : BookStore) (bookId : Id) : Option Book :=
  s.books.find? fun b => decide (b.id = bookId)

def findJob (s : BookStore) (jobId : Id) : Option BookJob :=
  s.processingJobs.find? fun job => decide (job.id = jobId)

/-- The book is there, and `deleted_at` is null. -/
def Live (s : BookStore) (bookId : Id) : Prop :=
  ∃ b ∈ s.books, b.id = bookId ∧ b.deleted = false

instance (s : BookStore) (bookId : Id) : Decidable (s.Live bookId) :=
  inferInstanceAs (Decidable (∃ b ∈ s.books, b.id = bookId ∧ b.deleted = false))

end BookStore

/-- What a request or a delivery can raise. -/
inductive BookError
  | violation (v : Violation)
  | recordNotFound
  | validation
  /-- The book is not there, or belongs to another tenant. -/
  | notFound
  | forbidden
  | invalidStateTransition
  | bookHasActiveJobs
  | resourcePurged
  | artifactNotReady
  | formatNotAvailable
  | other
  deriving DecidableEq

instance : OfViolation BookError := ⟨BookError.violation⟩

abbrev BookTx := Transaction BookStore BookError

/-! ## Tables With Constraints -/

/-- The key under which a job occupies `processing_job_tenant_idempotency_key`. -/
def BookJob.activeIdempotencyKey (job : BookJob) : Option (Id × BookJobKey) :=
  if job.status ∈ [.failed, .cancelled, .deadLettered] then none
  else some (job.tenantId, job.idempotencyKey)

/-- The table `processing_job`; the check is `processing_job_terminal_error_code_chk`. -/
def processingJob : Table BookStore BookJob where
  rows := BookStore.processingJobs
  setRows rows s := { s with processingJobs := rows }
  constraints := [
    .uniqueWhere fun job => some job.id,
    .uniqueWhere BookJob.activeIdempotencyKey,
    .check fun job => decide (job.status ∈ [.failed, .deadLettered] → job.errorCode.isSome)]

/-- Update a job by id; the database client raises when it is not there. -/
def updateJob (jobId : Id) (f : BookJob → BookJob) : BookTx Unit := do
  if ((← get).findJob jobId).isSome then
    processingJob.update (fun job => decide (job.id = jobId)) f
  else throw .recordNotFound

/-- Update a book by id; the database client raises when it is not there. -/
def updateBook (bookId : Id) (f : Book → Book) : BookTx Unit := do
  if ((← get).findBook bookId).isSome then
    modify fun s =>
      { s with books := updateWhere (fun b => decide (b.id = bookId)) f s.books }
  else throw .recordNotFound

/-- `book.deleteMany` of one book. The foreign keys `processing_job_book_id_fkey` and
`outbox_message_book_id_fkey` are `ON DELETE RESTRICT`. -/
def deleteBookRow (bookId : Id) : BookTx Unit := do
  let s ← get
  if s.books.any (fun b => decide (b.id = bookId)) ∧
      (s.processingJobs.any (fun job => decide (job.bookId = some bookId)) ∨
        s.outboxMessages.any (fun m => decide (m.bookId = some bookId))) then
    throw (.violation .foreignKey)
  else set { s with books := s.books.filter fun b => decide (b.id ≠ bookId) }

/-- `deleteMany` on a table. -/
def deleteRows (t : BookTable) (p : BookRow t → Bool) : BookTx Unit :=
  modify fun s => s.setRows t ((s.rows t).filter fun row => !p row)

end AudioBook.Books
