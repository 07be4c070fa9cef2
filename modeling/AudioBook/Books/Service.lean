import AudioBook.Books.Access

/-!
# The Books Service

The operations of the API on a book that is to be deleted: the soft delete, its undo, and the
request of a purge, each behind the guard that answers for purged books; the sweeper that resends
a purge that was created and never dispatched; and the endpoints that hand out the objects of a
book.
-/

namespace AudioBook.Books

open Relational Concurrent

structure Principal where
  tenantId : Id
  /-- The principal has the role `TENANT_OWNER`. -/
  isTenantOwner : Bool

/-! ## Checks -/

def bookPurgeGuard (bookId : Id) : BookProg Unit := do
  if ← query fun s => decide (bookId ∈ s.purged) then throw .resourcePurged

/-- `requireRole(principal, 'TENANT_OWNER')`. -/
def requireTenantOwner (principal : Principal) : BookProg Unit :=
  if principal.isTenantOwner then pure () else throw .forbidden

def findOwnedBook (tenantId bookId : Id) (s : BookStore) : Option Book :=
  s.books.find? fun b => decide (b.id = bookId ∧ b.tenantId = tenantId)

def requireOwnedBook (principal : Principal) (bookId : Id) : BookProg Book := do
  match ← query (findOwnedBook principal.tenantId bookId) with
  | some b => return b
  | none => throw .notFound

def countJobs (bookId : Id) (statuses : List JobStatus) (s : BookStore) : ℕ :=
  s.processingJobs.countP fun job => decide (job.bookId = some bookId ∧ job.status ∈ statuses)

def activeJobStatuses : List JobStatus := [.created, .queued, .running, .retrying, .blocked]

/-! ## Operations -/

def deleteBook (principal : Principal) (bookId : Id) : BookProg Unit := do
  bookPurgeGuard bookId
  let b ← requireOwnedBook principal bookId
  if b.deleted then return else
  let activeJobs ← query (countJobs bookId [.queued, .running, .retrying])
  if activeJobs > 0 then throw .bookHasActiveJobs else
  run (.softDelete bookId)

def restoreBook (principal : Principal) (bookId : Id) : BookProg Unit := do
  bookPurgeGuard bookId
  requireTenantOwner principal
  let b ← requireOwnedBook principal bookId
  if ¬ b.deleted then throw .invalidStateTransition else
  run (.restore bookId)

def enqueueProcessingJob (message : PurgeMessage) : BookProg Unit := do
  run (.enqueue message)
  run (.markQueued message.jobId)

/-- `purgeBook`; `confirmBookId` is the `confirm_book_id` of the body. -/
def purgeBook (principal : Principal) (bookId confirmBookId : Id) : BookProg Unit := do
  bookPurgeGuard bookId
  requireTenantOwner principal
  if confirmBookId ≠ bookId then throw .validation else
  let b ← requireOwnedBook principal bookId
  if ¬ b.deleted then throw .invalidStateTransition else
  let activeJobs ← query (countJobs bookId activeJobStatuses)
  if activeJobs > 0 then throw .bookHasActiveJobs else
  let jobId ← Prog.atomically (.createPurge bookId principal.tenantId)
    (createPurge bookId principal.tenantId)
  enqueueProcessingJob ⟨jobId, bookId⟩

/-! ## The Sweeper -/

/-- The stored messages of the jobs that were never dispatched. -/
def findUndispatched (s : BookStore) : List PurgeMessage :=
  (s.processingJobs.filter fun job => decide (job.status = .created ∧ job.queued = false)).filterMap
    BookJob.dispatchEnvelope

/-- Send each message again; an error is reported and the next one is sent. -/
def resend : List PurgeMessage → BookProg Unit
  | [] => pure ()
  | message :: messages => do
      tryCatch (enqueueProcessingJob message) fun _ => pure ()
      resend messages

def pollOnce : BookProg Unit := do
  let messages ← query findUndispatched
  resend messages

/-! ## Endpoints That Hand Out Objects -/

inductive AccessUrlRequest
  | audioChunk (bookId audioChunkId : Id)
  | chapterAudio (bookId chapterAudioId : Id)
  | audiobook (bookId audiobookId : Id) (format : Option DeliveryFormat)
  | text (bookId : Id)
  deriving DecidableEq

def findRow (t : BookTable) (bookId rowId : Id) (s : BookStore) : Option (BookRow t) :=
  (s.rows t).find? fun row => decide (row.id = rowId ∧ row.bookId = some bookId)

def createAudioChunkAccessUrl (bookId audioChunkId : Id) (s : BookStore) :
    Except BookError StorageKey :=
  match findRow .audioChunk bookId audioChunkId s with
  | none => throw .notFound
  | some row =>
    let data : AudioChunkData := row.data
    if data.status ∈ [.generated, .validated, .invalid] then return data.storageKey
    else throw .artifactNotReady

def createChapterAudioAccessUrl (bookId chapterAudioId : Id) (s : BookStore) :
    Except BookError StorageKey :=
  match findRow .chapterAudio bookId chapterAudioId s with
  | none => throw .notFound
  | some row =>
    let data : ChapterAudioData := row.data
    if data.status = .assembled then return data.storageKey else throw .artifactNotReady

/-- A `READY` rendition of an audiobook with an object. -/
def findReadyRendition (audiobookId : Id) (format : DeliveryFormat) (s : BookStore) :
    Option StorageKey :=
  (s.rows .audiobookRendition).findSome? fun row =>
    let data : RenditionData := row.data
    if data.audiobookId = audiobookId ∧ data.format = format ∧ data.status = .ready then
      data.storageKey
    else none

def createAudiobookAccessUrl (bookId audiobookId : Id) (format : Option DeliveryFormat)
    (s : BookStore) : Except BookError StorageKey :=
  match findRow .audiobook bookId audiobookId s with
  | none => throw .notFound
  | some row =>
    let data : AudiobookData := row.data
    if data.status ≠ .ready then throw .artifactNotReady else
    match format with
    | none => return data.storageKey
    | some format =>
      if format = data.containerFormat then return data.storageKey else
      match findReadyRendition audiobookId format s with
      | some key => return key
      | none => throw .formatNotAvailable

def createTextAccessUrl (b : Book) (s : BookStore) : Except BookError StorageKey :=
  match b.currentBookVersionId with
  | none => throw .notFound
  | some versionId =>
    match (s.rows .bookVersion).find? fun row => decide (row.id = versionId) with
    | none => throw .notFound
    | some row =>
      match (row.data : BookVersionData).canonicalTextManifestStorageKey with
      | none => throw .notFound
      | some key => return key

def createAccessUrl (principal : Principal) (request : AccessUrlRequest) (s : BookStore) :
    Except BookError StorageKey :=
  let owned (bookId : Id) (answer : Book → Except BookError StorageKey) :
      Except BookError StorageKey :=
    if bookId ∈ s.purged then throw .resourcePurged else
    match findOwnedBook principal.tenantId bookId s with
    | none => throw .notFound
    | some b => answer b
  match request with
  | .audioChunk bookId audioChunkId =>
      owned bookId fun _ => createAudioChunkAccessUrl bookId audioChunkId s
  | .chapterAudio bookId chapterAudioId =>
      owned bookId fun _ => createChapterAudioAccessUrl bookId chapterAudioId s
  | .audiobook bookId audiobookId format =>
      owned bookId fun _ => createAudiobookAccessUrl bookId audiobookId format s
  | .text bookId => owned bookId fun b => createTextAccessUrl b s

end AudioBook.Books
