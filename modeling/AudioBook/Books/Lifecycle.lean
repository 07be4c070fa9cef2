import AudioBook.Books.Service
import AudioBook.Concurrent.Triples

/-!
# The Lifecycle of Books as a System

The maintenance worker: the purge of a book, which deletes objects and rows table by table, and the
retention sweep, which deletes the objects of rows that nothing uses any more. Deletions of objects
are best effort: one that fails is reported and the next one goes on. Then deletions, restorations
and purges that are requested, the sweeper, and deliveries of the messages on the maintenance queue,
in any order and with any faults.
-/

namespace AudioBook.Books

open Relational Concurrent

/-! ## Deleting Objects -/

def deleteObjects : List StorageKey → BookProg Unit
  | [] => pure ()
  | key :: keys => do
      tryCatch (run (.deleteObject key)) fun _ => pure ()
      deleteObjects keys

def findByBookId (t : BookTable) (bookId : Id) (s : BookStore) : List (BookRow t) :=
  (s.rows t).filter fun row => decide (row.bookId = some bookId)

def purgeArtifactTable (t : BookTable) (bookId : Id) : BookProg Unit := do
  let rows ← query (findByBookId t bookId)
  deleteObjects (rows.flatMap BookRow.objectKeys)
  run (.deleteByBookId t bookId)

def deleteManyByBookId (t : BookTable) (bookId : Id) : BookProg Unit :=
  run (.deleteByBookId t bookId)

def deleteManyByBookIdAll : List BookTable → Id → BookProg Unit
  | [], _ => pure ()
  | t :: ts, bookId => do
      deleteManyByBookId t bookId
      deleteManyByBookIdAll ts bookId

/-! ## Steps of a Purge -/

/-- The voice profiles of scope `BOOK` of a book. -/
def findBookProfiles (bookId : Id) (s : BookStore) : List (BookRow .voiceProfile) :=
  (s.rows .voiceProfile).filter fun row =>
    decide (row.bookId = some bookId ∧ row.scope = .book)

def findVersions (voiceProfileId : Id) (s : BookStore) : List (BookRow .voiceProfileVersion) :=
  (s.rows .voiceProfileVersion).filter fun row =>
    decide ((row.data : VoiceProfileVersionData).voiceProfileId = voiceProfileId)

def purgeVersions : List (BookRow .voiceProfile) → BookProg Unit
  | [] => pure ()
  | profile :: profiles => do
      let versions ← query (findVersions profile.id)
      deleteObjects (versions.flatMap BookRow.objectKeys)
      run (.deleteVersions profile.id)
      purgeVersions profiles

def purgeBookScopedVoiceProfiles (bookId : Id) : BookProg Unit := do
  let profiles ← query (findBookProfiles bookId)
  purgeVersions profiles
  run (.deleteBookProfiles bookId)

def purgeBookVersions (bookId : Id) : BookProg Unit := purgeArtifactTable .bookVersion bookId

def otherReference (key : StorageKey) (bookId : Id) (s : BookStore) : Bool :=
  (s.rows .bookFile).any fun row =>
    decide ((row.data : BookFileData).storageKey = key ∧ row.bookId ≠ some bookId)

/-- The objects of the files that no file of another book refers to; returns their size. -/
def purgeFileObjects (bookId : Id) : List (BookRow .bookFile) → BookProg ℕ
  | [] => return 0
  | file :: files => do
      let data : BookFileData := file.data
      let shared ← query (otherReference data.storageKey bookId)
      let freed ← if shared then pure 0 else do
        deleteObjects [data.storageKey]
        pure data.sizeBytes
      let rest ← purgeFileObjects bookId files
      return freed + rest

def recordStorageBytesDelta (delta : ℤ) : BookProg Unit :=
  tryCatch (run (.recordStorageBytesDelta delta)) fun _ => pure ()

def purgeBookFiles (bookId : Id) : BookProg Unit := do
  let files ← query (findByBookId .bookFile bookId)
  let freedBytes ← purgeFileObjects bookId files
  run (.deleteByBookId .bookFile bookId)
  if freedBytes > 0 then recordStorageBytesDelta (-freedBytes)

def findOtherJobs (bookId purgeJobId : Id) (s : BookStore) : List Id :=
  (s.processingJobs.filter fun job =>
    decide (job.bookId = some bookId ∧ job.id ≠ purgeJobId)).map BookJob.id

def purgeJobsAndAttempts (bookId purgeJobId : Id) : BookProg Unit := do
  run (.deleteByBookId .processingAttempt bookId)
  let jobIds ← query (findOtherJobs bookId purgeJobId)
  if jobIds.isEmpty then return else
  run (.deleteDependencies jobIds)
  run (.deleteJobs jobIds)

/-! ## The Purge -/

/-- The steps of a purge up to the jobs. -/
def purgeArtifacts (bookId : Id) : BookProg Unit := do
  purgeArtifactTable .audiobookRendition bookId
  purgeArtifactTable .audiobookCover bookId
  deleteManyByBookId .audiobookChapter bookId
  purgeArtifactTable .audiobook bookId
  deleteManyByBookId .chapterAudioMember bookId
  purgeArtifactTable .chapterAudio bookId
  purgeArtifactTable .audioChunk bookId
  deleteManyByBookIdAll [.ttsJob, .audioScriptChunkSource, .audioScriptChunk, .audioScript] bookId
  purgeArtifactTable .voicePreview bookId
  deleteManyByBookId .voiceAssignment bookId
  purgeBookScopedVoiceProfiles bookId
  deleteManyByBookIdAll [.narrativeEmbedding, .narrativeSummary, .narrativeLocation,
    .narrativeTimelineEvent, .narrativeObject, .narrativeFaction, .narrativeThread,
    .characterRelationship, .sceneSemantics, .narrativeState, .storyBibleVersion, .storyBible,
    .pronunciationEntry, .characterAlias, .characterMerge, .character, .paragraph, .scene,
    .section, .chapter, .parsedPage] bookId
  purgeBookVersions bookId
  purgeBookFiles bookId

def purgeSteps (purgeJobId bookId : Id) : BookProg Unit := do
  purgeArtifacts bookId
  purgeJobsAndAttempts bookId purgeJobId
  deleteManyByBookId .bookCounter bookId
  run (.deleteBook bookId)
  run (.recordPurged bookId)
  run (.finishPurge purgeJobId)

def runPurgeBook (purgeJobId bookId : Id) : BookProg Unit := do
  match ← query fun s => s.findJob purgeJobId with
  | none => return
  | some job =>
  if job.status = .succeeded then return else
  run (.startPurge purgeJobId)
  tryCatch (purgeSteps purgeJobId bookId) fun err => do
    run (.failPurge purgeJobId)
    throw err

/-! ## The Retention Sweep -/

/-- Rejected files, created before the cutoff, that still have an object. -/
def findOrphanedFiles (orphanCutoff : ℕ) (s : BookStore) : List (BookRow .bookFile) :=
  (s.rows .bookFile).filter fun row =>
    let data : BookFileData := row.data
    decide (data.status = .rejected ∧ data.storageClass ≠ .expired ∧ data.createdAt < orphanCutoff)

/-- The completed books with a current audiobook that are not deleted. -/
def findEligibleBooks (s : BookStore) : List Id :=
  (s.books.filter fun b =>
    b.completed && b.currentAudiobookId.isSome && !b.deleted).map Book.id

/-- Audio chunks of the books, created before the cutoff, that are not current. -/
def findSupersededChunks (bookIds : List Id) (chunkCutoff : ℕ) (s : BookStore) :
    List (BookRow .audioChunk) :=
  (s.rows .audioChunk).filter fun row =>
    let data : AudioChunkData := row.data
    row.bookId.any (fun bookId => decide (bookId ∈ bookIds)) && !data.isCurrent &&
      decide (data.storageClass = .standard ∧ data.createdAt < chunkCutoff)

def runRetentionSweep (orphanCutoff chunkCutoff : ℕ) : BookProg Unit := do
  let orphanedFiles ← query (findOrphanedFiles orphanCutoff)
  deleteObjects (orphanedFiles.flatMap BookRow.objectKeys)
  if ¬ orphanedFiles.isEmpty then run (.expireBookFiles (orphanedFiles.map BookRow.id))
  let eligibleBooks ← query findEligibleBooks
  let supersededChunks ← query (findSupersededChunks eligibleBooks chunkCutoff)
  deleteObjects (supersededChunks.flatMap BookRow.objectKeys)
  if ¬ supersededChunks.isEmpty then run (.expireAudioChunks (supersededChunks.map BookRow.id))

inductive LifecycleRequest
  | deleteBook (principal : Principal) (bookId : Id)
  | restoreBook (principal : Principal) (bookId : Id)
  | purgeBook (principal : Principal) (bookId confirmBookId : Id)
  | pollOnce
  /-- A message of the maintenance queue is delivered, for the first time or again. -/
  | deliver (message : PurgeMessage)

def lifecycleProgram : LifecycleRequest → BookProg Unit
  | .deleteBook principal bookId => Books.deleteBook principal bookId
  | .restoreBook principal bookId => Books.restoreBook principal bookId
  | .purgeBook principal bookId confirmBookId => Books.purgeBook principal bookId confirmBookId
  | .pollOnce => Books.pollOnce
  | .deliver message => runPurgeBook message.jobId message.bookId

def LifecycleRequest.Enabled : LifecycleRequest → BookStore → Prop
  | .deliver message, s => message ∈ s.queue
  | _, _ => True

instance LifecycleRequest.decidableEnabled (r : LifecycleRequest) (s : BookStore) :
    Decidable (r.Enabled s) :=
  match r with
  | .deliver message => inferInstanceAs (Decidable (message ∈ s.queue))
  | .deleteBook .. | .restoreBook .. | .purgeBook .. | .pollOnce => isTrue trivial

/-! ## What Belongs to a Book -/

/-- The row is one of a book: by its `book_id`, or by the profile of a version. -/
def BelongsTo (bookId : Id) (s : BookStore) : (t : BookTable) → BookRow t → Prop
  | .voiceProfileVersion, row => ∃ profile ∈ s.rows .voiceProfile,
      profile.id = (row.data : VoiceProfileVersionData).voiceProfileId ∧
        profile.bookId = some bookId ∧ profile.scope = .book
  | .jobDependency, _ => False
  | _, row => row.bookId = some bookId

/-- No two books refer to one object, except by their source files. -/
def ObjectsOwned (s : BookStore) : Prop :=
  ∀ t, ∀ row ∈ s.rows t, ∀ t', ∀ row' ∈ s.rows t', ∀ bookId bookId' key,
    t ≠ .bookFile ∨ t' ≠ .bookFile → BelongsTo bookId s t row → BelongsTo bookId' s t' row' →
      key ∈ row.objectKeys → key ∈ row'.objectKeys → bookId = bookId'

/-! ## The System -/

/-- The store of a service in which no purge is under way: the tables meet their constraints, every
job of a purge has ended, and nothing is on the queue. -/
structure NoPurgeUnderWay (s : BookStore) : Prop where
  books : (s.books.map Book.id).Nodup
  jobs : processingJob.Holds s
  profiles : ((s.rows .voiceProfile).map BookRow.id).Nodup
  objects : ObjectsOwned s
  lt_nextId : ∀ job ∈ s.processingJobs, job.id < s.nextId
  ended : ∀ job ∈ s.processingJobs, ∀ bookId, job.idempotencyKey = .purgeBook bookId →
    job.status ∉ [.created, .running]
  dispatched : ∀ job ∈ s.processingJobs, job.status = .created → job.dispatchEnvelope = none
  queue : s.queue = []

def lifecycleSystem : System BookStore LifecycleRequest BookAccess BookError where
  init := NoPurgeUnderWay
  enabled := LifecycleRequest.Enabled
  program := lifecycleProgram

instance lifecycleSystem.decidableEnabled (r : LifecycleRequest) (s : BookStore) :
    Decidable (lifecycleSystem.enabled r s) :=
  inferInstanceAs (Decidable (r.Enabled s))

end AudioBook.Books
