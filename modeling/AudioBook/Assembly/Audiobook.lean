import AudioBook.Assembly.Shared

/-!
# Assembling an Audiobook

`processAssembleAudiobookJob`: check that every chapter has current audio, concatenate it, store
the audiobook as the book's current one, and create one encode job for every requested format.
-/

namespace AudioBook

open Concurrent

/-! ## Encode Jobs -/

def encodeEnvelope (jobId audiobookId : Id) (format : DeliveryFormat) : Envelope where
  jobId := jobId
  entityId := some jobId
  payload := .encodeDeliveryFormat audiobookId format

def encodeJob (jobId : Id) (job : ProcessingJob) (audiobookId : Id) (format : DeliveryFormat) :
    ProcessingJob where
  id := jobId
  bookId := job.bookId
  type := .encodeDeliveryFormat
  relatedResourceType := .audiobook
  relatedResourceId := audiobookId
  parentJobId := some job.id
  scope := some { format := some format }
  idempotencyKey := .encodeDeliveryFormat audiobookId format
  dispatchEnvelope := some (encodeEnvelope jobId audiobookId format)

/-- `enqueueEncodeJobs`: one format after the other. -/
def enqueueEncodeJobs (job : ProcessingJob) (audiobookId : Id) :
    List DeliveryFormat → Service Unit
  | [] => pure ()
  | format :: formats => do
      let encodeJobId ← freshId
      perform (.createJobs [encodeJob encodeJobId job audiobookId format])
      enqueueProcessingJob (encodeEnvelope encodeJobId audiobookId format)
      enqueueEncodeJobs job audiobookId formats

/-! ## Failure Handlers -/

/-- `handleAudiobookAssemblyFailure`: every attempt is recorded as the final one. -/
def handleAudiobookAssemblyFailure (job : ProcessingJob) (errorCode : ErrorCode) :
    Service Unit :=
  recordFailure job.id [.failed, .succeeded] errorCode

def handleAudiobookNotReady (job : ProcessingJob) : Service Unit :=
  handleAudiobookAssemblyFailure job .chapterManifestIncomplete

/-! ## The Processor -/

structure OrderedChapterAudio where
  chapter : Chapter
  chapterAudio : ChapterAudio

/-- The chapters of a version in reading order, each with its current audio if it has one. -/
def chaptersWithAudio (bookVersionId : Id) (s : Store) : List (Chapter × Option ChapterAudio) :=
  (chaptersOfVersion bookVersionId s).map fun c => (c, currentAssembledAudio c.id s)

def orderedChapterAudios : List (Chapter × Option ChapterAudio) → Option (List OrderedChapterAudio)
  | [] => some []
  | (_, none) :: _ => none
  | (chapter, some chapterAudio) :: rest =>
      (orderedChapterAudios rest).map fun ordered =>
        { chapter := chapter, chapterAudio := chapterAudio } :: ordered

/-- The ordered `id:contentHash` pairs of an audiobook's chapters. -/
def chapterManifest (chapters : List OrderedChapterAudio) : List (Id × Hash) :=
  chapters.map fun c => (c.chapterAudio.id, c.chapterAudio.contentHash)

/-- The Director versions of chapters, without repetitions. -/
def chapterDirectorVersions (chapters : List OrderedChapterAudio) : List ℕ :=
  (chapters.map fun c => c.chapterAudio.directorVersion).dedup

/-- The newest audiobook of a manifest that did not fail and is not superseded. -/
def findUnchangedAudiobook (bookVersionId : Id) (chapterManifestHash : Hash) (s : Store) :
    Option Audiobook :=
  ((s.audiobooks.filter fun a => decide (a.bookVersionId = bookVersionId ∧
    a.chapterManifestHash = chapterManifestHash ∧
    a.status ∉ [.failed, .superseded])).insertionSort fun a b => b.version ≤ a.version).head?

/-- The formats of a list that are not `READY` yet, asked one after the other. -/
def missingDeliveryFormats (audiobookId : Id) (chapterCount : ℕ) :
    List DeliveryFormat → Service (List DeliveryFormat)
  | [] => pure []
  | format :: formats => do
      let ready ← query (isDeliveryFormatReady audiobookId format chapterCount)
      let missing ← missingDeliveryFormats audiobookId chapterCount formats
      return if ready then missing else format :: missing

/-- The body of the processor's `try`: concatenate the chapters, persist the audiobook, and
create its encode jobs. -/
def assembleAudiobook (job : ProcessingJob) (bookId bookVersionId : Id)
    (chapters : List OrderedChapterAudio) (primaryFormat : DeliveryFormat)
    (deliveryFormats : List DeliveryFormat) (chapterManifestHash : Hash) : Service Unit := do
  -- `resolveAudioToolModelVersionId`.
  external
  let bookVersion ← query fun s => s.bookVersions.find? fun v => decide (v.id = bookVersionId)
  if bookVersion.isNone then throw .uncoded
  -- The first chunk of the book, for its story bible version.
  let hasChunk ← query fun s => s.audioScriptChunks.any fun c => decide (c.bookId = bookId) && c.isCurrent
  if ¬ hasChunk then throw .uncoded
  let nextVersion ← query (nextAudiobookVersion bookId)
  -- Concatenation and the upload of the master.
  external
  let audiobookId ← freshId
  perform (.persistAudiobook job.id {
    id := audiobookId
    bookId := bookId
    bookVersionId := bookVersionId
    version := nextVersion
    isCurrent := true
    status := .assembling
    containerFormat := primaryFormat
    chapterCount := chapters.length
    chapterManifestHash := chapterManifestHash
    jobId := some job.id
    chapters := chapters.map fun c => ⟨c.chapter.id, c.chapterAudio.id⟩ })
  enqueueEncodeJobs job audiobookId deliveryFormats

variable (computeManifestHash : List (Id × Hash) → Hash)

/-- What `processAssembleAudiobookJob` does once the chapters are there: resume an audiobook of
the same manifest, or assemble a new one. -/
def resumeOrAssembleAudiobook (job : ProcessingJob) (bookId bookVersionId : Id)
    (chapters : List OrderedChapterAudio) (primaryFormat : DeliveryFormat)
    (deliveryFormats : List DeliveryFormat) : Service Unit := do
  let chapterManifestHash := computeManifestHash (chapterManifest chapters)
  match ← query (findUnchangedAudiobook bookVersionId chapterManifestHash) with
  | some existing =>
      let missingFormats ←
        missingDeliveryFormats existing.id chapters.length deliveryFormats
      perform (.markSucceeded job.id job.status)
      enqueueEncodeJobs job existing.id missingFormats
  | none =>
      perform (.markRunning job.id job.status)
      tryCatch (assembleAudiobook job bookId bookVersionId chapters primaryFormat deliveryFormats
        chapterManifestHash) fun err => do
          handleAudiobookAssemblyFailure job (errorCodeOf err .audiobookAssemblyFailed)
          throw err

def processAssembleAudiobookJob (deliveryFormats : List DeliveryFormat) (d : Delivery) :
    Service Unit := do
  match d.envelope.entityId with
  | none => throw .uncoded
  | some processingJobId =>
  match ← query (findJob processingJobId) with
  | none => throw .uncoded
  | some job =>
  if job.status = .succeeded ∨ job.status = .failed then return
  match job.bookId, deliveryFormats with
  | some bookId, primaryFormat :: _ =>
      if (← query (findBook bookId)).isNone then throw .uncoded
      let readiness ← checkAudiobookReadiness bookId
      match readiness.ready, readiness.bookVersionId with
      | true, some bookVersionId =>
          match orderedChapterAudios (← query (chaptersWithAudio bookVersionId)) with
          | none => handleAudiobookNotReady job
          | some [] => throw .uncoded
          | some (first :: rest) =>
              if 1 < (chapterDirectorVersions (first :: rest)).length then
                handleAudiobookAssemblyFailure job .directorVersionMixingForbidden
                return
              resumeOrAssembleAudiobook computeManifestHash job bookId bookVersionId
                (first :: rest) primaryFormat deliveryFormats
      | _, _ => handleAudiobookNotReady job
  | _, _ => throw .uncoded

end AudioBook
