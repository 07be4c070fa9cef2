import AudioBook.Assembly.Shared

/-!
# Assembling a Chapter

`processAssembleChapterJob`: check the chapter's chunks, master their audio, store the result as
the chapter's current audio, and start the assembly of the audiobook when this was the last
chapter it needs.
-/

namespace AudioBook

open Concurrent

/-! ## Failure Handlers -/

def handleChapterManifestIncomplete (job : ProcessingJob) : Service Unit :=
  recordFailure job.id [.failed, .succeeded] .chapterManifestIncomplete

def handleDirectorVersionMixing (job : ProcessingJob) : Service Unit :=
  recordFailure job.id [.failed, .succeeded] .directorVersionMixingForbidden

/-- `handleChapterAssemblyFailure`: only the final attempt is recorded, and it is recorded over
every status but `FAILED`. -/
def handleChapterAssemblyFailure (job : ProcessingJob) (err : Fault) (d : Delivery) :
    Service Unit := do
  if ¬ d.isFinalAttempt then return
  recordFailure job.id [.failed] (errorCodeOf err .chapterAssemblyFailed)

/-! ## The Fan-In Trigger -/

/-- An `assemble_audiobook` job of a book is in flight. -/
def audiobookJobInFlight (bookId : Id) (s : Store) : Bool :=
  s.processingJobs.any fun job => decide (job.bookId = some bookId ∧
    job.type = .assembleAudiobook ∧
    job.status ∈ [.created, .queued, .running, .retrying, .blocked])

/-- The delivery formats of a request, `M4B` when it named none. -/
def deliveryFormatsOrDefault : List DeliveryFormat → List DeliveryFormat
  | [] => [.m4b]
  | formats => formats

/-- The message of an `assemble_audiobook` job. -/
def audiobookEnvelope (jobId bookId : Id) (deliveryFormats : List DeliveryFormat) : Envelope where
  jobId := jobId
  entityId := some jobId
  payload := .assembleAudiobook bookId deliveryFormats

def fanInJob (jobId bookId bookVersionId : Id) (deliveryFormats : List DeliveryFormat) :
    ProcessingJob where
  id := jobId
  bookId := some bookId
  type := .assembleAudiobook
  relatedResourceType := .bookVersion
  relatedResourceId := bookVersionId
  scope := some { scope := some .audiobook, deliveryFormats := deliveryFormats }
  idempotencyKey := .assembleAudiobook bookVersionId
  dispatchEnvelope := some (audiobookEnvelope jobId bookId deliveryFormats)

def maybeTriggerAudiobookFanIn (job : ProcessingJob) : Service Unit := do
  match job.bookId, job.scope with
  | some bookId, some scope =>
      if scope.scope ≠ some .audiobook then return
      let readiness ← checkAudiobookReadiness bookId
      match readiness.ready, readiness.bookVersionId with
      | true, some bookVersionId =>
          if ← query (audiobookJobInFlight bookId) then return
          let deliveryFormats := deliveryFormatsOrDefault scope.deliveryFormats
          let newJobId ← freshId
          perform (.createJobs [fanInJob newJobId bookId bookVersionId deliveryFormats])
          enqueueProcessingJob (audiobookEnvelope newJobId bookId deliveryFormats)
      | _, _ => return
  | _, _ => return

/-! ## The Processor -/

/-- The distinct voice versions that speak for a character (or, under `none`, for the
narrator). -/
def voiceVersionsOf (characterId : Option Id) (chunks : List OrderedChunk) : List Id :=
  (chunks.filterMap fun c =>
    if c.chunk.characterId = characterId then c.chunk.voiceProfileVersionId else none).dedup

/-- `computeVoiceConsistency(chunks).verified`. -/
def voiceConsistencyVerified (chunks : List OrderedChunk) : Bool :=
  chunks.all fun c => decide ((voiceVersionsOf c.chunk.characterId chunks).length ≤ 1)

/-- The body of the processor's `try`: master the chapter, persist it, and trigger the
fan-in. -/
def assembleChapter (job : ProcessingJob) (chapterId : Id) (chunks : List OrderedChunk)
    (chunkManifestHash : Hash) (directorVersion : ℕ) (d : Delivery) : Service Unit := do
  -- `resolveAudioToolModelVersionId`.
  external
  let nextVersion ← query (nextChapterAudioVersion chapterId)
  -- Mastering and the upload of the master.
  external
  let chapterAudioId ← freshId
  perform (.persistChapterAudio job.id {
    id := chapterAudioId
    chapterId := chapterId
    version := nextVersion
    isCurrent := true
    status := .assembled
    chunkManifestHash := chunkManifestHash
    directorVersion := directorVersion
    voiceConsistencyVerified := voiceConsistencyVerified chunks
    jobId := some job.id
    contentHash := d.masterHash })
  maybeTriggerAudiobookFanIn job

variable (computeManifestHash : List (Id × Hash) → Hash)

def processAssembleChapterJob (chapterId : Id) (d : Delivery) : Service Unit := do
  match d.envelope.entityId with
  | none => throw .uncoded
  | some processingJobId =>
  match ← query (findJob processingJobId) with
  | none => throw .uncoded
  | some job =>
  if job.status = .succeeded ∨ job.status = .failed then return
  if job.bookId = none then throw .uncoded
  match ← query (findChapter chapterId) with
  | none => throw .uncoded
  | some chapter =>
  let chunks ← query (currentChunks chapter.id)
  match chunks, manifestComplete chunks with
  | first :: _, true =>
      if 1 < (directorVersions chunks).length then
        handleDirectorVersionMixing job
        return
      let chunkManifestHash := computeManifestHash (chunkManifest chunks)
      if (← query (findChapterAudio chapter.id chunkManifestHash)).isSome then
        perform (.markSucceeded job.id job.status)
        maybeTriggerAudiobookFanIn job
        return
      perform (.markRunning job.id job.status)
      tryCatch (assembleChapter job chapter.id chunks chunkManifestHash
        first.chunk.directorVersion d) fun err => do
          handleChapterAssemblyFailure job err d
          throw err
  | _, _ => handleChapterManifestIncomplete job

end AudioBook
