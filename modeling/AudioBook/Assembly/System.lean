import AudioBook.Assembly.Encode
import AudioBook.Assembly.Service
import AudioBook.Concurrent.Interleaving
import AudioBook.Jobs.Cancellation

/-!
# The Assembly System

Everything that runs over the store while audiobooks are assembled: requests to the API, the
worker that consumes the `audio` queue, the sweeper, and the Director and the synthesis worker
where they change what a chapter is assembled from.
-/

namespace AudioBook

open Concurrent

variable (computeManifestHash : List (Id × Hash) → Hash)

/-- The handler of the worker's `audio` queue: the cancellation gate, then the processor of the
message. -/
def deliver (d : Delivery) : Service Unit := do
  if ← haltIfCancelled d.envelope.jobId then return
  match d.envelope.payload with
  | .assembleChapter chapterId => processAssembleChapterJob computeManifestHash chapterId d
  | .assembleAudiobook _ deliveryFormats =>
      processAssembleAudiobookJob computeManifestHash deliveryFormats d
  | .encodeDeliveryFormat audiobookId format =>
      processEncodeDeliveryFormatJob audiobookId format d
  | _ => throw .uncoded

/-- The jobs whose message was never put on the broker. -/
def orphanedJobs (s : Store) : List Envelope :=
  s.processingJobs.filterMap fun job =>
    if job.status = .created ∧ job.queued = false then job.dispatchEnvelope else none

/-- Re-enqueue orphaned jobs; one that fails is left for the next poll. -/
def sweepJobs : List Envelope → Service Unit
  | [] => pure ()
  | envelope :: envelopes => do
      tryCatch (enqueueProcessingJob envelope) fun _ => pure ()
      sweepJobs envelopes

def pollOnce : Service Unit := do
  sweepJobs (← query orphanedJobs)

inductive AssemblyRequest
  | startAssembly (bookId : Id) (body : StartAssembly)
  | cancelJob (jobId : Id)
  /-- The broker hands a message to a worker, for the first time or again. -/
  | deliver (d : Delivery)
  | pollOnce
  | insertChunks (chunks : List BuiltChunk)
  /-- The synthesis worker stores the audio of a chunk. -/
  | insertAudioChunk (new : NewAudioChunk)

/-- The types of the jobs that assembly creates. -/
def JobType.IsAssembly (type : JobType) : Prop :=
  type ∈ [.assembleChapter, .assembleAudiobook, .encodeDeliveryFormat]

/-- Nothing has been assembled yet, and nothing waits for assembly. -/
structure NothingAssembled (s : Store) : Prop where
  jobs : ∀ job ∈ s.processingJobs, ¬ job.type.IsAssembly
  queue : s.queue = []
  chapterAudios : s.chapterAudios = []
  audiobooks : s.audiobooks = []
  renditions : s.audiobookRenditions = []
  books : ∀ book ∈ s.books, book.currentAudiobookId = none

/-- A message can be delivered while it is on the broker. -/
def AssemblyRequest.Enabled : AssemblyRequest → Store → Prop
  | deliver d, s => d.envelope ∈ s.queue
  | _, _ => True

instance (i : AssemblyRequest) (s : Store) : Decidable (i.Enabled s) :=
  match i with
  | .deliver d => inferInstanceAs (Decidable (d.envelope ∈ s.queue))
  | .startAssembly _ _ | .cancelJob _ | .pollOnce | .insertChunks _ | .insertAudioChunk _ =>
      isTrue trivial

def assemblySystem : System Store AssemblyRequest Access Fault where
  init := NothingAssembled
  enabled := AssemblyRequest.Enabled
  program
    | .startAssembly bookId body => AudioBook.startAssembly computeManifestHash bookId body
    | .cancelJob jobId => AudioBook.cancelJob jobId
    | .deliver d => AudioBook.deliver computeManifestHash d
    | .pollOnce => AudioBook.pollOnce
    | .insertChunks chunks => perform (.insertChunks chunks)
    | .insertAudioChunk new => perform (.insertAudioChunk new)

instance (i : AssemblyRequest) (s : Store) :
    Decidable ((assemblySystem computeManifestHash).enabled i s) :=
  inferInstanceAs (Decidable (i.Enabled s))

/-! ## A Small Book

One chapter of one chunk, narrated and validated: enough to run the system on. -/

def polynomialDigest (parts : List (Id × Hash)) : Hash :=
  parts.foldl (fun h p => 31 * (31 * h + p.1) + p.2) 7

def narratedBook : Store where
  books := [{ id := 1, currentBookVersionId := some 2, currentAudioScriptId := some 4 }]
  bookVersions := [{
    id := 2, bookId := 1, version := 1, isCurrent := true, contentHash := 5,
    pipelineVersion := 1 }]
  chapters := [{ id := 3, bookId := 1, bookVersionId := 2, orderIndex := 0, matterType := .body }]
  audioScripts := [{
    id := 4, bookId := 1, bookVersionId := 2, version := 1, isCurrent := true,
    directorVersion := 1, state := .validated, coverageVerified := true, jobId := none }]
  audioScriptChunks := [{
    id := 5, bookId := 1, audioScriptId := 4, chapterId := 3, sequenceIndex := 0,
    chapterSequenceIndex := 0, directorVersion := 1, text := ['a'], speakerType := .narrator,
    voiceProfileVersionId := some 9, state := .locked, lockedAt := true,
    currentAudioChunkId := some 6, source := ⟨8, 0, 1⟩ }]
  audioChunks := [{
    id := 6, audioScriptChunkId := 5, ttsJobId := 7, chapterId := 3, isCurrent := true,
    status := .validated, contentHash := 70, durationMs := 900, objectVerified := true }]
  nextId := 100

theorem nothingAssembled_narratedBook : NothingAssembled narratedBook := by
  constructor <;> simp [narratedBook]

/-- A program starts as number `n` and makes some accesses, with nothing in between. -/
def alone (n accesses : ℕ) (i : AssemblyRequest) : List (Move AssemblyRequest Fault) :=
  .spawn i :: List.replicate accesses (.proceed n)

def requestAudiobook (deliveryFormats : List DeliveryFormat) : AssemblyRequest :=
  .startAssembly 1 { scope := .audiobook, deliveryFormats := deliveryFormats }

/-- The first delivery of a message, with what mastering makes of it. -/
def firstDelivery (envelope : Envelope) (masterHash : Hash) : AssemblyRequest :=
  .deliver ⟨envelope, 0, masterHash⟩

/-- A user asks for the audiobook (job 100), and a worker assembles its chapter and creates the
job of the audiobook (job 102). -/
def chapterAssembled (deliveryFormats : List DeliveryFormat) : List (Move AssemblyRequest Fault) :=
  alone 0 8 (requestAudiobook deliveryFormats) ++
    alone 1 20 (firstDelivery (chapterEnvelope 100 3) 77)

/-- A worker takes the job of the audiobook (audiobook 103, encode jobs from 104) and makes some
accesses. -/
def audiobookAssembled (deliveryFormats : List DeliveryFormat) (accesses : ℕ) :
    List (Move AssemblyRequest Fault) :=
  chapterAssembled deliveryFormats ++
    alone 2 accesses (firstDelivery (audiobookEnvelope 102 1 deliveryFormats) 78)

/-- A second chunk for the chapter of the small book. -/
def secondChunk : BuiltChunk where
  id := 200
  bookId := 1
  audioScriptId := 4
  chapterId := 3
  sequenceIndex := 1
  chapterSequenceIndex := 1
  directorVersion := 1
  text := ['b']
  nonVerbal := false
  sceneId := none
  speakerType := .narrator
  characterId := none
  voiceProfileVersionId := some 9
  fallbackApplied := false
  lowConfidence := false
  source := ⟨8, 1, 2⟩

def secondAudio : NewAudioChunk where
  audioChunkId := 201
  audioScriptChunkId := 200
  ttsJobId := 202
  chapterId := 3
  validationStatus := .pass
  contentHash := 71
  durationMs := 800

/-- The chapter gets its second chunk, is assembled again, and so is the audiobook as M4B: by
the programs from `n` on, with the ids from `i` on. -/
def reassembled (n i : ℕ) : List (Move AssemblyRequest Fault) :=
  alone n 1 (.insertChunks [secondChunk]) ++
    alone (n + 1) 1 (.insertAudioChunk secondAudio) ++
    alone (n + 2) 8 (requestAudiobook [.m4b]) ++
    alone (n + 3) 18 (firstDelivery (chapterEnvelope i 3) 81) ++
    alone (n + 4) 11 (requestAudiobook [.m4b]) ++
    alone (n + 5) 21 (firstDelivery (audiobookEnvelope (i + 3) 1 [.m4b]) 82) ++
    alone (n + 6) 17 (firstDelivery (encodeEnvelope (i + 5) (i + 4) .m4b) 83)

end AudioBook
