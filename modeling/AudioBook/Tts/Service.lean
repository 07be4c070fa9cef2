import AudioBook.Assembly.Service
import AudioBook.Tts.Handler

/-!
# The Synthesis API

`startTts` of the API's TTS service: find the chunks of the current script that the request is
about, leave out those whose current audio fits, and create and enqueue one job for each other one.
-/

namespace AudioBook

open Concurrent

/-! ## Requests -/

/-- The `scope` of a synthesis request. -/
inductive TtsScope
  | book
  | chapters
  | chunks
  | filter
  deriving DecidableEq

/-- The `priority` of a request. -/
inductive Priority
  | interactive
  | normal
  | bulk
  deriving DecidableEq

/-- The body of a synthesis request. -/
structure StartTts where
  scope : TtsScope
  chapterIds : List Id := []
  chunkIds : List Id := []
  filterStatus : List AudioChunkStatus := []
  filterChapterIds : List Id := []
  force : Bool := false
  priority : Option Priority := none

/-- The list that the scope of a request needs is missing or empty. -/
def StartTts.scopeMissing (body : StartTts) : Bool :=
  match body.scope with
  | .book => false
  | .chapters => body.chapterIds.isEmpty
  | .chunks => body.chunkIds.isEmpty
  | .filter => body.filterStatus.isEmpty

/-- The `currentAudioChunk` of a chunk. -/
def currentAudioOf (chunk : AudioScriptChunk) (s : Store) : Option AudioChunk :=
  chunk.currentAudioChunkId.bind fun i => s.audioChunks.find? fun a => decide (a.id = i)

/-- `resolveChunkWhere`, on a current chunk of the script. -/
def StartTts.selects (body : StartTts) (s : Store) (chunk : AudioScriptChunk) : Bool :=
  match body.scope with
  | .book => true
  | .chapters => decide (chunk.chapterId ∈ body.chapterIds)
  | .chunks => decide (chunk.id ∈ body.chunkIds)
  | .filter =>
      (body.filterChapterIds.isEmpty || decide (chunk.chapterId ∈ body.filterChapterIds)) &&
        (currentAudioOf chunk s).any fun a => decide (a.status ∈ body.filterStatus)

/-! ## Chunks -/

structure CastChunk where
  chunk : AudioScriptChunk
  voiceProfileVersion : Option VoiceProfileVersion

def requestedChunks (audioScriptId bookId : Id) (body : StartTts) (s : Store) : List CastChunk :=
  ((s.audioScriptChunks.filter fun c => decide (c.audioScriptId = audioScriptId ∧
    c.bookId = bookId ∧ c.isCurrent) && body.selects s c).insertionSort
      fun a b => a.sequenceIndex ≤ b.sequenceIndex).map fun c =>
    { chunk := c
      voiceProfileVersion := c.voiceProfileVersionId.bind fun i => findVoiceProfileVersion i s }

/-- The checks of `startTts` on the chunks: there are some, each is cast, and with a voice that is
approved for production. -/
def ttsRejection (chunks : List CastChunk) : Option Fault :=
  if chunks = [] then some .uncoded
  else if chunks.any fun c => c.chunk.voiceProfileVersionId.isNone then
    some (.coded .castingIncomplete)
  else if chunks.any fun c => c.voiceProfileVersion.any fun v =>
      decide (v.approvalState ∉ [.approved, .locked]) then
    some (.coded .voiceProfileNotApproved)
  else none

def doneAudio (chunkId : Id) (s : Store) : Option AudioChunk :=
  s.audioChunks.find? fun a => decide (a.audioScriptChunkId = chunkId ∧ a.isCurrent ∧
    a.status ∈ [.generated, .validated, .assembled])

def filterAlreadyGenerated (chunks : List CastChunk) (s : Store) : List CastChunk :=
  chunks.filter fun c => !(doneAudio c.chunk.id s).any fun done =>
    decide (some done.voiceProfileVersionId = c.chunk.voiceProfileVersionId ∧
      done.sourceContentHash = c.chunk.sourceContentHash)

/-! ## Rows -/

structure TtsTarget where
  chunk : AudioScriptChunk
  voiceVersion : VoiceProfileVersion

/-- The chunks with their voices; `voiceProfileVersion!` raises when one is not there. -/
def targetsOf : List CastChunk → Option (List TtsTarget)
  | [] => some []
  | c :: cs => do
      let voiceVersion ← c.voiceProfileVersion
      return { chunk := c.chunk, voiceVersion := voiceVersion } :: (← targetsOf cs)

/-- The job of the request itself: nothing runs it, and it is created as `SUCCEEDED`. -/
def coordinatorJob (coordinatorJobId bookId audioScriptId : Id) : ProcessingJob where
  id := coordinatorJobId
  bookId := some bookId
  type := .generateTtsChunk
  status := .succeeded
  relatedResourceType := .audioScript
  relatedResourceId := audioScriptId
  maxAttempts := 1
  idempotencyKey := .ttsCoordinator audioScriptId coordinatorJobId

/-- The `idempotencyKey` of the job of a chunk: it has neither the version and the seed of the
chunk nor the token of a forced request. -/
def TtsTarget.idempotencyKey (t : TtsTarget) : IdempotencyKey :=
  .tts t.chunk.id t.voiceVersion.version t.voiceVersion.ttsModelVersionId
    t.voiceVersion.baseGenerationParamsHash

def ttsEnvelope (jobId ttsJobId audioScriptChunkId : Id) : Envelope where
  jobId := jobId
  entityId := some ttsJobId
  payload := .generateTtsChunk audioScriptChunkId ttsJobId

def ttsChunkJob (coordinatorJobId bookId jobId ttsJobId : Id) (t : TtsTarget) : ProcessingJob where
  id := jobId
  bookId := some bookId
  type := .generateTtsChunk
  relatedResourceType := .audioScriptChunk
  relatedResourceId := t.chunk.id
  parentJobId := some coordinatorJobId
  maxAttempts := 3
  idempotencyKey := t.idempotencyKey
  dispatchEnvelope := some (ttsEnvelope jobId ttsJobId t.chunk.id)

def ttsJobOf (ttsJobId : Id) (t : TtsTarget) : TtsJob where
  id := ttsJobId
  audioScriptChunkId := t.chunk.id
  status := .pending
  voiceProfileVersionId := t.voiceVersion.id
  generationParamsHash := t.voiceVersion.baseGenerationParamsHash
  ttsModelVersionId := t.voiceVersion.ttsModelVersionId

/-! ## The Service -/

/-- Create the rows of a request in one transaction, and enqueue its messages. Ids are drawn
before the transaction; they are random, so their order means nothing. -/
def createTtsJobs (bookId audioScriptId : Id) (targets : List TtsTarget) : Service Unit := do
  let coordinatorJobId ← freshId
  let withJobIds ← freshIdsFor targets
  let withIds ← freshIdsFor withJobIds
  perform (.createTtsJobs (coordinatorJob coordinatorJobId bookId audioScriptId)
    (withIds.map fun (ttsJobId, jobId, t) =>
      (ttsChunkJob coordinatorJobId bookId jobId ttsJobId t, ttsJobOf ttsJobId t)))
  enqueueAll (withIds.map fun (ttsJobId, jobId, t) => ttsEnvelope jobId ttsJobId t.chunk.id)

/-- The checks of `startTts`: the script and the chunks to synthesize, or nothing when all of them
have been. -/
def planTts (bookId : Id) (body : StartTts) : Service (Option (Id × List TtsTarget)) := do
  match ← query (findBook bookId) with
  | none => throw .uncoded
  | some book =>
  match book.currentAudioScriptId with
  | none => throw (.coded .audioScriptNotValidated)
  | some audioScriptId =>
  match ← query fun s => s.audioScripts.find? fun a => decide (a.id = audioScriptId) with
  | none => throw .uncoded
  | some script =>
  if script.state ≠ .validated then throw (.coded .audioScriptNotValidated) else
  if body.scopeMissing then throw .uncoded else
  let chunks ← query (requestedChunks script.id bookId body)
  match ttsRejection chunks with
  | some e => throw e
  | none =>
  let targetable ← query fun s => if body.force then chunks else filterAlreadyGenerated chunks s
  if targetable.isEmpty then return none else
  if body.priority = some .interactive ∧ 50 < targetable.length then throw .uncoded else
  match targetsOf targetable with
  | none => throw .uncoded
  | some targets => return some (script.id, targets)

def startTts (bookId : Id) (body : StartTts) : Service Unit := do
  match ← planTts bookId body with
  | none => return
  | some (audioScriptId, targets) => createTtsJobs bookId audioScriptId targets

end AudioBook
