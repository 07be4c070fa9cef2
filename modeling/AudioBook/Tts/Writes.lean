import AudioBook.Schema.Store

/-!
# The Synthesis Worker's Writes

The transactions' building blocks of `repo/writes_tts.py`: freezing a chunk when its synthesis
begins, recording a failed synthesis, and storing the audio of a chunk in place of its previous
audio.
-/

namespace AudioBook

open Relational

/-- The outcome of the technical checks on a synthesized chunk. -/
inductive ValidationStatus
  | pending
  | pass
  | fail
  deriving DecidableEq, Repr

/-- Synthesis of a chunk begins: its job runs and the chunk is locked. -/
def beginTtsJob (ttsJobId audioScriptChunkId : Id) : Tx Unit := do
  Db.ttsJob.update (fun job => decide (job.id = ttsJobId ∧ job.status = .pending)) fun job =>
    { job with status := .running }
  Db.audioScriptChunk.update
    (fun chunk => decide (chunk.id = audioScriptChunkId ∧ chunk.state ≠ .locked)) fun chunk =>
      { chunk with state := .locked, lockedAt := true }

def markTtsJobFailed (ttsJobId : Id) : Tx Unit :=
  Db.ttsJob.update (fun job => decide (job.id = ttsJobId)) fun job =>
    { job with status := .failed }

/-- The synthesized audio of a chunk, as the handler hands it to `insert_audio_chunk`. -/
structure NewAudioChunk where
  audioChunkId : Id
  audioScriptChunkId : Id
  ttsJobId : Id
  chapterId : Id
  validationStatus : ValidationStatus
  contentHash : Hash
  durationMs : ℕ
  voiceProfileVersionId : Id := 0
  generationParamsHash : Hash := 0
  sourceContentHash : Hash := 0

def findCurrentAudioChunk (audioScriptChunkId : Id) (s : Store) : Option AudioChunk :=
  s.audioChunks.find? fun a => decide (a.audioScriptChunkId = audioScriptChunkId ∧ a.isCurrent)

/-- Store the audio of a chunk as its current one, and return the id of the audio it
supersedes. The superseded row is pointed at the new one before that is inserted. -/
def insertAudioChunk (new : NewAudioChunk) : Tx (Option Id) := do
  let supersedesId := (findCurrentAudioChunk new.audioScriptChunkId (← get)).map AudioChunk.id
  match supersedesId with
  | some oldId =>
      Db.audioChunk.update (fun a => decide (a.id = oldId)) fun a =>
        { a with
          isCurrent := false
          status := .superseded
          supersededByAudioChunkId := some new.audioChunkId }
  | none => pure ()
  Db.audioChunk.insert {
    id := new.audioChunkId
    audioScriptChunkId := new.audioScriptChunkId
    ttsJobId := new.ttsJobId
    chapterId := new.chapterId
    supersedesAudioChunkId := supersedesId
    isCurrent := true
    status := if new.validationStatus = .pass then .validated else .invalid
    contentHash := new.contentHash
    durationMs := new.durationMs
    objectVerified := true
    voiceProfileVersionId := new.voiceProfileVersionId
    generationParamsHash := new.generationParamsHash
    sourceContentHash := new.sourceContentHash }
  Db.audioScriptChunk.update (fun chunk => decide (chunk.id = new.audioScriptChunkId)) fun chunk =>
    { chunk with currentAudioChunkId := some new.audioChunkId }
  Db.ttsJob.update (fun job => decide (job.id = new.ttsJobId)) fun job =>
    { job with
      status := .succeeded
      audioChunkId := some new.audioChunkId
      durationMs := some new.durationMs }
  return supersedesId

end AudioBook
