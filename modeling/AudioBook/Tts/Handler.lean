import AudioBook.Assembly.Shared
import AudioBook.Workers.Access

/-!
# The Synthesis Worker's Handler

`handle_generate_tts_chunk`: read and freeze the chunk, synthesize it outside of any session, and
store the result.
-/

namespace AudioBook

open Concurrent

/-! ## Queries -/

/-- `load_tts_job`. -/
def findTtsJob (ttsJobId : Id) (s : Store) : Option TtsJob :=
  s.ttsJobs.find? fun job => decide (job.id = ttsJobId)

/-- `load_audio_script_chunk`. -/
def findCurrentScriptChunk (chunkId : Id) (s : Store) : Option AudioScriptChunk :=
  s.audioScriptChunks.find? fun c => decide (c.id = chunkId ∧ c.isCurrent)

/-- `find_current_audio_chunk`: the chunk's current audio, if it is good and has the lineage that
the job would give it. -/
def findMatchingAudioChunk (chunk : AudioScriptChunk) (ttsJob : TtsJob) (s : Store) :
    Option AudioChunk :=
  s.audioChunks.find? fun a => decide (a.audioScriptChunkId = chunk.id ∧ a.isCurrent ∧
    a.status ∈ [.generated, .validated, .assembled] ∧
    a.voiceProfileVersionId = ttsJob.voiceProfileVersionId ∧
    a.generationParamsHash = ttsJob.generationParamsHash ∧
    a.sourceContentHash = chunk.sourceContentHash)

/-- `load_voice_profile_version`. -/
def findVoiceProfileVersion (versionId : Id) (s : Store) : Option VoiceProfileVersion :=
  s.voiceProfileVersions.find? fun v => decide (v.id = versionId)

/-! ## The Handler -/

/-- `_record_failure`, and the exception that the handler then raises. -/
def raiseTtsError (ctx : JobContext) (ttsJobId : Id) (code : TtsErrorCode) : Worker Unit := do
  if ctx.isFinalAttempt then
    Worker.run (.failSynthesis ctx.envelope.jobId ttsJobId code)
  throw (toJobError code)

def newAudioChunk (ctx : JobContext) (ttsJob : TtsJob) (chunk : AudioScriptChunk)
    (audioChunkId : Id) : NewAudioChunk where
  audioChunkId := audioChunkId
  audioScriptChunkId := chunk.id
  ttsJobId := ttsJob.id
  chapterId := chunk.chapterId
  validationStatus := ctx.synthesis.validationStatus
  contentHash := ctx.synthesis.contentHash
  durationMs := ctx.synthesis.durationMs
  voiceProfileVersionId := ttsJob.voiceProfileVersionId
  generationParamsHash := ttsJob.generationParamsHash
  sourceContentHash := chunk.sourceContentHash

def synthesizeChunk (ctx : JobContext) (ttsJob : TtsJob) (chunk : AudioScriptChunk) :
    Worker Unit := do
  tryCatch (Prog.read .synthesize fun _ => ()) fun err =>
    raiseTtsError ctx ttsJob.id (classifyProviderError err)
  tryCatch (Prog.read .upload fun _ => ()) fun _ =>
    raiseTtsError ctx ttsJob.id .outputStorageFailed
  let audioChunkId ← Worker.newId
  Worker.run (.persistAudio ctx.envelope.jobId (newAudioChunk ctx ttsJob chunk audioChunkId))

def handleGenerateTtsChunk (ttsJobId : Id) (ctx : JobContext) : Worker Unit := do
  let jobId := ctx.envelope.jobId
  match ← Worker.query (findJob jobId) with
  | none => throw (.terminal .jobNotFound)
  | some job =>
  if job.status = .succeeded ∨ job.status = .failed then return else
  match ← Worker.query (findTtsJob ttsJobId) with
  | none => throw (.terminal .ttsJobNotFound)
  | some ttsJob =>
  if ttsJob.status = .succeeded ∨ ttsJob.status = .cancelled then
    Worker.run (.succeed jobId) else
  match ← Worker.query (findCurrentScriptChunk ttsJob.audioScriptChunkId) with
  | none => throw (.terminal (.tts .invalidAudioScript))
  | some chunk =>
  if (← Worker.query (findMatchingAudioChunk chunk ttsJob)).isSome then
    Worker.run (.skip jobId) else
  match ← Worker.query (findVoiceProfileVersion ttsJob.voiceProfileVersionId) with
  | none => throw (.terminal (.tts .missingVoiceProfile))
  | some voiceVersion =>
  if voiceVersion.approvalState ∉ [.approved, .locked] then
    throw (.terminal (.tts .voiceVersionInvalid)) else
  match ctx.modelVersionId with
  | none => throw (.terminal .modelVersionNotRegistered)
  | some loadedModelVersionId =>
  if loadedModelVersionId ≠ ttsJob.ttsModelVersionId then
    throw (.terminal (.tts .modelNotFound)) else
  let script ← Worker.query fun s =>
    s.audioScripts.find? fun a => decide (a.id = chunk.audioScriptId)
  if script.isNone then throw (.terminal (.tts .invalidAudioScript)) else
  Worker.run (.beginSynthesis jobId ttsJobId chunk.id)
  synthesizeChunk ctx ttsJob chunk

end AudioBook
