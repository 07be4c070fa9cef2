import AudioBook.Director.Handlers
import AudioBook.Tts.Handler

/-!
# The Queue Runtime of the Workers

The handlers of an analysis, `handle_analyze_scene` and `handle_build_story_bible_delta`, the two
links of the chain over the chapters of a book: of their sessions the writes to `processing_job` are
modelled, the scenes, characters and facts belong to tables that nothing else here reads. Then
`QueueConsumer._process` and the cancellation gate: what happens to one delivery of a message
before, around and after its handler.
-/

namespace AudioBook

open Concurrent

/-! ## The Links of the Chain -/

/-- The message of the `build_story_bible_delta` job of a chapter. -/
def deltaEnvelope (jobId : Id) (payload : AnalysisPayload) (storyBibleVersionId : Id) : Envelope where
  jobId := jobId
  entityId := some jobId
  payload := .buildStoryBibleDelta { payload with storyBibleVersionId := some storyBibleVersionId }

/-- The `build_story_bible_delta` job of a chapter, as `create_child_job` inserts it. -/
def deltaJob (jobId : Id) (payload : AnalysisPayload) (storyBibleVersionId modelVersionId : Id) :
    ProcessingJob where
  id := jobId
  bookId := some payload.bookId
  type := .buildStoryBibleDelta
  relatedResourceType := .bookVersion
  relatedResourceId := payload.bookVersionId
  parentJobId := some payload.rootJobId
  idempotencyKey := .storyBible storyBibleVersionId payload.chapterId modelVersionId

/-- The message of the `analyze_scene` job of the next chapter. -/
def analyzeEnvelope (jobId : Id) (payload : AnalysisPayload) (nextChapterId : Id)
    (remainingChapterIds : List Id) : Envelope where
  jobId := jobId
  entityId := some jobId
  payload := .analyzeScene { payload with
    chapterId := nextChapterId
    remainingChapterIds := remainingChapterIds }

/-- The `analyze_scene` job of the next chapter, as `create_child_job` inserts it. -/
def analyzeJob (jobId : Id) (payload : AnalysisPayload) (nextChapterId : Id) : ProcessingJob where
  id := jobId
  bookId := some payload.bookId
  type := .analyzeScene
  relatedResourceType := .bookVersion
  relatedResourceId := payload.bookVersionId
  parentJobId := some payload.rootJobId
  idempotencyKey := .analyzeScene payload.bookVersionId nextChapterId payload.analysisMode

/-! ## The Handlers -/

def handleAnalyzeScene (payload : AnalysisPayload) (ctx : JobContext) : Worker Unit := do
  let jobId := ctx.envelope.jobId
  match ← Worker.query (findJob jobId) with
  | none => throw (.terminal .jobNotFound)
  | some job =>
  if job.status = .succeeded ∨ job.status = .failed then return else
  let chapter ← Worker.query (findChapter payload.chapterId)
  let bookVersion ← Worker.query fun s =>
    s.bookVersions.find? fun v => decide (v.id = payload.bookVersionId)
  if chapter.isNone ∨ bookVersion.isNone then throw (.terminal .insufficientContext) else
  match ctx.modelVersionId with
  | none => throw (.terminal .modelVersionNotRegistered)
  | some modelVersionId =>
  Worker.run (.begin jobId)
  tryCatch (Worker.callModel 1) fun err => do
    if err.IsJobError ∧ ctx.isFinalAttempt then
      Worker.run (.fail jobId (err.codeOr .semanticAnalysisFailed))
    throw err
  let newVersionId ← Worker.newId
  let storyBibleVersionId := payload.storyBibleVersionId.getD newVersionId
  let nextJobId ← Worker.newId
  Worker.run (.persistAnalysis jobId
    (deltaJob nextJobId payload storyBibleVersionId modelVersionId))
  -- Enqueue only after the session above has committed.
  Worker.run (.enqueue (deltaEnvelope nextJobId payload storyBibleVersionId))

def handleBuildStoryBibleDelta (payload : AnalysisPayload) (ctx : JobContext) : Worker Unit := do
  let jobId := ctx.envelope.jobId
  match ← Worker.query (findJob jobId) with
  | none => return
  | some job =>
  if job.status = .succeeded ∨ job.status = .failed then return else
  -- `get_story_bible_version`, and the facts of the chapter.
  Worker.query fun _ => ()
  match payload.remainingChapterIds with
  | [] => Worker.run (.integrateDelta jobId (.finalize payload.rootJobId))
  | nextChapterId :: remaining =>
      if (← Worker.query (findChapter nextChapterId)).isNone then throw (.unexpected [])
      let nextJobId ← Worker.newId
      Worker.run (.integrateDelta jobId (.chain (analyzeJob nextJobId payload nextChapterId)))
      -- `_reload_chapter`.
      let _ ← Worker.query (findChapter nextChapterId)
      Worker.run (.enqueue (analyzeEnvelope nextJobId payload nextChapterId remaining))

/-! ## The Cancellation Gate -/

/-- `is_cancelled`: the flag in the cache, or the column when the cache cannot answer. -/
def isCancelled (jobId : Id) : Worker Bool :=
  tryCatch
    (Prog.read (.readCancellationFlag jobId) fun s => decide (jobId ∈ s.cancellationFlags))
    fun _ => Worker.query fun s => ((findJob jobId s).map ProcessingJob.cancellationRequested).getD false

/-- `halt_if_cancelled`. -/
def workerHaltIfCancelled (jobId : Id) : Worker Bool := do
  match ← Worker.query (findJob jobId) with
  | none => return false
  | some job =>
  if job.status = .cancelled then return true else
  let cancelled ← if job.cancellationRequested then pure true else isCancelled jobId
  if ¬ cancelled then return false else
  Worker.run (.haltCancelled jobId)
  return true

/-! ## Processing -/

/-- The handler of a message; a message of a type that no worker knows is acknowledged. -/
def handleJob (ctx : JobContext) : Worker Unit :=
  match ctx.envelope.payload with
  | .analyzeScene payload => handleAnalyzeScene payload ctx
  | .buildStoryBibleDelta payload => handleBuildStoryBibleDelta payload ctx
  | .generateDirectorIr payload => handleGenerateDirectorIr payload ctx
  | .reviseDirectorIr bookId chunkIds directorVersion =>
      handleReviseDirectorIr bookId chunkIds directorVersion ctx
  | .generateTtsChunk _ ttsJobId => handleGenerateTtsChunk ttsJobId ctx
  | _ => pure ()

structure WorkerDelivery where
  /-- The envelope, and what the handler finds outside of the store. -/
  ctx : JobContext
  draining : Bool := false
  /-- `SimpleJobEnvelope.model_validate` accepts the message. -/
  wellFormed : Bool := true

def process (d : WorkerDelivery) : Worker Unit := do
  if d.draining then throw (.transient .workerDraining) else
  if ¬ d.wellFormed then throw .unrecoverable else
  tryCatch (do
    if ← workerHaltIfCancelled d.ctx.envelope.jobId then return
    handleJob d.ctx) fun
      | .terminal _ => throw .unrecoverable
      | err => throw err

/-- The delivery of a message whose handler finds every span to be the narrator's. -/
def plainDelivery (m : Envelope) (attempt : ℕ) : WorkerDelivery where
  ctx := {
    envelope := m
    attempt := attempt
    maxAttempts := 3
    modelVersionId := some 9
    interpret := fun _ _ => {
      sceneId := none
      speakerType := .narrator
      characterId := none
      voiceProfileVersionId := none
      fallbackApplied := false
      lowConfidence := false
      nonVerbal := false }
    synthesis := { validationStatus := .pass, contentHash := 0, durationMs := 900 } }

end AudioBook
