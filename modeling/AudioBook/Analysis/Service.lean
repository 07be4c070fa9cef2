import AudioBook.Director.Service
import AudioBook.Workers.Queue

/-!
# The Analysis API

`startAnalysis` of the API's analysis service: check that the book may be analysed, and create and
enqueue the job of the first chapter of a run. The other chapters follow as a chain of jobs that
the workers create, which the queue delivers until each succeeds or has no attempt left.
-/

namespace AudioBook

open Concurrent

/-! ## Starting an Analysis -/

/-- The `scope` of a request to start an analysis. -/
inductive AnalysisScope
  | book
  | chapters
  deriving DecidableEq

structure StartAnalysis where
  scope : AnalysisScope
  chapterIds : List Id := []
  mode : AnalysisMode
  /-- The version of the book is `READY` or `PARTIAL_OCR`. -/
  ingestionComplete : Bool := true

/-- A job of `ANALYSIS_JOB_TYPES` of the book is active. -/
def analysisRunning (bookId : Id) (s : Store) : Bool :=
  s.processingJobs.any fun job => decide (job.bookId = some bookId ∧
    job.type ∈ [.analyzeScene, .buildStoryBibleDelta] ∧ job.status.IsActive)

def findBookVersion (bookVersionId : Id) (s : Store) : Option BookVersion :=
  s.bookVersions.find? fun v => decide (v.id = bookVersionId)

/-- The chapters to analyse, in reading order. -/
def chaptersToAnalyze (bookVersionId : Id) (body : StartAnalysis) (s : Store) : List Chapter :=
  match body.scope with
  | .chapters => (chaptersOfVersion bookVersionId s).filter fun c => decide (c.id ∈ body.chapterIds)
  | .book => (chaptersOfVersion bookVersionId s).filter fun c => decide (c.matterType = .body)

def analysisRootEnvelope (jobId bookId bookVersionId : Id) (mode : AnalysisMode)
    (firstChapter : Chapter) (chapters : List Chapter) : Envelope where
  jobId := jobId
  entityId := some jobId
  payload := .analyzeScene {
    bookId := bookId
    bookVersionId := bookVersionId
    storyBibleVersionId := none
    chapterId := firstChapter.id
    remainingChapterIds := chapters.map Chapter.id
    rootJobId := jobId
    analysisMode := mode }

/-- The first job of an analysis; its key has the id of the job, unlike the keys of the jobs that
the workers create for the other chapters. -/
def analysisRootJob (jobId bookId bookVersionId : Id) (mode : AnalysisMode)
    (firstChapter : Chapter) (chapters : List Chapter) : ProcessingJob where
  id := jobId
  bookId := some bookId
  type := .analyzeScene
  relatedResourceType := .bookVersion
  relatedResourceId := bookVersionId
  idempotencyKey := .analysisRun bookVersionId firstChapter.id mode jobId
  dispatchEnvelope :=
    some (analysisRootEnvelope jobId bookId bookVersionId mode firstChapter chapters)

def startAnalysis (bookId : Id) (body : StartAnalysis) : Service Unit := do
  match ← query (findBook bookId) with
  | none => throw .uncoded
  | some book =>
  match book.currentBookVersionId with
  | none => throw .uncoded
  | some bookVersionId =>
  if (← query (findBookVersion bookVersionId)).isNone ∨ ¬ body.ingestionComplete then
    throw .uncoded else
  if ← query (analysisRunning bookId) then throw .uncoded else
  let chapters ← query (chaptersToAnalyze bookVersionId body)
  if body.scope = .chapters ∧ ¬ (∀ i ∈ body.chapterIds, i ∈ chapters.map Chapter.id) then
    throw .uncoded else
  match chapters with
  | [] => throw .uncoded
  | firstChapter :: rest =>
  let jobId ← freshId
  perform (.createJobs
    [analysisRootJob jobId bookId bookVersionId body.mode firstChapter rest])
  enqueueProcessingJob
    (analysisRootEnvelope jobId bookId bookVersionId body.mode firstChapter rest)

/-! ## Working Through the Queue -/

def analysisDelivery (modelVersionId : Id) (m : Envelope) (attempt : ℕ) : WorkerDelivery :=
  { plainDelivery m attempt with
    ctx := { (plainDelivery m attempt).ctx with modelVersionId := some modelVersionId } }

/-- The deliveries of a message, from an attempt on, with `n` attempts left: it is delivered until
the worker does not raise, or raises `UnrecoverableError`. Nothing else happens to the store. -/
def redeliver (modelVersionId : Id) (m : Envelope) : ℕ → ℕ → Store → Store
  | _, 0, s => s
  | attempt, n + 1, s =>
      match (process (analysisDelivery modelVersionId m attempt)).evaluate (fun _ => none) s with
      | (.ok (), s') => s'
      | (.error err, s') =>
          if err = .unrecoverable then s' else redeliver modelVersionId m (attempt + 1) n s'

/-- A worker takes up to `n` messages off the queue, one after the other, from a position on. -/
def workThrough (modelVersionId : Id) : ℕ → ℕ → Store → Store
  | 0, _, s => s
  | n + 1, position, s =>
      match s.queue[position]? with
      | none => s
      | some m => workThrough modelVersionId n (position + 1) (redeliver modelVersionId m 1 3 s)

end AudioBook
