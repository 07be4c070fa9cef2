import AudioBook.Concurrent.Triples
import AudioBook.Director.Service
import AudioBook.Jobs.Writes

/-!
# Building a Story Bible

The analyses of one book version and the story bible that they build. An analysis is a chain: the
`analyze_scene` job of a chapter creates the `build_story_bible_delta` job of the chapter, and that
one the `analyze_scene` job of the next chapter. The first link creates the version of the story
bible, every second one counts its chapter, and the last one finalises the version.

- `StoryBibleRow`, `StoryBibleVersion`, `LinkJob`: the rows.
- `createStoryBibleVersion`, `recordChapterProgress`, `finalizeStoryBible`: what the sessions of
  the handlers do to the story bible.
- `bibleSystem`: any interleaving of requests and deliveries.
-/

namespace AudioBook.StoryBible

open Relational Concurrent

/-! ## Rows -/

inductive StoryBibleStatus
  | notBuilt
  | building
  | ready
  | stale
  | failed
  deriving DecidableEq

/-- The row of `story_bible` of the book. -/
structure StoryBibleRow where
  status : StoryBibleStatus
  currentVersionId : Option Id := none
  chaptersAnalyzed : ℕ := 0
  chaptersTotal : ℕ

/-- A row of `story_bible_version`. -/
structure StoryBibleVersion where
  id : Id
  version : ℕ
  isCurrent : Bool := false
  /-- History: the chapters of the analysis that builds it. -/
  requested : List Id

structure LinkPayload where
  chapterId : Id
  /-- Missing in the first message of an analysis. -/
  storyBibleVersionId : Option Id
  remainingChapterIds : List Id
  rootJobId : Id
  analysisMode : AnalysisMode
  chaptersTotal : ℕ
  deriving DecidableEq

/-- A message of the chain: the job that it is about, its type and the payload. -/
structure Message where
  jobId : Id
  type : JobType
  payload : LinkPayload
  deriving DecidableEq

/-- A row of `processing_job`, with the message that is sent for it. -/
structure LinkJob where
  message : Message
  status : JobStatus := .created
  idempotencyKey : IdempotencyKey

/-- What the API and the workers share. -/
structure BibleStore where
  jobs : List LinkJob := []
  bible : Option StoryBibleRow := none
  versions : List StoryBibleVersion := []
  /-- History: the chapters that `chapters_analyzed` has counted. -/
  counted : List Id := []

/-- The handlers do not run the job again. -/
def LinkJob.IsFinished (job : LinkJob) : Prop := job.status = .succeeded ∨ job.status = .failed

instance (job : LinkJob) : Decidable job.IsFinished := inferInstanceAs (Decidable (_ ∨ _))

/-- The key of the partial unique index on `idempotency_key`. -/
def LinkJob.liveKey (job : LinkJob) : Option IdempotencyKey :=
  if job.status ∈ [.failed, .cancelled, .deadLettered] then none else some job.idempotencyKey

/-- `processing_job`. -/
def linkJob : Table BibleStore LinkJob where
  rows := BibleStore.jobs
  setRows rows s := { s with jobs := rows }
  constraints := [.uniqueWhere fun job => some job.message.jobId, .uniqueWhere LinkJob.liveKey]

def storyBibleVersion : Table BibleStore StoryBibleVersion where
  rows := BibleStore.versions
  setRows rows s := { s with versions := rows }
  constraints := [.uniqueWhere fun v => some v.id, .uniqueWhere fun v => some v.version]

/-! ## Transactions -/

/-- Why a request or a handler raises. -/
inductive BibleError
  | violation (v : Violation)
  | analysisAlreadyRunning
  | noChapters
  | jobNotFound
  | analysisFailed
  | versionNotFound
  deriving DecidableEq

instance : OfViolation BibleError := ⟨.violation⟩

/-- A transaction of the API or a worker. -/
abbrev BibleTx := Transaction BibleStore BibleError

def withStatus (status : JobStatus) (job : LinkJob) : LinkJob := { job with status := status }

def setStatus (jobId : Id) (status : JobStatus) : BibleTx Unit :=
  linkJob.update (fun job => decide (job.message.jobId = jobId)) (withStatus status)

/-- `get_next_version_number`. -/
def nextVersionNumber (s : BibleStore) : ℕ :=
  (s.versions.map StoryBibleVersion.version).foldr max 0 + 1

/-- `create_story_bible_version`: insert the version, and insert or update the story bible. -/
def createStoryBibleVersion (id : Id) (payload : LinkPayload) : BibleTx Id := do
  let version := nextVersionNumber (← get)
  storyBibleVersion.insert {
    id := id
    version := version
    requested := payload.chapterId :: payload.remainingChapterIds }
  modify fun s => { s with bible := some <| match s.bible with
    | none => { status := .building, chaptersTotal := payload.chaptersTotal }
    -- `ON CONFLICT (book_id) DO UPDATE`, which leaves `chapters_analyzed` as it is
    | some bible => { bible with status := .building, chaptersTotal := payload.chaptersTotal } }
  return id

def recordChapterProgress (chapterId : Id) : BibleTx Unit :=
  modify fun s => match s.bible with
    | none => s
    | some bible => { s with
        bible := some { bible with chaptersAnalyzed := bible.chaptersAnalyzed + 1 }
        counted := s.counted ++ [chapterId] }

def finalizeStoryBible (versionId : Id) : BibleTx Unit := do
  storyBibleVersion.update (fun v => decide (v.id = versionId)) ({ · with isCurrent := true })
  storyBibleVersion.update (fun v => decide (v.id ≠ versionId) && v.isCurrent)
    ({ · with isCurrent := false })
  modify fun s => { s with bible := s.bible.map ({ · with
    status := .ready, currentVersionId := some versionId }) }

def finalizeRootJob (rootJobId : Id) : BibleTx Unit :=
  linkJob.update (fun job => decide (job.message.jobId = rootJobId ∧ ¬ job.IsFinished))
    (withStatus .succeeded)

/-- One delivery of a message: the ids that the worker makes up, and how the analysis goes. -/
structure Delivery where
  newVersionId : Id
  nextJobId : Id
  modelVersionId : Id
  analysisFails : Bool := false
  isFinalAttempt : Bool := false

/-- The `build_story_bible_delta` job of a chapter. -/
def deltaJob (jobId versionId modelVersionId : Id) (payload : LinkPayload) : LinkJob where
  message := ⟨jobId, .buildStoryBibleDelta, { payload with storyBibleVersionId := some versionId }⟩
  idempotencyKey := .storyBible versionId payload.chapterId modelVersionId

/-- The `analyze_scene` job of the next chapter. -/
def analyzeJob (bookVersionId jobId nextChapterId : Id) (remaining : List Id)
    (payload : LinkPayload) : LinkJob where
  message := ⟨jobId, .analyzeScene, { payload with
    chapterId := nextChapterId, remainingChapterIds := remaining }⟩
  idempotencyKey := .analyzeScene bookVersionId nextChapterId payload.analysisMode

/-- The second session of `handle_analyze_scene`. -/
def persistAnalysis (message : Message) (d : Delivery) : BibleTx Unit := do
  let versionId ← match message.payload.storyBibleVersionId with
    | some versionId => pure versionId
    | none => createStoryBibleVersion d.newVersionId message.payload
  linkJob.insert (deltaJob d.nextJobId versionId d.modelVersionId message.payload)
  setStatus message.jobId .succeeded

/-- The writes of the session of `handle_build_story_bible_delta`. -/
def integrateDelta (bookVersionId : Id) (message : Message) (versionId : Id) (d : Delivery) :
    BibleTx Unit := do
  setStatus message.jobId .running
  recordChapterProgress message.payload.chapterId
  match message.payload.remainingChapterIds with
  | [] =>
      finalizeStoryBible versionId
      setStatus message.jobId .succeeded
      finalizeRootJob message.payload.rootJobId
  | nextChapterId :: remaining =>
      linkJob.insert
        (analyzeJob bookVersionId d.nextJobId nextChapterId remaining message.payload)
      setStatus message.jobId .succeeded

/-! ## Accesses -/

inductive BibleAccess
  | query
  | create (job : LinkJob)
  | begin (jobId : Id)
  | fail (jobId : Id)
  | persistAnalysis (message : Message) (d : Delivery)
  | integrateDelta (message : Message) (versionId : Id) (d : Delivery)
  | cancel (jobId : Id)

def BibleAccess.transaction (bookVersionId : Id) : BibleAccess → BibleTx Unit
  | query => pure ()
  | create job => linkJob.insert job
  | begin jobId => setStatus jobId .running
  | fail jobId => setStatus jobId .failed
  | persistAnalysis message d => StoryBible.persistAnalysis message d
  | integrateDelta message versionId d =>
      StoryBible.integrateDelta bookVersionId message versionId d
  | cancel jobId => linkJob.update
      (fun job => decide (job.message.jobId = jobId ∧ job.status.IsImmediatelyCancellable))
      (withStatus .cancelled)

/-- A program of the API or a worker. -/
abbrev BibleProg := Prog BibleStore BibleAccess BibleError

def query {α : Type} (f : BibleStore → α) : BibleProg α := Prog.read .query f

def run (bookVersionId : Id) (a : BibleAccess) : BibleProg Unit :=
  Prog.atomically a (a.transaction bookVersionId)

/-! ## Programs -/

/-- A request to start an analysis: the id of its job, and the chapters that are selected. -/
structure StartAnalysis where
  jobId : Id
  mode : AnalysisMode
  chapterIds : List Id
  nodup : chapterIds.Nodup

def rootJob (bookVersionId : Id) (r : StartAnalysis) (firstChapterId : Id) (remaining : List Id) :
    LinkJob where
  message := ⟨r.jobId, .analyzeScene, {
    chapterId := firstChapterId
    storyBibleVersionId := none
    remainingChapterIds := remaining
    rootJobId := r.jobId
    analysisMode := r.mode
    chaptersTotal := remaining.length + 1 }⟩
  idempotencyKey := .analysisRun bookVersionId firstChapterId r.mode r.jobId

def startAnalysis (bookVersionId : Id) (r : StartAnalysis) : BibleProg Unit := do
  if ← query fun s => s.jobs.any fun job => decide job.status.IsActive then
    throw .analysisAlreadyRunning else
  match r.chapterIds with
  | [] => throw .noChapters
  | firstChapterId :: remaining =>
      run bookVersionId (.create (rootJob bookVersionId r firstChapterId remaining))

def findJob (jobId : Id) (s : BibleStore) : Option LinkJob :=
  s.jobs.find? fun job => decide (job.message.jobId = jobId)

def handleAnalyzeScene (bookVersionId : Id) (message : Message) (d : Delivery) :
    BibleProg Unit := do
  match ← query (findJob message.jobId) with
  | none => throw .jobNotFound
  | some job =>
  if job.IsFinished then return else
  run bookVersionId (.begin message.jobId)
  if d.analysisFails then
    if d.isFinalAttempt then
      run bookVersionId (.fail message.jobId)
      throw .analysisFailed else
    throw .analysisFailed else
  run bookVersionId (.persistAnalysis message d)

def handleBuildStoryBibleDelta (bookVersionId : Id) (message : Message) (d : Delivery) :
    BibleProg Unit := do
  match ← query (findJob message.jobId) with
  | none => return
  | some job =>
  if job.IsFinished then return else
  match message.payload.storyBibleVersionId with
  | none => throw .versionNotFound
  | some versionId =>
  if ← query fun s => s.versions.all fun v => decide (v.id ≠ versionId) then
    throw .versionNotFound else
  run bookVersionId (.integrateDelta message versionId d)

/-! ## The System -/

inductive BibleRequest
  | startAnalysis (r : StartAnalysis)
  /-- A message is delivered, for the first time or again. -/
  | deliver (message : Message) (d : Delivery)
  | cancelJob (jobId : Id)

/-- The message is that of a job: sent by whoever created the job, or by the sweeper. -/
def Sent (message : Message) (s : BibleStore) : Prop := message ∈ s.jobs.map LinkJob.message

/-- The analyses of a book version that was never analysed before. -/
def bibleSystem (bookVersionId : Id) :
    System BibleStore BibleRequest BibleAccess BibleError where
  init s := s.jobs = [] ∧ s.bible = none ∧ s.versions = [] ∧ s.counted = []
  enabled
    | .deliver message _, s => Sent message s
    | _, _ => True
  program
    | .startAnalysis r => StoryBible.startAnalysis bookVersionId r
    | .deliver message d => if message.type = .buildStoryBibleDelta
        then handleBuildStoryBibleDelta bookVersionId message d
        else handleAnalyzeScene bookVersionId message d
    | .cancelJob jobId => run bookVersionId (.cancel jobId)

instance (message : Message) (s : BibleStore) : Decidable (Sent message s) :=
  inferInstanceAs (Decidable (_ ∈ _))

instance (bookVersionId : Id) :
    (i : BibleRequest) → (s : BibleStore) → Decidable ((bibleSystem bookVersionId).enabled i s)
  | .deliver message _, s => inferInstanceAs (Decidable (Sent message s))
  | .startAnalysis _, _ | .cancelJob _, _ => isTrue trivial

end AudioBook.StoryBible
