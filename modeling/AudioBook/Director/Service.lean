import AudioBook.Assembly.Shared

/-!
# The Director API

`startDirector` of the API's Director service: check that the book may be directed, and create
and enqueue the job of the first chapter of a run. The other chapters follow as a chain.
-/

namespace AudioBook

open Concurrent

/-- The `scope` of a request to start the Director. -/
inductive DirectorScope
  | book
  | chapters
  deriving DecidableEq

structure StartDirector where
  scope : DirectorScope
  chapterIds : List Id := []
  directorVersion : Option ℕ := none
  acknowledgeVersionMixing : Bool := false
  /-- The ingestion of the book and its story bible are complete. -/
  analysisComplete : Bool := true

def defaultDirectorVersion : ℕ := 1

/-- `ACTIVE_JOB_STATUSES`. -/
def JobStatus.IsActive (status : JobStatus) : Prop :=
  status ∈ [.created, .queued, .running, .retrying, .blocked]

instance (status : JobStatus) : Decidable status.IsActive :=
  inferInstanceAs (Decidable (_ ∈ _))

/-- A job of `DIRECTOR_JOB_TYPES` of the book is active. -/
def directorRunning (bookId : Id) (s : Store) : Bool :=
  s.processingJobs.any fun job => decide (job.bookId = some bookId ∧
    job.type ∈ [.generateDirectorIr, .reviseDirectorIr] ∧ job.status.IsActive)

def chaptersToDirect (bookVersionId : Id) (body : StartDirector) (s : Store) : List Chapter :=
  match body.scope with
  | .chapters => (chaptersOfVersion bookVersionId s).filter fun c => decide (c.id ∈ body.chapterIds)
  | .book => (chaptersOfVersion bookVersionId s).filter fun c => decide (c.matterType = .body)

def directorRootEnvelope (jobId bookId bookVersionId : Id) (directorVersion : ℕ)
    (firstChapter : Chapter) (chapters : List Chapter) : Envelope where
  jobId := jobId
  entityId := some jobId
  payload := .generateDirectorIr {
    bookId := bookId
    bookVersionId := bookVersionId
    audioScriptId := none
    directorVersion := directorVersion
    chapterId := firstChapter.id
    remainingChapterIds := chapters.map Chapter.id
    allChapterIds := (firstChapter :: chapters).map Chapter.id
    rootJobId := jobId
    sequenceIndexStart := 0 }

def directorRootJob (jobId bookId bookVersionId : Id) (directorVersion : ℕ)
    (firstChapter : Chapter) (chapters : List Chapter) : ProcessingJob where
  id := jobId
  bookId := some bookId
  type := .generateDirectorIr
  relatedResourceType := .bookVersion
  relatedResourceId := bookVersionId
  idempotencyKey := .directorRun bookVersionId firstChapter.id directorVersion jobId
  dispatchEnvelope :=
    some (directorRootEnvelope jobId bookId bookVersionId directorVersion firstChapter chapters)

def startDirector (bookId : Id) (body : StartDirector) : Service Unit := do
  match ← query (findBook bookId) with
  | none => throw .uncoded
  | some book =>
  match book.currentBookVersionId with
  | none => throw .uncoded
  | some bookVersionId =>
  if ¬ body.analysisComplete then throw .uncoded else
  if ← query (directorRunning bookId) then throw .uncoded else
  let chapters ← query (chaptersToDirect bookVersionId body)
  if body.scope = .chapters ∧
      (¬ (∀ i ∈ body.chapterIds, i ∈ chapters.map Chapter.id) ∨ chapters.length ≠ 1) then
    throw .uncoded else
  match chapters with
  | [] => throw .uncoded
  | firstChapter :: rest =>
  let directorVersion := body.directorVersion.getD defaultDirectorVersion
  let current ← query fun s => s.audioScripts.find? fun a => decide (a.bookId = bookId ∧ a.isCurrent)
  if (current.any fun a => decide (a.directorVersion ≠ directorVersion)) ∧
      ¬ body.acknowledgeVersionMixing then
    throw (.coded .directorVersionMixingForbidden) else
  let jobId ← freshId
  perform (.createJobs
    [directorRootJob jobId bookId bookVersionId directorVersion firstChapter rest])
  enqueueProcessingJob
    (directorRootEnvelope jobId bookId bookVersionId directorVersion firstChapter rest)

/-! ## A Small Book -/

/-- A book of two chapters, each with one short paragraph, of which nothing was made yet. -/
def twoChapterBook : Store where
  books := [{ id := 1, currentBookVersionId := some 2 }]
  bookVersions := [{
    id := 2, bookId := 1, version := 1, isCurrent := true, contentHash := 5,
    pipelineVersion := 1 }]
  chapters := [
    { id := 3, bookId := 1, bookVersionId := 2, orderIndex := 0, matterType := .body },
    { id := 4, bookId := 1, bookVersionId := 2, orderIndex := 1, matterType := .body }]
  paragraphs := [
    { id := 5, bookVersionId := 2, chapterId := 3, orderIndex := 0, spinePosition := 0,
      text := ['H', 'i', '.'] },
    { id := 6, bookVersionId := 2, chapterId := 4, orderIndex := 0, spinePosition := 1,
      text := ['B', 'y', 'e', '.'] }]
  nextId := 100

/-- The same book, after a user started the Director; the job is 100. -/
def directedBook : Store :=
  ((startDirector 1 { scope := .book }).evaluate (fun _ => none) twoChapterBook).2

def directedBookMessage : Envelope where
  jobId := 100
  entityId := some 100
  payload := .generateDirectorIr {
    bookId := 1
    bookVersionId := 2
    audioScriptId := none
    directorVersion := 1
    chapterId := 3
    remainingChapterIds := [4]
    allChapterIds := [3, 4]
    rootJobId := 100
    sequenceIndexStart := 0 }

example : directedBook.queue = [directedBookMessage] := by decide +kernel

end AudioBook
