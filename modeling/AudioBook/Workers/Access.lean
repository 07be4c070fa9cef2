import AudioBook.Concurrent.Program
import AudioBook.Director.Chunker
import AudioBook.Director.Finalize
import AudioBook.Tts.Writes

/-!
# The Accesses of the Python Workers

Every access that the Director's and the synthesis worker's handlers make to what the services
share, with the session it runs, and the accesses to the world outside of it, which can only fail.
A handler first reads what it needs, then writes in a session of its own.
-/

namespace AudioBook

open Relational Concurrent

inductive ChapterEnd
  | chain (child : ProcessingJob)
  | finalize (bookId rootJobId audioScriptId : Id) (allChapterIds : List Id)

inductive DeltaEnd
  | chain (child : ProcessingJob)
  | finalize (rootJobId : Id)

structure NewAudioScript where
  audioScriptId : Id
  bookId : Id
  bookVersionId : Id
  directorVersion : ℕ
  jobId : Id

/-- A chunk as `load_chunk_for_revision` returned it, with what it becomes. -/
structure Revision where
  row : AudioScriptChunk
  newChunkId : Id
  built : BuiltChunk

inductive WorkerAccess
  | query
  | readCancellationFlag (jobId : Id)
  | newIds (n : ℕ)
  | callModel
  | synthesize
  | upload
  /-- Put a message on the broker, unless a message with its id is there. -/
  | enqueue (envelope : Envelope)
  | haltCancelled (jobId : Id)
  | begin (jobId : Id)
  | succeed (jobId : Id)
  /-- A session that marks the job as running and as succeeded: there is nothing to do. -/
  | skip (jobId : Id)
  | fail (jobId : Id) (errorCode : ErrorCode)
  /-- The first session of `handle_generate_director_ir`; it creates the script of a new run. -/
  | beginChapter (jobId : Id) (script : Option NewAudioScript)
  /-- The second session of `handle_generate_director_ir`. -/
  | persistChapter (jobId : Id) (chunks : List BuiltChunk) (ending : ChapterEnd)
  /-- The second session of `handle_analyze_scene`. -/
  | persistAnalysis (jobId : Id) (child : ProcessingJob)
  /-- The session of `handle_build_story_bible_delta`. -/
  | integrateDelta (jobId : Id) (ending : DeltaEnd)
  /-- The write session of `handle_revise_director_ir`. -/
  | persistRevision (jobId : Id) (revisions : List Revision)
  /-- The same session when the model raised on the final attempt. -/
  | abandonRevision (jobId : Id) (err : WorkerError)
  /-- The first session of `handle_generate_tts_chunk`. -/
  | beginSynthesis (jobId ttsJobId audioScriptChunkId : Id)
  | failSynthesis (jobId ttsJobId : Id) (code : TtsErrorCode)
  /-- The last session of `handle_generate_tts_chunk`. -/
  | persistAudio (jobId : Id) (new : NewAudioChunk)

/-! ## Sessions -/

/-- Put a message on the broker, under the id of its job. -/
def addMessage (envelope : Envelope) : Session Unit :=
  modify fun s =>
    if s.queue.any fun m => decide (m.jobId = envelope.jobId) then s
    else { s with queue := s.queue ++ [envelope] }

def createChildJob (child : ProcessingJob) : Session Unit :=
  Db.processingJob.insert child

/-- The first session of `handle_generate_director_ir`. -/
def beginChapter (jobId : Id) (script : Option NewAudioScript) : Session Unit := do
  markJobRunning jobId
  match script with
  | none => pure ()
  | some new =>
      let supersedesId := findCurrentAudioScript new.bookId (← get)
      createDraftAudioScript new.audioScriptId new.bookId new.bookVersionId new.directorVersion
        new.jobId supersedesId

/-- The second session of `handle_generate_director_ir`. -/
def persistChapter (jobId : Id) (chunks : List BuiltChunk) (ending : ChapterEnd) :
    Session Unit := do
  insertChunks chunks
  match ending with
  | .chain child =>
      createChildJob child
      markJobSucceeded jobId
  | .finalize bookId rootJobId audioScriptId allChapterIds =>
      finalizeRun bookId jobId rootJobId audioScriptId allChapterIds

/-- The job writes of the second session of `handle_analyze_scene`. -/
def persistAnalysis (jobId : Id) (child : ProcessingJob) : Session Unit := do
  createChildJob child
  markJobSucceeded jobId

/-- The job writes of the session of `handle_build_story_bible_delta`. -/
def integrateDelta (jobId : Id) (ending : DeltaEnd) : Session Unit := do
  markJobRunning jobId
  match ending with
  | .chain child =>
      createChildJob child
      markJobSucceeded jobId
  | .finalize rootJobId =>
      markJobSucceeded jobId
      finalizeRootJob rootJobId

def reviseChunks : List Revision → Session Unit
  | [] => pure ()
  | revision :: revisions => do
      reviseChunk revision.row revision.newChunkId revision.built
      reviseChunks revisions

/-- The failure branch in the write session of `handle_revise_director_ir`: the job is marked as
failed in the session that the exception then rolls back. -/
def abandonRevision (jobId : Id) (err : WorkerError) : Session Unit := do
  markJobFailed jobId (err.codeOr .directorModelFailed)
  throw err

def WorkerAccess.session : WorkerAccess → Session Unit
  | query => pure ()
  | readCancellationFlag _ => pure ()
  | newIds n => modify fun s => { s with nextId := s.nextId + n }
  | callModel => pure ()
  | synthesize => pure ()
  | upload => pure ()
  | enqueue envelope => addMessage envelope
  | haltCancelled jobId =>
      setJob jobId fun job => { job with status := .cancelled, cancellationRequested := true }
  | begin jobId => markJobRunning jobId
  | succeed jobId => markJobSucceeded jobId
  | skip jobId => do
      markJobRunning jobId
      markJobSucceeded jobId
  | fail jobId errorCode => markJobFailed jobId errorCode
  | .beginChapter jobId script => AudioBook.beginChapter jobId script
  | .persistChapter jobId chunks ending => AudioBook.persistChapter jobId chunks ending
  | .persistAnalysis jobId child => AudioBook.persistAnalysis jobId child
  | .integrateDelta jobId ending => AudioBook.integrateDelta jobId ending
  | persistRevision jobId revisions => do
      reviseChunks revisions
      markJobSucceeded jobId
  | .abandonRevision jobId err => AudioBook.abandonRevision jobId err
  | beginSynthesis jobId ttsJobId audioScriptChunkId => do
      markJobRunning jobId
      beginTtsJob ttsJobId audioScriptChunkId
  | failSynthesis jobId ttsJobId code => do
      markTtsJobFailed ttsJobId
      markJobFailed jobId (.tts code)
  | persistAudio jobId new => do
      let _ ← insertAudioChunk new
      markJobSucceeded jobId

/-! ## Programs -/

abbrev Worker := Prog Store WorkerAccess WorkerError

namespace Worker

def query {α : Type} (f : Store → α) : Worker α := Prog.read .query f

def run (a : WorkerAccess) : Worker Unit := Prog.atomically a a.session

/-- `new_id`, `n` times. -/
def newIds (n : ℕ) : Worker (List Id) :=
  .access (.newIds n) (Prog.commit (WorkerAccess.newIds n).session)
    (fun s => .ret (List.range' s.nextId n)) .raise

def newId : Worker Id :=
  .access (.newIds 1) (Prog.commit (WorkerAccess.newIds 1).session) (fun s => .ret s.nextId) .raise

/-- Call the model, once for each of `n` units. -/
def callModel : ℕ → Worker Unit
  | 0 => pure ()
  | n + 1 => do
      Prog.read .callModel fun _ => ()
      callModel n

end Worker

/-! ## Jobs of the Queue -/

/-- What the resolver, the model and the casting make of a span of a paragraph. -/
structure Interpretation where
  sceneId : Option Id
  speakerType : SpeakerType
  characterId : Option Id
  voiceProfileVersionId : Option Id
  fallbackApplied : Bool
  lowConfidence : Bool
  nonVerbal : Bool

structure SynthesisOutcome where
  validationStatus : ValidationStatus
  contentHash : Hash
  durationMs : ℕ

/-- `JobContext`: one delivery of a message, with what the handlers find outside the store. -/
structure JobContext where
  envelope : Envelope
  attempt : ℕ
  maxAttempts : ℕ
  /-- The registered version of the model that the worker has loaded. -/
  modelVersionId : Option Id
  contextBundleHash : Hash := 0
  interpret : Id → ChunkSpan → Interpretation
  synthesis : SynthesisOutcome

def JobContext.isFinalAttempt (ctx : JobContext) : Prop := ctx.maxAttempts ≤ ctx.attempt

instance JobContext.decidableIsFinalAttempt (ctx : JobContext) : Decidable ctx.isFinalAttempt :=
  inferInstanceAs (Decidable (_ ≤ _))

end AudioBook
