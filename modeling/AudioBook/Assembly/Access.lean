import AudioBook.Concurrent.Program
import AudioBook.Director.Writes
import AudioBook.Jobs.Writes
import AudioBook.Tts.Writes

/-!
# The Accesses of Assembly

Every access that cancellation, the three assembly processors and the assembly API make to the
shared store, with the transaction it runs. A program is built from these accesses, so what a
step of the system can do is read off here.

A label that writes the status of a job also records the status that the program had last seen
for it.
-/

namespace AudioBook

open Relational Concurrent

inductive Access
  | query
  /-- The query of `resolveRequestedDeliveryFormats`. -/
  | requestedFormats (audiobookId : Id)
  /-- Work outside the store: mastering, encoding, object storage. -/
  | external
  | freshId
  /-- Put a message on the broker, unless a message with its id is there. -/
  | enqueue (envelope : Envelope)
  | markQueued (jobId : Id)
  | removeQueuedJob (jobId : Id)
  | readCancellationFlag (jobId : Id)
  | setCancellationFlag (jobId : Id)
  | createJobs (jobs : List ProcessingJob)
  /-- The transaction of `startTts`: the job of the request, and a job and a synthesis for each of
  its chunks. -/
  | createTtsJobs (coordinator : ProcessingJob) (jobs : List (ProcessingJob × TtsJob))
  /-- The transaction of `cancelJob`, over jobs with the status it read. -/
  | cancelJobs (jobs : List (Id × JobStatus))
  | halt (jobId : Id) (seen : JobStatus)
  | markRunning (jobId : Id) (seen : JobStatus)
  | markSucceeded (jobId : Id) (seen : JobStatus)
  | markFailed (jobId : Id) (seen : JobStatus) (errorCode : ErrorCode)
  /-- The persist transaction of `processAssembleChapterJob`. -/
  | persistChapterAudio (jobId : Id) (chapterAudio : ChapterAudio)
  /-- The persist transaction of `processAssembleAudiobookJob`. -/
  | persistAudiobook (jobId : Id) (audiobook : Audiobook)
  /-- `upsertRendition` on a rendition that it found. -/
  | updateRendition (renditionId : Id) (rendition : AudiobookRendition)
  /-- `upsertRendition` on a rendition that it did not find. -/
  | createRendition (rendition : AudiobookRendition)
  /-- The transaction of `handleEncodeFailure`, on the rendition it found or under a new id; it
  fails the audiobook when that was not `READY`. -/
  | failEncode (jobId : Id) (seen : JobStatus) (errorCode : ErrorCode) (audiobookId : Id)
      (format : DeliveryFormat) (existing : Option Id) (newId : Id) (failAudiobook : Bool)
  /-- The transaction of `maybePublishAudiobook`. -/
  | publish (audiobookId bookId : Id)
  | insertChunks (chunks : List BuiltChunk)
  | insertAudioChunk (new : NewAudioChunk)

/-! ## Transactions -/

/-- Put a message on the broker; the job id is the id of the message, so a message that is
already there is not added again. -/
def enqueueMessage (envelope : Envelope) : Tx Unit :=
  modify fun s =>
    if s.queue.any fun m => decide (m.jobId = envelope.jobId) then s
    else { s with queue := s.queue ++ [envelope] }

def createJobs : List ProcessingJob → Tx Unit
  | [] => pure ()
  | job :: jobs => do
      Db.processingJob.insert job
      createJobs jobs

/-- Create the job and the synthesis of each chunk, one chunk after the other. -/
def createSyntheses : List (ProcessingJob × TtsJob) → Tx Unit
  | [] => pure ()
  | (job, ttsJob) :: jobs => do
      Db.processingJob.insert job
      Db.ttsJob.insert ttsJob
      createSyntheses jobs

/-- Apply `cancellationPatch` to jobs one after the other. -/
def cancelJobs : List (Id × JobStatus) → Tx Unit
  | [] => pure ()
  | (jobId, seen) :: jobs => do
      updateJob jobId (cancellationPatch seen.IsImmediatelyCancellable)
      cancelJobs jobs

def persistChapterAudio (jobId : Id) (chapterAudio : ChapterAudio) : Tx Unit := do
  Db.chapterAudio.update
    (fun a => decide (a.chapterId = chapterAudio.chapterId ∧ a.isCurrent)) fun a =>
      { a with isCurrent := false }
  Db.chapterAudio.insert chapterAudio
  markSucceeded jobId

/-- Make an audiobook the current one of its book. -/
def persistAudiobook (jobId : Id) (audiobook : Audiobook) : Tx Unit := do
  Db.audiobook.update (fun a => decide (a.bookId = audiobook.bookId ∧ a.isCurrent)) fun a =>
    { a with isCurrent := false }
  Db.audiobook.insert audiobook
  markSucceeded jobId

def updateRendition (renditionId : Id) (rendition : AudiobookRendition) : Tx Unit :=
  Db.audiobookRendition.update (fun r => decide (r.id = renditionId)) fun r =>
    { rendition with id := r.id }

def setAudiobookStatus (audiobookId : Id) (status : AudiobookStatus) : Tx Unit :=
  Db.audiobook.update (fun a => decide (a.id = audiobookId)) fun a => { a with status := status }

/-- Leave a `FAILED` rendition of a format: the one that was found, or a new one. -/
def failRendition (audiobookId : Id) (format : DeliveryFormat) (existing : Option Id)
    (newId : Id) : Tx Unit :=
  match existing with
  | some renditionId =>
      Db.audiobookRendition.update (fun r => decide (r.id = renditionId)) fun r =>
        { r with status := .failed }
  | none =>
      Db.audiobookRendition.insert {
        id := newId
        audiobookId := audiobookId
        format := format
        chapterId := none
        status := .failed
        matchesCurrentPolicy := false }

def failEncode (jobId : Id) (errorCode : ErrorCode) (audiobookId : Id) (format : DeliveryFormat)
    (existing : Option Id) (newId : Id) (failAudiobook : Bool) : Tx Unit := do
  markFailed jobId errorCode
  failRendition audiobookId format existing newId
  if failAudiobook then setAudiobookStatus audiobookId .failed

/-- Make an audiobook `READY` and point its book at it. -/
def publishAudiobook (audiobookId bookId : Id) : Tx Unit := do
  setAudiobookStatus audiobookId .ready
  Db.book.update (fun book => decide (book.id = bookId)) fun book =>
    { book with currentAudiobookId := some audiobookId }

def Access.tx : Access → Tx Unit
  | query => pure ()
  | requestedFormats _ => pure ()
  | readCancellationFlag _ => pure ()
  | external => pure ()
  | freshId => do
      let _ ← generateId
  | enqueue envelope => enqueueMessage envelope
  | markQueued jobId => updateJob jobId fun job => { job with queued := true }
  | removeQueuedJob jobId =>
      modify fun s => { s with queue := s.queue.filter fun m => decide (m.jobId ≠ jobId) }
  | setCancellationFlag jobId =>
      modify fun s => { s with cancellationFlags := jobId :: s.cancellationFlags }
  | createJobs jobs => AudioBook.createJobs jobs
  | createTtsJobs coordinator jobs => do
      Db.processingJob.insert coordinator
      createSyntheses jobs
  | cancelJobs jobs => AudioBook.cancelJobs jobs
  | halt jobId _ => updateJob jobId fun job =>
      { job with status := .cancelled, cancellationRequested := true }
  | markRunning jobId _ => AudioBook.markRunning jobId
  | markSucceeded jobId _ => AudioBook.markSucceeded jobId
  | markFailed jobId _ errorCode => AudioBook.markFailed jobId errorCode
  | persistChapterAudio jobId chapterAudio => AudioBook.persistChapterAudio jobId chapterAudio
  | persistAudiobook jobId audiobook => AudioBook.persistAudiobook jobId audiobook
  | updateRendition renditionId rendition => AudioBook.updateRendition renditionId rendition
  | createRendition rendition => Db.audiobookRendition.insert rendition
  | failEncode jobId _ errorCode audiobookId format existing newId failAudiobook =>
      AudioBook.failEncode jobId errorCode audiobookId format existing newId failAudiobook
  | publish audiobookId bookId => publishAudiobook audiobookId bookId
  | insertChunks chunks => AudioBook.insertChunks chunks
  | insertAudioChunk new => do
      let _ ← AudioBook.insertAudioChunk new

/-! ## Transactions Within a Relation -/

section within

variable {R : Store → Store → Prop} [IsPreorder Store R]

theorem createJobs_within {jobs : List ProcessingJob}
    (h : ∀ job ∈ jobs, ∀ s, Db.processingJob.Accepts (s.processingJobs ++ [job]) →
      R s { s with processingJobs := s.processingJobs ++ [job] }) :
    (createJobs jobs).Within R := by
  induction jobs with
  | nil => exact Transaction.within_pure ()
  | cons job jobs ih =>
    refine Transaction.within_bind (Table.within_insert _ (h job List.mem_cons_self)) fun _ => ?_
    exact ih fun job' hjob' => h job' (List.mem_cons_of_mem _ hjob')

theorem createSyntheses_within {jobs : List (ProcessingJob × TtsJob)}
    (hjobs : ∀ s rows, R s { s with processingJobs := s.processingJobs ++ rows })
    (htts : ∀ s rows, R s { s with ttsJobs := rows }) : (createSyntheses jobs).Within R := by
  induction jobs with
  | nil => exact Transaction.within_pure ()
  | cons job jobs ih =>
    exact Transaction.within_bind (Table.within_insert _ fun s _ => hjobs s _) fun _ =>
      Transaction.within_bind (Table.within_insert _ fun s _ => htts s _) fun _ => ih

theorem cancelJobs_within {jobs : List (Id × JobStatus)}
    (h : ∀ p ∈ jobs, (updateJob p.1 (cancellationPatch p.2.IsImmediatelyCancellable)).Within R) :
    (cancelJobs jobs).Within R := by
  induction jobs with
  | nil => exact Transaction.within_pure ()
  | cons p jobs ih =>
    refine Transaction.within_bind (h p List.mem_cons_self) fun _ => ?_
    exact ih fun q hq => h q (List.mem_cons_of_mem _ hq)

theorem enqueueMessage_within (h : ∀ s queue, R s { s with queue := queue })
    (envelope : Envelope) : (enqueueMessage envelope).Within R := by
  refine Transaction.within_modify fun s => ?_
  split
  · exact refl_of R s
  · exact h s _

theorem insertChunks_within (h : ∀ s rows, R s { s with audioScriptChunks := rows })
    (chunks : List BuiltChunk) : (insertChunks chunks).Within R := by
  induction chunks with
  | nil => exact Transaction.within_pure ()
  | cons chunk chunks ih =>
    exact Transaction.within_bind (Table.within_insert _ fun s _ => h s _) fun _ => ih

theorem insertAudioChunk_within (haudio : ∀ s rows, R s { s with audioChunks := rows })
    (hchunks : ∀ s rows, R s { s with audioScriptChunks := rows })
    (hjobs : ∀ s rows, R s { s with ttsJobs := rows }) (new : NewAudioChunk) :
    (insertAudioChunk new).Within R := by
  refine Transaction.within_bind Transaction.within_get fun s₀ => ?_
  have htail : ∀ audio supersedesId, (do
      Db.audioChunk.insert audio
      Db.audioScriptChunk.update (fun chunk => decide (chunk.id = new.audioScriptChunkId))
        fun chunk => { chunk with currentAudioChunkId := some new.audioChunkId }
      Db.ttsJob.update (fun job => decide (job.id = new.ttsJobId)) fun job =>
        { job with
          status := .succeeded
          audioChunkId := some new.audioChunkId
          durationMs := some new.durationMs }
      return supersedesId : Tx (Option Id)).Within R := fun audio supersedesId =>
    Transaction.within_bind (Table.within_insert _ fun s _ => haudio s _) fun _ =>
      Transaction.within_bind (Table.within_update _ fun s _ => hchunks s _) fun _ =>
        Transaction.within_bind (Table.within_update _ fun s _ => hjobs s _) fun _ =>
          Transaction.within_pure _
  simp only
  split
  · exact Transaction.within_bind (Table.within_update _ fun s _ => haudio s _) fun _ => htail _ _
  · exact htail _ _

end within

/-! ## Programs -/

abbrev Service := Prog Store Access Fault

def query {α : Type} (f : Store → α) : Service α := Prog.read .query f

def perform (a : Access) : Service Unit := Prog.atomically a a.tx

/-- Work outside the store; it may fail like any access. -/
def external : Service Unit := Prog.read .external fun _ => ()

/-- `generateId`. -/
def freshId : Service Id :=
  .access .freshId (Prog.commit Access.freshId.tx) (fun s => .ret s.nextId) .raise

def enqueueProcessingJob (envelope : Envelope) : Service Unit := do
  perform (.enqueue envelope)
  perform (.markQueued envelope.jobId)

end AudioBook
