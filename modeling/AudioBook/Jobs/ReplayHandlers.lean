import AudioBook.Concurrent.Interleaving
import AudioBook.Relational.Table
import AudioBook.Schema.Rows

/-!
# The Rows That Each Processor Works On

Every job that a service dispatches carries the envelope of its message, and `replayJob` dispatches
that envelope again under the id of a new job. Here each processor is cut down to what it does to
rows of `processing_job`, `tts_job` and `voice_preview`: which of them it looks up, by which field
of the envelope, and what it writes to them on each of its paths. What a processor reads and does
beside that is outside work, which may fail like any access, and a choice of the delivery where the
path depends on it.
-/

namespace AudioBook.Replay

open Concurrent Relational

/-! ## Messages and Rows -/

/-- What a message asks for, with the ids that name rows of jobs, syntheses and previews. -/
inductive Payload
  | parseBook
  | assembleChapter
  | assembleAudiobook
  | encodeDeliveryFormat
  | purgeBook (bookId : Id)
  | analyzeScene (rootJobId : Option Id)
  | generateDirectorIr (rootJobId : Option Id) (remainingChapterIds : List Id)
  | reviseDirectorIr
  | generateTtsChunk (ttsJobId : Id)
  | generateVoicePreview (previewId : Id)
  deriving DecidableEq

/-- `QueueJobEnvelope`. -/
structure Message where
  jobId : Id
  entityId : Option Id
  payload : Payload
  deriving DecidableEq

/-- A row of `processing_job`. -/
structure JobRow where
  id : Id
  bookId : Id
  queue : String
  status : JobStatus := .created
  /-- How often the status was written: what `status_changed_at` tells apart. -/
  statusWrites : ℕ := 0
  cancellationRequested : Bool := false
  dispatchEnvelope : Option Message := none
  causationId : Option Id := none
  deriving DecidableEq

/-- `tts_job_status`. -/
inductive SynthesisStatus
  | pending
  | running
  | succeeded
  | failed
  | cancelled
  deriving DecidableEq

/-- A row of `tts_job`. -/
structure SynthesisRow where
  id : Id
  status : SynthesisStatus := .pending

/-- `voice_preview_status`. -/
inductive PreviewStatus
  | generating
  | ready
  | failed
  | expired
  deriving DecidableEq

/-- A row of `voice_preview`. -/
structure PreviewRow where
  id : Id
  status : PreviewStatus := .generating

structure ReplayStore where
  jobs : List JobRow := []
  syntheses : List SynthesisRow := []
  previews : List PreviewRow := []
  cancellationFlags : List Id := []
  /-- The messages that were put on the broker. -/
  broker : List Message := []
  nextId : Id := 0

/-- `status IN ('SUCCEEDED', 'FAILED')`. -/
def hasEnded (status : JobStatus) : Prop := status = .succeeded ∨ status = .failed

instance (status : JobStatus) : Decidable (hasEnded status) :=
  inferInstanceAs (Decidable (_ ∨ _))

def findJob (jobId : Id) (s : ReplayStore) : Option JobRow :=
  s.jobs.find? fun job => decide (job.id = jobId)

/-! ## Writes -/

inductive RowWrite
  | job (jobId : Id) (status : JobStatus)
  /-- `_finalize_root_job`: `SUCCEEDED`, unless the job has ended. -/
  | root (jobId : Id)
  | child (bookId : Id)
  /-- `begin_tts_job`: `RUNNING`, if it is `PENDING`. -/
  | beginSynthesis (ttsJobId : Id)
  | synthesis (ttsJobId : Id) (status : SynthesisStatus)
  | preview (previewId : Id) (status : PreviewStatus)
  /-- `purgeJobsAndAttempts`: all jobs of the book but one. -/
  | deleteOthers (bookId purgeJobId : Id)
  deriving DecidableEq

/-- The row with a new status. The statements that write `CANCELLED` set the column of the request
as well. -/
def JobRow.withStatus (job : JobRow) (status : JobStatus) : JobRow :=
  { job with
    status := status
    statusWrites := job.statusWrites + 1
    cancellationRequested := job.cancellationRequested || decide (status = .cancelled) }

def updateJobs (p : JobRow → Bool) (f : JobRow → JobRow) (s : ReplayStore) : ReplayStore :=
  { s with jobs := updateWhere p f s.jobs }

def RowWrite.apply : RowWrite → ReplayStore → ReplayStore
  | job jobId status, s => updateJobs (fun job => decide (job.id = jobId)) (·.withStatus status) s
  | root jobId, s =>
      updateJobs (fun job => decide (job.id = jobId ∧ ¬ hasEnded job.status))
        (·.withStatus .succeeded) s
  | child bookId, s =>
      { s with
        jobs := s.jobs ++ [{ id := s.nextId, bookId := bookId, queue := "ai" }]
        nextId := s.nextId + 1 }
  | beginSynthesis ttsJobId, s =>
      { s with
        syntheses := updateWhere (fun row => decide (row.id = ttsJobId ∧ row.status = .pending))
          (fun row => { row with status := .running }) s.syntheses }
  | synthesis ttsJobId status, s =>
      { s with
        syntheses := updateWhere (fun row => decide (row.id = ttsJobId))
          (fun row => { row with status := status }) s.syntheses }
  | preview previewId status, s =>
      { s with
        previews := updateWhere (fun row => decide (row.id = previewId))
          (fun row => { row with status := status }) s.previews }
  | deleteOthers bookId purgeJobId, s =>
      { s with jobs := s.jobs.filter fun job => decide (job.bookId = bookId → job.id = purgeJobId) }

def applyWrites (writes : List RowWrite) (s : ReplayStore) : ReplayStore :=
  writes.foldl (fun s write => write.apply s) s

/-! ## Programs -/

inductive RowError
  | ingestion
  /-- `TerminalJobError` or `TransientJobError`. -/
  | job
  | conflict
  | other
  deriving DecidableEq

/-- What a service dispatches, before it has ids. -/
inductive Submission
  | parseBook
  | assembleChapter
  | assembleAudiobook
  | encodeDeliveryFormat
  | purgeBook
  | analyzeScene
  | generateDirectorIr (remainingChapterIds : List Id)
  | reviseDirectorIr
  | generateTtsChunk
  | generateVoicePreview
  deriving DecidableEq

/-- An access. Those of one program that can fail apart from each other are numbered. -/
inductive RowAccess
  | query (n : ℕ)
  | readCancellationFlag
  | external (n : ℕ)
  | write (writes : List RowWrite)
  | submit (bookId : Id) (submission : Submission)
  | createReplay (original : JobRow) (m : Message)
  | enqueue (m : Message)
  | cancel (jobId : Id)
  | setCancellationFlag (jobId : Id)
  deriving DecidableEq

abbrev RowProg := Prog ReplayStore RowAccess RowError

def query {α : Type} (n : ℕ) (f : ReplayStore → α) : RowProg α := Prog.read (.query n) f

def work (n : ℕ) : RowProg Unit := Prog.read (.external n) fun _ => ()

/-- Run the statements of a transaction. -/
def write (writes : List RowWrite) : RowProg Unit :=
  .access (.write writes) (applyWrites writes) (fun _ => .ret ()) .raise

/-! ## The API -/

def Submission.queue : Submission → String
  | parseBook => "parse"
  | assembleChapter | assembleAudiobook | encodeDeliveryFormat => "audio"
  | purgeBook => "maintenance"
  | analyzeScene | generateDirectorIr _ | reviseDirectorIr => "ai"
  | generateTtsChunk | generateVoicePreview => "gpu"

/-- The envelope that the service records on the job; a synthesis or a preview has the id
`resourceId`. -/
def Submission.message (bookId jobId resourceId : Id) : Submission → Message
  | parseBook => ⟨jobId, some jobId, .parseBook⟩
  | assembleChapter => ⟨jobId, some jobId, .assembleChapter⟩
  | assembleAudiobook => ⟨jobId, some jobId, .assembleAudiobook⟩
  | encodeDeliveryFormat => ⟨jobId, some jobId, .encodeDeliveryFormat⟩
  | purgeBook => ⟨jobId, some jobId, .purgeBook bookId⟩
  | analyzeScene => ⟨jobId, some jobId, .analyzeScene (some jobId)⟩
  | generateDirectorIr remaining =>
      ⟨jobId, some jobId, .generateDirectorIr (some jobId) remaining⟩
  | reviseDirectorIr => ⟨jobId, some jobId, .reviseDirectorIr⟩
  | generateTtsChunk => ⟨jobId, some resourceId, .generateTtsChunk resourceId⟩
  | generateVoicePreview => ⟨jobId, some resourceId, .generateVoicePreview resourceId⟩

def submitted (bookId : Id) (submission : Submission) (s : ReplayStore) : ReplayStore :=
  let jobId := s.nextId
  let resourceId := s.nextId + 1
  { s with
    jobs := s.jobs ++ [{
      id := jobId
      bookId := bookId
      queue := submission.queue
      dispatchEnvelope := some (submission.message bookId jobId resourceId) }]
    syntheses := if submission = .generateTtsChunk then s.syntheses ++ [{ id := resourceId }]
      else s.syntheses
    previews := if submission = .generateVoicePreview then s.previews ++ [{ id := resourceId }]
      else s.previews
    nextId := s.nextId + 2 }

/-- `enqueueProcessingJob`. -/
def enqueue (m : Message) : RowProg Unit :=
  .access (.enqueue m) (fun s => { s with broker := s.broker ++ [m] }) (fun _ => .ret ()) .raise

/-- A service creates a job and dispatches it. -/
def submit (bookId : Id) (submission : Submission) : RowProg Unit := do
  let jobId ← .access (.submit bookId submission) (submitted bookId submission)
    (fun s => .ret s.nextId) .raise
  enqueue (submission.message bookId jobId (jobId + 1))

def isQueueName (queue : String) : Bool :=
  decide (queue ∈ ["parse", "ai", "gpu", "audio", "maintenance"])

/-- The row of a replay: the envelope of the original with one field replaced. -/
def replayed (original : JobRow) (m : Message) (s : ReplayStore) : ReplayStore :=
  { s with
    jobs := s.jobs ++ [{
      id := s.nextId
      bookId := original.bookId
      queue := original.queue
      dispatchEnvelope := some { m with jobId := s.nextId }
      causationId := some original.id }]
    nextId := s.nextId + 1 }

def replayJob (jobId : Id) : RowProg Unit := do
  match ← query 0 (findJob jobId) with
  | none => throw .other
  | some original =>
      if original.status ≠ .deadLettered ∧ original.status ≠ .failed then throw .conflict
      else
        match original.dispatchEnvelope with
        | none => throw .conflict
        | some m =>
            if !isQueueName original.queue then throw .conflict
            else
              let newJobId ← .access (.createReplay original m) (replayed original m)
                (fun s => .ret s.nextId) .raise
              enqueue { m with jobId := newJobId }

/-- `TERMINAL_JOB_STATUSES`. -/
def isTerminal (status : JobStatus) : Prop :=
  status ∈ [.succeeded, .failed, .cancelled, .deadLettered]

instance (status : JobStatus) : Decidable (isTerminal status) :=
  inferInstanceAs (Decidable (_ ∈ _))

/-- The row that `cancelJob` leaves: a job that nothing works on is `CANCELLED` at once. -/
def JobRow.cancelled (job : JobRow) : JobRow :=
  if isTerminal job.status then job
  else if job.status ∈ [.created, .queued, .blocked, .retrying] then
    job.withStatus .cancelled
  else { job with cancellationRequested := true }

/-- `cancelJob`. The flag in the cache is set after the commit, if the cache can be reached. -/
def cancelJob (jobId : Id) : RowProg Unit := do
  .access (.cancel jobId) (updateJobs (fun job => decide (job.id = jobId)) JobRow.cancelled)
    (fun _ => .ret ()) .raise
  .access (.setCancellationFlag jobId)
    (fun s => { s with cancellationFlags := jobId :: s.cancellationFlags })
    (fun _ => .ret ()) fun _ => .ret ()

/-! ## The Workers -/

/-- How the rows that a processor of `worker-cpu` reads send it on. -/
inductive ChosenPath
  /-- Something is missing or inconsistent: fail the job. -/
  | rejected
  | unchanged
  | work
  deriving DecidableEq

/-- One delivery of a message, with what decides the path of its processor. -/
structure Delivery where
  message : Message
  attemptsMade : ℕ
  maxAttempts : ℕ := 3
  path : ChosenPath := .work
  /-- The audio of a chunk is there already, or there is no chunk to revise. -/
  nothingToDo : Bool := false

/-- The delivery is the last one for a failing message. -/
def Delivery.isFinalAttempt (d : Delivery) : Bool := decide (d.maxAttempts ≤ d.attemptsMade + 1)

/-- `haltIfCancelled` of `worker-cpu`: the flag in the cache, or the column when the cache cannot be
reached. -/
def haltIfCancelled (jobId : Id) : RowProg Bool := do
  match ← query 0 (findJob jobId) with
  | none => return false
  | some job =>
      if job.status = .cancelled then return true
      else
        let requested ← tryCatch
          (Prog.read .readCancellationFlag fun s => decide (jobId ∈ s.cancellationFlags))
          fun _ => pure job.cancellationRequested
        if requested then
          write [.job jobId .cancelled]
          return true
        else return false

/-- `is_cancelled` of the Python workers: the flag, or the column when the cache cannot be
reached. -/
def isCancelled (jobId : Id) : RowProg Bool :=
  tryCatch (Prog.read .readCancellationFlag fun s => decide (jobId ∈ s.cancellationFlags))
    fun _ => query 1 fun s => ((findJob jobId s).map JobRow.cancellationRequested).getD false

/-- `halt_if_cancelled` of the Python workers. -/
def workerHaltIfCancelled (jobId : Id) : RowProg Bool := do
  match ← query 0 (findJob jobId) with
  | none => return false
  | some job =>
      if job.status = .cancelled then return true
      else
        let requested ← if job.cancellationRequested then pure true else isCancelled jobId
        if requested then
          write [.job jobId .cancelled]
          return true
        else return false

/-- What a failure handler of `worker-cpu` does: re-read the job, leave it alone in a status of
`settled`, and mark it as failed otherwise. -/
def recordFailure (jobId : Id) (settled : List JobStatus) : RowProg Unit := do
  match ← query 3 (findJob jobId) with
  | none => return
  | some current => if current.status ∈ settled then return else write [.job jobId .failed]

/-- What tells the processors of `worker-cpu` apart. -/
structure Processor where
  /-- The paths on which it ends before its work. -/
  shortcuts : List ChosenPath
  /-- The failures that are recorded on the job. -/
  records : Delivery → RowError → Bool
  /-- The statuses over which a failure is not recorded. -/
  settled : List JobStatus

/-- The work of a processor and its failure handler. -/
def Processor.run (p : Processor) (d : Delivery) (jobId : Id) : RowProg Unit :=
  tryCatch (do
    work 2
    write [.job jobId .succeeded]
    work 3) fun e => do
      if p.records d e then recordFailure jobId p.settled
      throw e

/-- A processor of the `parse` or the `audio` queue: it works on the row that `entity_id` names. -/
def Processor.process (p : Processor) (d : Delivery) : RowProg Unit := do
  match d.message.entityId with
  | none => throw .other
  | some processingJobId =>
  match ← query 2 (findJob processingJobId) with
  | none => throw .other
  | some job =>
  if hasEnded job.status then return
  else
    -- the rows that the payload names
    work 0
    match if d.path ∈ p.shortcuts then d.path else .work with
    | .rejected => recordFailure job.id [.failed, .succeeded]
    | .unchanged => do
        write [.job job.id .succeeded]
        -- the jobs that follow are triggered
        work 1
    | .work => do
        write [.job job.id .running]
        p.run d job.id

def processIngestionJob : Processor where
  shortcuts := []
  records d e := decide (e = .ingestion) || d.isFinalAttempt
  settled := [.failed]

def processAssembleChapterJob : Processor where
  shortcuts := [.rejected, .unchanged]
  records d _ := d.isFinalAttempt
  settled := [.failed]

/-- `processAssembleAudiobookJob`: every attempt is recorded as the final one. -/
def processAssembleAudiobookJob : Processor where
  shortcuts := [.rejected, .unchanged]
  records _ _ := true
  settled := [.failed, .succeeded]

def processEncodeDeliveryFormatJob : Processor where
  shortcuts := [.unchanged]
  records d _ := d.isFinalAttempt
  settled := [.failed]

/-- A purge, which deletes the other jobs of the book on its way, and its failure handler. -/
def purgeBook (bookId jobId : Id) : RowProg Unit :=
  tryCatch (do
    work 2
    write [.deleteOthers bookId jobId]
    work 3
    write [.job jobId .succeeded]) fun e => do
      write [.job jobId .failed]
      throw e

/-- `processMaintenanceJob` with a purge: it works on the row that `entity_id` names, and goes on
with a `FAILED` one. -/
def processMaintenanceJob (bookId : Id) (d : Delivery) : RowProg Unit := do
  match d.message.entityId with
  | none => throw .other
  | some processingJobId =>
  match ← query 2 (findJob processingJobId) with
  | none => return
  | some job =>
  if job.status = .succeeded then return
  else
    write [.job job.id .running]
    purgeBook bookId job.id

/-- How every handler of the Python workers starts: with the row that `job_id` names, unless it has
ended. -/
def withOpenJob (jobId : Id) (handler : JobRow → RowProg Unit) : RowProg Unit := do
  match ← query 2 (findJob jobId) with
  | none => throw .job
  | some job => if hasEnded job.status then return else handler job

/-- The call of the analyzer or of the Director's model: on the final attempt its own errors are
recorded. -/
def callModel (d : Delivery) : RowProg Unit :=
  tryCatch (work 2) fun e => do
    if decide (e = .job) && d.isFinalAttempt then write [.job d.message.jobId .failed]
    throw e

def handleAnalyzeScene (d : Delivery) : RowProg Unit :=
  withOpenJob d.message.jobId fun job => do
    work 0
    write [.job d.message.jobId .running]
    callModel d
    write [.child job.bookId, .job d.message.jobId .succeeded]
    -- the message of the child
    work 3

def handleGenerateDirectorIr (rootJobId : Option Id) (remainingChapterIds : List Id)
    (d : Delivery) : RowProg Unit :=
  withOpenJob d.message.jobId fun job => do
    work 0
    write [.job d.message.jobId .running]
    callModel d
    if remainingChapterIds = [] then
      -- the validation of the whole script
      work 3
      write [.job d.message.jobId .succeeded, .root (rootJobId.getD d.message.jobId)]
    else
      write [.child job.bookId, .job d.message.jobId .succeeded]
      work 4

/-- `handle_revise_director_ir`. An error of the model rolls back the session in which it is
recorded. -/
def handleReviseDirectorIr (d : Delivery) : RowProg Unit :=
  withOpenJob d.message.jobId fun _ => do
    if d.nothingToDo then
      write [.job d.message.jobId .running, .job d.message.jobId .succeeded]
    else
      work 0
      write [.job d.message.jobId .running]
      work 2
      write [.job d.message.jobId .succeeded]

def handleGenerateTtsChunk (ttsJobId : Id) (d : Delivery) : RowProg Unit :=
  withOpenJob d.message.jobId fun _ => do
    match ← query 4 fun s => s.syntheses.find? fun row => decide (row.id = ttsJobId) with
    | none => throw .job
    | some ttsJob =>
        if ttsJob.status = .succeeded ∨ ttsJob.status = .cancelled then
          write [.job d.message.jobId .succeeded]
        else if d.nothingToDo then
          write [.job d.message.jobId .running, .job d.message.jobId .succeeded]
        else
          work 0
          write [.job d.message.jobId .running, .beginSynthesis ttsJobId]
          tryCatch (do
            work 2
            work 3) fun _ => do
              if d.isFinalAttempt then
                write [.synthesis ttsJobId .failed, .job d.message.jobId .failed]
              throw .job
          write [.synthesis ttsJobId .succeeded, .job d.message.jobId .succeeded]

def handleGenerateVoicePreview (previewId : Id) (d : Delivery) : RowProg Unit :=
  withOpenJob d.message.jobId fun _ => do
    match ← query 4 fun s => s.previews.find? fun row => decide (row.id = previewId) with
    | none => throw .job
    | some preview =>
        if preview.status ≠ .generating then
          write [.job d.message.jobId .succeeded]
        else
          work 0
          write [.job d.message.jobId .running]
          tryCatch (work 2) fun _ => do
            if d.isFinalAttempt then
              write [.preview previewId .failed, .job d.message.jobId .failed]
            throw .job
          -- the upload
          work 3
          write [.preview previewId .ready, .job d.message.jobId .succeeded]

/-- A processor of `worker-cpu` behind the cancellation gate. -/
def gated (d : Delivery) (processor : Delivery → RowProg Unit) : RowProg Unit := do
  if ← haltIfCancelled d.message.jobId then return
  else processor d

/-- A handler of a Python worker behind the cancellation gate. -/
def workerGated (d : Delivery) (handler : Delivery → RowProg Unit) : RowProg Unit := do
  if ← workerHaltIfCancelled d.message.jobId then return
  else handler d

/-- What the worker of the queue does with a message. -/
def deliver (d : Delivery) : RowProg Unit :=
  match d.message.payload with
  | .parseBook => gated d processIngestionJob.process
  | .assembleChapter => gated d processAssembleChapterJob.process
  | .assembleAudiobook => gated d processAssembleAudiobookJob.process
  | .encodeDeliveryFormat => gated d processEncodeDeliveryFormatJob.process
  | .purgeBook bookId => gated d (processMaintenanceJob bookId)
  | .analyzeScene _ => workerGated d handleAnalyzeScene
  | .generateDirectorIr rootJobId remaining =>
      workerGated d (handleGenerateDirectorIr rootJobId remaining)
  | .reviseDirectorIr => workerGated d handleReviseDirectorIr
  | .generateTtsChunk ttsJobId => workerGated d (handleGenerateTtsChunk ttsJobId)
  | .generateVoicePreview previewId => workerGated d (handleGenerateVoicePreview previewId)

/-! ## The System -/

inductive ReplayRequest
  | submit (bookId : Id) (submission : Submission)
  | replayJob (jobId : Id)
  | cancelJob (jobId : Id)
  | deliver (d : Delivery)

/-- The system. It starts without jobs. -/
def replaySystem : System ReplayStore ReplayRequest RowAccess RowError where
  init s := s.jobs = []
  enabled
    | .deliver d, s => d.message ∈ s.broker
    | _, _ => True
  program
    | .submit bookId submission => Replay.submit bookId submission
    | .replayJob jobId => Replay.replayJob jobId
    | .cancelJob jobId => Replay.cancelJob jobId
    | .deliver d => Replay.deliver d

instance (i : ReplayRequest) (s : ReplayStore) : Decidable (replaySystem.enabled i s) :=
  match i with
  | .deliver d => inferInstanceAs (Decidable (d.message ∈ s.broker))
  | .submit _ _ | .replayJob _ | .cancelJob _ => isTrue trivial

end AudioBook.Replay
