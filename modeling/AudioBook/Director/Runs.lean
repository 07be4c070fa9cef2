import AudioBook.Director.Plan
import AudioBook.Pipeline.System
import AudioBook.Schema.Constraints

/-!
# Runs of the Director

Everything that writes the scripts of a book while it is directed and narrated: the requests that
start a run and a synthesis, cancellation, the sweeper, and the workers that direct a chapter,
revise chunks and synthesize them. A message may be delivered any number of times.

Main results:

- `quiet_session` and `quiet_tx`: most accesses are quiet.
-/

namespace AudioBook

open Relational Concurrent

/-! ## The System -/

inductive DirectorRequest
  | startDirector (bookId : Id) (body : StartDirector)
  | startTts (bookId : Id) (body : StartTts)
  | cancelJob (jobId : Id)
  | pollOnce
  /-- The broker hands a message to a worker, for the first time or again. -/
  | deliver (d : WorkerDelivery)

/-- A message of a run or of a synthesis can be delivered while it is on the broker. Revisions are
requested elsewhere, of any chunks and at any time. -/
def Deliverable (envelope : Envelope) (s : Store) : Prop :=
  match envelope.payload with
  | .generateDirectorIr _ | .generateTtsChunk _ _ => envelope ∈ s.queue
  | .reviseDirectorIr _ _ _ => True
  | _ => False

instance (envelope : Envelope) (s : Store) : Decidable (Deliverable envelope s) := by
  unfold Deliverable
  split <;> infer_instance

/-- What can start to run now. -/
def DirectorRequest.Enabled : DirectorRequest → Store → Prop
  | deliver d, s => Deliverable d.ctx.envelope s
  | _, _ => True

instance (i : DirectorRequest) (s : Store) : Decidable (i.Enabled s) :=
  match i with
  | .deliver d => inferInstanceAs (Decidable (Deliverable d.ctx.envelope s))
  | .startDirector _ _ | .startTts _ _ | .cancelJob _ | .pollOnce => isTrue trivial

/-- Nothing was directed yet, and the text is there. -/
structure NothingDirected (s : Store) : Prop where
  jobs : s.processingJobs = []
  queue : s.queue = []
  scripts : s.audioScripts = []
  chunks : s.audioScriptChunks = []
  text : SpineOrdered s

def directorSystem : System Store DirectorRequest Pipeline.PipelineAccess Pipeline.PipelineError where
  init := NothingDirected
  enabled := DirectorRequest.Enabled
  program
    | .startDirector bookId body => Pipeline.ofService (startDirector bookId body)
    | .startTts bookId body => Pipeline.ofService (startTts bookId body)
    | .cancelJob jobId => Pipeline.ofService (cancelJob jobId)
    | .pollOnce => Pipeline.ofService pollOnce
    | .deliver d => Pipeline.ofWorker (process d)

instance (i : DirectorRequest) (s : Store) : Decidable (directorSystem.enabled i s) :=
  inferInstanceAs (Decidable (i.Enabled s))

/-! ## Runs and Places -/

def Envelope.director? (envelope : Envelope) : Option DirectorPayload :=
  match envelope.payload with
  | .generateDirectorIr payload => some payload
  | _ => none

/-- What the message that is stored with a job tells the Director to do. -/
def ProcessingJob.director? (job : ProcessingJob) : Option DirectorPayload :=
  job.dispatchEnvelope.bind Envelope.director?

/-- The first message of the run that a job started: only that job stores one. -/
def runOf (jobId : Id) (s : Store) : Option DirectorPayload :=
  (findJob jobId s).bind ProcessingJob.director?

def AudioScript.run (script : AudioScript) (s : Store) : Option DirectorPayload :=
  script.jobId.bind fun jobId => runOf jobId s

/-- What a chunk is in its script, apart from what is decided about it. -/
structure ChunkPlace where
  id : Id
  audioScriptId : Id
  isCurrent : Bool
  planned : PlannedChunk
  deriving DecidableEq

def AudioScriptChunk.place (chunk : AudioScriptChunk) : ChunkPlace where
  id := chunk.id
  audioScriptId := chunk.audioScriptId
  isCurrent := chunk.isCurrent
  planned := chunk.planned

def Book.text (book : Book) : Id × Option Id := (book.id, book.currentBookVersionId)

/-! ## Quiet Changes -/

/-- Of runs, scripts and the places of chunks nothing changes. Jobs may make progress, and jobs and
messages of other kinds may be created. -/
structure Quiet (s s' : Store) : Prop where
  chapters : s'.chapters = s.chapters
  paragraphs : s'.paragraphs = s.paragraphs
  books : s'.books.map Book.text = s.books.map Book.text
  runs : ∀ jobId run, runOf jobId s = some run → runOf jobId s' = some run
  jobs : ∀ job' ∈ s'.processingJobs, ∀ run, job'.director? = some run →
    ∃ job ∈ s.processingJobs, job.id = job'.id ∧ job.director? = some run
  queue : ∀ m ∈ s'.queue, m ∈ s.queue ∨ m.director? = none
  scripts : s'.audioScripts = s.audioScripts
  chunks : s'.audioScriptChunks.map AudioScriptChunk.place =
    s.audioScriptChunks.map AudioScriptChunk.place

instance : IsPreorder Store Quiet where
  refl s := ⟨rfl, rfl, rfl, fun _ _ h => h, fun job hjob _ hrun => ⟨job, hjob, rfl, hrun⟩,
    fun _ hm => .inl hm, rfl, rfl⟩
  trans s₁ s₂ s₃ h₁ h₂ := by
    refine ⟨h₂.chapters.trans h₁.chapters, h₂.paragraphs.trans h₁.paragraphs,
      h₂.books.trans h₁.books, fun jobId run hrun => h₂.runs jobId run (h₁.runs jobId run hrun),
      fun job₃ hjob₃ run hrun => ?_, fun m hm => ?_, h₂.scripts.trans h₁.scripts,
      h₂.chunks.trans h₁.chunks⟩
    · obtain ⟨job₂, hjob₂, hid₂, hrun₂⟩ := h₂.jobs job₃ hjob₃ run hrun
      obtain ⟨job₁, hjob₁, hid₁, hrun₁⟩ := h₁.jobs job₂ hjob₂ run hrun₂
      exact ⟨job₁, hjob₁, hid₁.trans hid₂, hrun₁⟩
    · rcases h₂.queue m hm with hm | hother
      · exact h₁.queue m hm
      · exact .inr hother

section quiet

variable {s s' : Store} {ε : Type} [OfViolation ε]

theorem Quiet.of_eq (hchapters : s'.chapters = s.chapters) (hparagraphs : s'.paragraphs = s.paragraphs)
    (hbooks : s'.books = s.books) (hjobs : s'.processingJobs = s.processingJobs)
    (hqueue : s'.queue = s.queue) (hscripts : s'.audioScripts = s.audioScripts)
    (hchunks : s'.audioScriptChunks.map AudioScriptChunk.place =
      s.audioScriptChunks.map AudioScriptChunk.place) : Quiet s s' := by
  refine ⟨hchapters, hparagraphs, by rw [hbooks], fun jobId run hrun => ?_,
    fun job hjob run hrun => ⟨job, hjobs ▸ hjob, rfl, hrun⟩, fun m hm => .inl (hqueue ▸ hm),
    hscripts, hchunks⟩
  rw [runOf, findJob, hjobs]
  exact hrun

variable {f : ProcessingJob → ProcessingJob}

theorem quiet_updateWhere {p : ProcessingJob → Bool}
    (h : ∀ job, (f job).id = job.id ∧ (f job).director? = job.director?) (s : Store) :
    Quiet s { s with processingJobs := updateWhere p f s.processingJobs } := by
  refine ⟨rfl, rfl, rfl, fun jobId run hrun => ?_, fun job' hjob' run hrun => ?_,
    fun m hm => .inl hm, rfl, rfl⟩
  · obtain ⟨job, hjob, hrun⟩ := Option.bind_eq_some_iff.mp hrun
    refine Option.bind_eq_some_iff.mpr ⟨if p job then f job else job, ?_, ?_⟩
    · show (updateWhere p f s.processingJobs).find? _ = _
      rw [find?_updateWhere fun job => (h job).1]
      exact congrArg (Option.map _) hjob
    · split
      · rw [(h job).2]
        exact hrun
      · exact hrun
  · rcases mem_updateWhere.mp hjob' with ⟨job, hjob, -, rfl⟩ | ⟨hjob', -⟩
    · exact ⟨job, hjob, (h job).1.symm, (h job).2 ▸ hrun⟩
    · exact ⟨job', hjob', rfl, hrun⟩

theorem quiet_updateJobs {p : ProcessingJob → Bool}
    (h : ∀ job, (f job).id = job.id ∧ (f job).director? = job.director?) :
    (Db.processingJob.update p f : Transaction Store ε Unit).Within Quiet :=
  Table.within_update _ fun s _ => quiet_updateWhere h s

theorem quiet_updateJob {jobId : Id}
    (h : ∀ job, (f job).id = job.id ∧ (f job).director? = job.director?) :
    (updateJob jobId f).Within Quiet :=
  updateJob_within fun s => quiet_updateWhere h s

theorem quiet_setJob {jobId : Id}
    (h : ∀ job, (f job).id = job.id ∧ (f job).director? = job.director?) :
    (setJob jobId f).Within Quiet :=
  quiet_updateJobs h

theorem runOf_append {jobs : List ProcessingJob} {jobId : Id} {run : DirectorPayload}
    (hrun : runOf jobId s = some run) :
    runOf jobId { s with processingJobs := s.processingJobs ++ jobs } = some run := by
  obtain ⟨job, hjob, hrun⟩ := Option.bind_eq_some_iff.mp hrun
  refine Option.bind_eq_some_iff.mpr ⟨job, ?_, hrun⟩
  show (s.processingJobs ++ jobs).find? _ = _
  rw [List.find?_append]
  exact Option.or_eq_some_iff.mpr (.inl hjob)

theorem quiet_insertJob {job : ProcessingJob} (h : job.director? = none) :
    (Db.processingJob.insert job : Transaction Store ε Unit).Within Quiet := by
  refine Table.within_insert _ fun s _ => ⟨rfl, rfl, rfl, fun jobId run hrun => runOf_append hrun,
    fun job' hjob' run hrun => ?_, fun m hm => .inl hm, rfl, rfl⟩
  rcases List.mem_append.mp hjob' with hjob' | hjob'
  · exact ⟨job', hjob', rfl, hrun⟩
  · rw [List.mem_singleton.mp hjob', h] at hrun
    cases hrun

theorem quiet_send {envelope : Envelope} (h : envelope.director? = none) (s : Store) :
    Quiet s
      (if s.queue.any fun m => decide (m.jobId = envelope.jobId) then s
        else { s with queue := s.queue ++ [envelope] }) := by
  split
  · exact refl_of Quiet s
  · refine ⟨rfl, rfl, rfl, fun _ _ hrun => hrun, fun job hjob _ hrun => ⟨job, hjob, rfl, hrun⟩,
      fun m hm => ?_, rfl, rfl⟩
    rcases List.mem_append.mp hm with hm | hm
    · exact .inl hm
    · rw [List.mem_singleton.mp hm]
      exact .inr h

theorem quiet_updateChunks {p : AudioScriptChunk → Bool} {f : AudioScriptChunk → AudioScriptChunk}
    (h : ∀ chunk, (f chunk).place = chunk.place) :
    (Db.audioScriptChunk.update p f : Transaction Store ε Unit).Within Quiet :=
  Table.within_update _ fun _ _ => .of_eq rfl rfl rfl rfl rfl rfl (map_updateWhere _ h _)

end quiet

/-! ## Quiet Accesses -/

/-- An access of the API that leaves runs, scripts and places alone. -/
def Access.Quiet : Access → Prop
  | createJobs jobs => ∀ job ∈ jobs, job.director? = none
  | createTtsJobs coordinator jobs =>
      coordinator.director? = none ∧ ∀ p ∈ jobs, p.1.director? = none
  | enqueue envelope => envelope.director? = none
  | query | requestedFormats _ | external | freshId | markQueued _ | removeQueuedJob _
  | readCancellationFlag _ | setCancellationFlag _ | cancelJobs _ => True
  | _ => False

/-- An access of a worker that leaves runs, scripts and places alone. -/
def WorkerAccess.Quiet : WorkerAccess → Prop
  | enqueue envelope => envelope.director? = none
  | beginChapter _ script => script = none
  | persistChapter _ _ _ | persistAnalysis _ _ | integrateDelta _ _ | persistRevision _ _ => False
  | _ => True

theorem quiet_createSyntheses {jobs : List (ProcessingJob × TtsJob)}
    (h : ∀ p ∈ jobs, p.1.director? = none) : (createSyntheses jobs).Within Quiet := by
  induction jobs with
  | nil => exact Transaction.within_pure ()
  | cons p jobs ih =>
    refine Transaction.within_bind (quiet_insertJob (h p List.mem_cons_self)) fun _ => ?_
    refine Transaction.within_bind
      (Table.within_insert _ fun s _ => .of_eq rfl rfl rfl rfl rfl rfl rfl) fun _ => ?_
    exact ih fun q hq => h q (List.mem_cons_of_mem _ hq)

theorem quiet_createJobs {jobs : List ProcessingJob} (h : ∀ job ∈ jobs, job.director? = none) :
    (createJobs jobs).Within Quiet := by
  induction jobs with
  | nil => exact Transaction.within_pure ()
  | cons job jobs ih =>
    refine Transaction.within_bind (quiet_insertJob (h job List.mem_cons_self)) fun _ => ?_
    exact ih fun q hq => h q (List.mem_cons_of_mem _ hq)

theorem quiet_markJobRunning (jobId : Id) : (markJobRunning jobId).Within Quiet :=
  quiet_setJob fun _ => ⟨rfl, rfl⟩

theorem quiet_markJobSucceeded (jobId : Id) : (markJobSucceeded jobId).Within Quiet :=
  quiet_setJob fun _ => ⟨rfl, rfl⟩

theorem quiet_markJobFailed (jobId : Id) (errorCode : ErrorCode) :
    (markJobFailed jobId errorCode).Within Quiet :=
  quiet_setJob fun _ => ⟨rfl, rfl⟩

theorem quiet_finalizeRootJob (rootJobId : Id) : (finalizeRootJob rootJobId).Within Quiet :=
  quiet_updateJobs fun _ => ⟨rfl, rfl⟩

theorem quiet_insertAudioChunk (new : NewAudioChunk) : (insertAudioChunk new).Within Quiet := by
  refine Transaction.within_bind Transaction.within_get fun s₀ => ?_
  have htail : ∀ audio supersedesId, (do
      Db.audioChunk.insert audio
      Db.audioScriptChunk.update (fun chunk => decide (chunk.id = new.audioScriptChunkId))
        fun chunk => { chunk with currentAudioChunkId := some new.audioChunkId }
      Db.ttsJob.update (fun job => decide (job.id = new.ttsJobId)) fun job =>
        { job with
          status := .succeeded
          audioChunkId := some new.audioChunkId
          durationMs := some new.durationMs }
      return supersedesId : Tx (Option Id)).Within Quiet := fun audio supersedesId => by
    refine Transaction.within_bind ?_ fun _ =>
      Transaction.within_bind (quiet_updateChunks fun _ => rfl) fun _ =>
        Transaction.within_bind ?_ fun _ => Transaction.within_pure _
    · exact Table.within_insert _ fun s _ => .of_eq rfl rfl rfl rfl rfl rfl rfl
    · exact Table.within_update _ fun s _ => .of_eq rfl rfl rfl rfl rfl rfl rfl
  simp only
  split
  · refine Transaction.within_bind ?_ fun _ => htail _ _
    exact Table.within_update _ fun s _ => .of_eq rfl rfl rfl rfl rfl rfl rfl
  · exact htail _ _

theorem quiet_tx {a : Access} (h : a.Quiet) : a.tx.Within Quiet := by
  cases a with
  | query => exact Transaction.within_pure ()
  | requestedFormats audiobookId => exact Transaction.within_pure ()
  | readCancellationFlag jobId => exact Transaction.within_pure ()
  | external => exact Transaction.within_pure ()
  | freshId =>
    rintro s _ s' hok
    cases hok
    exact .of_eq rfl rfl rfl rfl rfl rfl rfl
  | enqueue envelope => exact Transaction.within_modify (quiet_send h)
  | markQueued jobId => exact quiet_updateJob fun _ => ⟨rfl, rfl⟩
  | removeQueuedJob jobId =>
    exact Transaction.within_modify fun s => ⟨rfl, rfl, rfl, fun _ _ hrun => hrun,
      fun job hjob _ hrun => ⟨job, hjob, rfl, hrun⟩, fun m hm => .inl (List.mem_filter.mp hm).1,
      rfl, rfl⟩
  | setCancellationFlag jobId =>
    exact Transaction.within_modify fun s => .of_eq rfl rfl rfl rfl rfl rfl rfl
  | createJobs jobs => exact quiet_createJobs h
  | createTtsJobs coordinator jobs =>
    exact Transaction.within_bind (quiet_insertJob h.1) fun _ => quiet_createSyntheses h.2
  | cancelJobs jobs =>
    refine cancelJobs_within fun p _ => quiet_updateJob fun job => ?_
    unfold cancellationPatch
    split <;> exact ⟨rfl, rfl⟩
  | _ => exact absurd h not_false

theorem quiet_session {a : WorkerAccess} (h : a.Quiet) : a.session.Within Quiet := by
  cases a with
  | query => exact Transaction.within_pure ()
  | readCancellationFlag jobId => exact Transaction.within_pure ()
  | newIds n => exact Transaction.within_modify fun s => .of_eq rfl rfl rfl rfl rfl rfl rfl
  | callModel => exact Transaction.within_pure ()
  | synthesize => exact Transaction.within_pure ()
  | upload => exact Transaction.within_pure ()
  | enqueue envelope => exact Transaction.within_modify (quiet_send h)
  | haltCancelled jobId => exact quiet_setJob fun _ => ⟨rfl, rfl⟩
  | begin jobId => exact quiet_markJobRunning jobId
  | succeed jobId => exact quiet_markJobSucceeded jobId
  | skip jobId =>
    exact Transaction.within_bind (quiet_markJobRunning jobId) fun _ => quiet_markJobSucceeded jobId
  | fail jobId errorCode => exact quiet_markJobFailed jobId errorCode
  | beginChapter jobId script =>
    obtain rfl : script = none := h
    exact Transaction.within_bind (quiet_markJobRunning jobId) fun _ => Transaction.within_pure ()
  | abandonRevision jobId err =>
    exact Transaction.within_bind (quiet_markJobFailed _ _) fun _ => Transaction.within_throw err
  | beginSynthesis jobId ttsJobId audioScriptChunkId =>
    refine Transaction.within_bind (quiet_markJobRunning jobId) fun _ => ?_
    refine Session.of_within (t := beginTtsJob ttsJobId audioScriptChunkId) ?_
    refine Transaction.within_bind ?_ fun _ => quiet_updateChunks fun _ => rfl
    exact Table.within_update _ fun s _ => .of_eq rfl rfl rfl rfl rfl rfl rfl
  | failSynthesis jobId ttsJobId code =>
    refine Transaction.within_bind (Session.of_within ?_) fun _ => quiet_markJobFailed _ _
    exact Table.within_update _ fun s _ => .of_eq rfl rfl rfl rfl rfl rfl rfl
  | persistAudio jobId new =>
    exact Transaction.within_bind (Session.of_within (quiet_insertAudioChunk new)) fun _ =>
      quiet_markJobSucceeded _
  | _ => exact absurd h not_false

end AudioBook
