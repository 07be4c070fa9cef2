import AudioBook.Director.Service
import AudioBook.Workers.Queue

/-!
# The Rows of a Finished Message

What becomes of the rows of a message once the queue does not deliver it again. A handler records
its outcome in a session of its own, on some paths only on the final attempt, and a delivery can
be the last one on many more paths: an exception that is terminal ends the message on any attempt,
and every exception does on the final one. The rows are terminal exactly when the last delivery
passes one of the sessions that record, or nothing was left to record.

Main results:

- `rowsTerminal_iff_recorded`: a delivery leaves the rows terminal exactly when it is `Recorded`.
-/

namespace AudioBook

open Relational Concurrent

/-! ## Rows and Deliveries -/

/-- The job, if it is there, is `SUCCEEDED`, `FAILED` or `CANCELLED`. -/
def JobSettled (jobId : Id) (s : Store) : Prop :=
  ∀ job ∈ findJob jobId s, job.status ∈ [.succeeded, .failed, .cancelled]

/-- The `tts_job`, if it is there, is `SUCCEEDED`, `FAILED` or `CANCELLED`. -/
def TtsJobSettled (ttsJobId : Id) (s : Store) : Prop :=
  ∀ job ∈ findTtsJob ttsJobId s, job.status ∈ [.succeeded, .failed, .cancelled]

instance (jobId : Id) (s : Store) : Decidable (JobSettled jobId s) :=
  inferInstanceAs (Decidable (∀ job ∈ _, _))

instance (ttsJobId : Id) (s : Store) : Decidable (TtsJobSettled ttsJobId s) :=
  inferInstanceAs (Decidable (∀ job ∈ _, _))

/-- The `tts_job` of a message, if it is one of the synthesis, is settled. -/
def TtsRowSettled : CommandPayload → Store → Prop
  | .generateTtsChunk _ ttsJobId, s => TtsJobSettled ttsJobId s
  | _, _ => True

instance : (payload : CommandPayload) → (s : Store) → Decidable (TtsRowSettled payload s)
  | .generateTtsChunk _ ttsJobId, s => inferInstanceAs (Decidable (TtsJobSettled ttsJobId s))
  | .analyzeScene _, _ | .buildStoryBibleDelta _, _ | .generateDirectorIr _, _
  | .reviseDirectorIr _ _ _, _ | .assembleChapter _, _ | .assembleAudiobook _ _, _
  | .encodeDeliveryFormat _ _, _ => isTrue trivial

/-- The rows of a message are terminal. -/
def RowsTerminal (m : Envelope) (s : Store) : Prop :=
  JobSettled m.jobId s ∧ TtsRowSettled m.payload s

instance (m : Envelope) (s : Store) : Decidable (RowsTerminal m s) :=
  inferInstanceAs (Decidable (_ ∧ _))

def CommandPayload.IsDirectorOrTts : CommandPayload → Prop
  | generateDirectorIr _ => True
  | reviseDirectorIr _ _ _ => True
  | generateTtsChunk _ _ => True
  | _ => False

/-- The queue does not deliver a message again after a delivery that ended like this. -/
def WorkerDelivery.IsLast (d : WorkerDelivery) : Except WorkerError Unit → Prop
  | .ok _ => True
  | .error err => err = .unrecoverable ∨ d.ctx.isFinalAttempt

/-! ## What Is Recorded -/

section recorded

variable (outage : WorkerAccess → Option WorkerError)

/-- An access is answered, and its session commits with a store. -/
def Leaves (a : WorkerAccess) (s s' : Store) : Prop :=
  outage a = none ∧ a.session s = .ok ((), s')

/-- An access is answered, and its session commits. -/
def Goes (a : WorkerAccess) (s : Store) : Prop :=
  ∃ s', Leaves outage a s s'

def afterIds (n : ℕ) (s : Store) : Store := { s with nextId := s.nextId + n }

/-- What the model raises when it is called for `n` spans. -/
def modelFault (n : ℕ) : Option WorkerError :=
  if n = 0 then none else outage .callModel

/-- The gate sees that a job, which is not `CANCELLED` yet, is to stop. -/
def CancellationSeen (job : ProcessingJob) (s : Store) : Prop :=
  job.cancellationRequested = true ∨
    outage (.readCancellationFlag job.id) = none ∧ job.id ∈ s.cancellationFlags

/-- The handler stores the chunks of a chapter and ends it. -/
def ChapterStored (ctx : JobContext) (payload : DirectorPayload) (audioScriptId : Id)
    (chunks : List BuiltChunk) (s : Store) : Prop :=
  match payload.remainingChapterIds with
  | [] => Goes outage (.persistChapter ctx.envelope.jobId chunks
      (.finalize payload.bookId payload.rootJobId audioScriptId payload.allChapterIds)) s
  | nextChapterId :: _ => Goes outage (.persistChapter ctx.envelope.jobId chunks
      (.chain (directorChildJob s.nextId payload audioScriptId nextChapterId
        ctx.contextBundleHash))) (afterIds 1 s)

/-- `handle_generate_director_ir` gets past its checks and its first session, and then either
stores the chapter, or the model raises an error of the queue on the final attempt. -/
def DirectorRecords (payload : DirectorPayload) (ctx : JobContext) (s : Store) : Prop :=
  let spans := chapterSpans (loadParagraphsForChapter payload.chapterId s)
  let audioScriptId := payload.audioScriptId.getD s.nextId
  (findChapter payload.chapterId s).isSome ∧ ctx.modelVersionId ≠ none ∧
    (findBook payload.bookId s).isSome ∧ outage (.newIds 1) = none ∧
    ∃ s₁, Leaves outage (.beginChapter ctx.envelope.jobId (newScript payload s.nextId))
        (afterIds 1 s) s₁ ∧
      match modelFault outage spans.length with
      | some err => (err.IsJobError ∧ ctx.isFinalAttempt) ∧
          Goes outage (.fail ctx.envelope.jobId (err.codeOr .directorModelFailed)) s₁
      | none => outage (.newIds spans.length) = none ∧
          ChapterStored outage ctx payload audioScriptId
            (chapterChunks ctx payload audioScriptId
              ((List.range' s₁.nextId spans.length).zip spans)) (afterIds spans.length s₁)

/-- `handle_revise_director_ir` has nothing to revise, or gets past its checks and its first
session, and stores what the model, which must not raise, decides. -/
def RevisionRecords (bookId : Id) (chunkIds : List Id) (directorVersion : ℕ) (ctx : JobContext)
    (s : Store) : Prop :=
  match chunksForRevision bookId chunkIds s with
  | [] => Goes outage (.skip ctx.envelope.jobId) s
  | row :: rows =>
      let found := withParagraphs (row :: rows) s
      (s.audioScripts.find? fun a => decide (a.id = row.audioScriptId)).isSome ∧
        ctx.modelVersionId ≠ none ∧
        ((row :: rows).any fun r => (findChapter r.chapterId s).isSome) = true ∧
        ∃ s₁, Leaves outage (.begin ctx.envelope.jobId) s s₁ ∧
          modelFault outage found.length = none ∧ outage (.newIds found.length) = none ∧
          Goes outage (.persistRevision ctx.envelope.jobId
            (((List.range' s₁.nextId found.length).zip found).map
              (reviseRow bookId directorVersion ctx.interpret))) (afterIds found.length s₁)

/-- Synthesis and upload work and the audio is stored, or one of them raises, whatever it raises,
on the final attempt. -/
def AudioRecorded (ctx : JobContext) (ttsJob : TtsJob) (chunk : AudioScriptChunk) (s : Store) :
    Prop :=
  let failed (code : TtsErrorCode) : Prop :=
    ctx.isFinalAttempt ∧ Goes outage (.failSynthesis ctx.envelope.jobId ttsJob.id code) s
  match outage .synthesize, outage .upload with
  | some err, _ => failed (classifyProviderError err)
  | none, some _ => failed .outputStorageFailed
  | none, none => outage (.newIds 1) = none ∧ Goes outage (.persistAudio ctx.envelope.jobId
      (newAudioChunk ctx ttsJob chunk s.nextId)) (afterIds 1 s)

/-- `handle_generate_tts_chunk` finds the `tts_job` done, or the audio there and the `tts_job`
`FAILED`, or gets past its checks and its first session to an end that it records. -/
def SynthesisRecords (ttsJobId : Id) (ctx : JobContext) (s : Store) : Prop :=
  ∃ ttsJob, findTtsJob ttsJobId s = some ttsJob ∧
    if ttsJob.status = .succeeded ∨ ttsJob.status = .cancelled then
      Goes outage (.succeed ctx.envelope.jobId) s
    else ∃ chunk, findCurrentScriptChunk ttsJob.audioScriptChunkId s = some chunk ∧
      if (findMatchingAudioChunk chunk ttsJob s).isSome then
        ttsJob.status = .failed ∧ Goes outage (.skip ctx.envelope.jobId) s
      else (∃ voiceVersion, findVoiceProfileVersion ttsJob.voiceProfileVersionId s = some voiceVersion ∧
          voiceVersion.approvalState ∈ [.approved, .locked]) ∧
        ctx.modelVersionId = some ttsJob.ttsModelVersionId ∧
        (s.audioScripts.find? fun a => decide (a.id = chunk.audioScriptId)).isSome ∧
        ∃ s₁, Leaves outage (.beginSynthesis ctx.envelope.jobId ttsJobId chunk.id) s s₁ ∧
          AudioRecorded outage ctx ttsJob chunk s₁

/-- The handler of a message records how it ended. -/
def HandlerRecords (ctx : JobContext) (s : Store) : Prop :=
  match ctx.envelope.payload with
  | .generateDirectorIr payload => DirectorRecords outage payload ctx s
  | .reviseDirectorIr bookId chunkIds directorVersion =>
      RevisionRecords outage bookId chunkIds directorVersion ctx s
  | .generateTtsChunk _ ttsJobId => SynthesisRecords outage ttsJobId ctx s
  | _ => False

/-- There is nothing to record, or the delivery records how it ended: the worker takes the message,
its queries are answered, and the gate writes the cancellation of a job without an open `tts_job`,
or the handler records. -/
def Recorded (d : WorkerDelivery) (s : Store) : Prop :=
  RowsTerminal d.ctx.envelope s ∨
    d.draining = false ∧ d.wellFormed = true ∧ outage .query = none ∧
      ∃ job, findJob d.ctx.envelope.jobId s = some job ∧
        job.status ∉ [.succeeded, .failed, .cancelled] ∧
        (CancellationSeen outage job s ∧ TtsRowSettled d.ctx.envelope.payload s ∧
            Goes outage (.haltCancelled job.id) s ∨
          ¬ CancellationSeen outage job s ∧ HandlerRecords outage d.ctx s)

end recorded

/-! ## What the Sessions Leave -/

section sessions

variable {jobId ttsJobId : Id} {s s' s₁ : Store} {u : Unit} {f : ProcessingJob → ProcessingJob}

theorem setJob_eq_ok_iff :
    setJob jobId f s = .ok (u, s') ↔
      Db.processingJob.Accepts (updateWhere (fun job => decide (job.id = jobId)) f s.processingJobs) ∧
        s' = { s with
          processingJobs := updateWhere (fun job => decide (job.id = jobId)) f s.processingJobs } :=
  Table.update_eq_ok_iff (ε := WorkerError) Db.processingJob

theorem findJob_setJob (h : setJob jobId f s = .ok (u, s')) (hf : ∀ job, (f job).id = job.id) :
    findJob jobId s' = (findJob jobId s).map f := by
  obtain ⟨-, rfl⟩ := setJob_eq_ok_iff.mp h
  show (updateWhere _ f s.processingJobs).find? _ = _
  rw [find?_updateWhere hf, findJob]
  cases hfound : s.processingJobs.find? fun job => decide (job.id = jobId) with
  | none => rfl
  | some job =>
    have hid : job.id = jobId := by simpa using List.find?_some hfound
    simp [hid]

theorem ttsJobs_setJob (h : setJob jobId f s = .ok (u, s')) : s'.ttsJobs = s.ttsJobs := by
  obtain ⟨-, rfl⟩ := setJob_eq_ok_iff.mp h
  rfl

theorem jobSettled_setJob (h : setJob jobId f s = .ok (u, s')) (hf : ∀ job, (f job).id = job.id)
    (hstatus : ∀ job, (f job).status ∈ [.succeeded, .failed, .cancelled]) :
    JobSettled jobId s' := by
  intro job hjob
  rw [findJob_setJob h hf, Option.mem_def, Option.map_eq_some_iff] at hjob
  obtain ⟨job₀, -, rfl⟩ := hjob
  exact hstatus job₀

theorem jobSettled_markJobSucceeded (h : markJobSucceeded jobId s = .ok (u, s')) :
    JobSettled jobId s' :=
  jobSettled_setJob h (fun _ => rfl) fun _ => by simp

theorem jobSettled_markJobFailed {errorCode : ErrorCode}
    (h : markJobFailed jobId errorCode s = .ok (u, s')) : JobSettled jobId s' :=
  jobSettled_setJob h (fun _ => rfl) fun _ => by simp

theorem JobSettled.finalizeRootJob {rootJobId : Id} (hs : JobSettled jobId s)
    (h : finalizeRootJob rootJobId s = .ok (u, s')) : JobSettled jobId s' := by
  obtain ⟨-, rfl⟩ := (Table.update_eq_ok_iff (ε := WorkerError) Db.processingJob).mp h
  intro job hjob
  simp only [findJob, Option.mem_def] at hjob
  change (updateWhere _ _ s.processingJobs).find? _ = _ at hjob
  rw [find?_updateWhere (f := fun job : ProcessingJob => { job with status := .succeeded })
    fun _ => rfl, Option.map_eq_some_iff] at hjob
  obtain ⟨job₀, hfound, rfl⟩ := hjob
  split
  · simp
  · exact hs job₀ hfound

theorem not_jobSettled_markJobRunning {job : ProcessingJob} (hjob : findJob jobId s = some job)
    (h : markJobRunning jobId s = .ok (u, s')) : ¬ JobSettled jobId s' := by
  intro hs
  have hfound : findJob jobId s' = some
      { job with status := .running, attemptCount := job.attemptCount + 1 } := by
    rw [findJob_setJob h fun _ => rfl, hjob]
    rfl
  have hsettled := hs _ hfound
  simp at hsettled

theorem jobSettled_congr (h : s'.processingJobs = s.processingJobs) :
    JobSettled jobId s' ↔ JobSettled jobId s := by
  rw [JobSettled, JobSettled, findJob, findJob, h]

theorem ttsJobSettled_congr (h : s'.ttsJobs = s.ttsJobs) :
    TtsJobSettled ttsJobId s' ↔ TtsJobSettled ttsJobId s := by
  rw [TtsJobSettled, TtsJobSettled, findTtsJob, findTtsJob, h]

theorem ttsRowSettled_congr {payload : CommandPayload} (h : s'.ttsJobs = s.ttsJobs) :
    TtsRowSettled payload s' ↔ TtsRowSettled payload s := by
  cases payload with
  | generateTtsChunk _ ttsJobId => exact ttsJobSettled_congr h
  | _ => rfl

theorem RowsTerminal.congr {m : Envelope} (h : RowsTerminal m s)
    (hjobs : s'.processingJobs = s.processingJobs) (htts : s'.ttsJobs = s.ttsJobs) :
    RowsTerminal m s' :=
  ⟨(jobSettled_congr hjobs).mpr h.1, (ttsRowSettled_congr htts).mpr h.2⟩

def WorkerAccess.settles? : WorkerAccess → Option Id
  | haltCancelled jobId | succeed jobId | skip jobId | fail jobId _ | persistChapter jobId _ _
  | persistRevision jobId _ | failSynthesis jobId _ _ | persistAudio jobId _ => some jobId
  | _ => none

def WorkerAccess.begins? : WorkerAccess → Option Id
  | begin jobId | beginChapter jobId _ | beginSynthesis jobId _ _ => some jobId
  | _ => none

theorem jobSettled_of_settles {a : WorkerAccess} (ha : a.settles? = some jobId)
    (h : a.session s = .ok ((), s')) : JobSettled jobId s' := by
  cases a <;> simp only [WorkerAccess.settles?, Option.some.injEq, reduceCtorEq] at ha <;> subst ha
  case haltCancelled => exact jobSettled_setJob h (fun _ => rfl) fun _ => by simp
  case succeed => exact jobSettled_markJobSucceeded h
  case fail => exact jobSettled_markJobFailed h
  case skip =>
    obtain ⟨-, s₁, -, hsucceed⟩ := Transaction.bind_eq_ok_iff.mp h
    exact jobSettled_markJobSucceeded hsucceed
  case persistRevision =>
    obtain ⟨-, s₁, -, hsucceed⟩ := Transaction.bind_eq_ok_iff.mp h
    exact jobSettled_markJobSucceeded hsucceed
  case failSynthesis =>
    obtain ⟨-, s₁, -, hfail⟩ := Transaction.bind_eq_ok_iff.mp h
    exact jobSettled_markJobFailed hfail
  case persistAudio =>
    obtain ⟨-, s₁, -, hsucceed⟩ := Transaction.bind_eq_ok_iff.mp h
    exact jobSettled_markJobSucceeded hsucceed
  case persistChapter jobId chunks ending =>
    obtain ⟨-, s₁, -, hend⟩ := Transaction.bind_eq_ok_iff.mp h
    cases ending with
    | chain child =>
      obtain ⟨-, s₂, -, hsucceed⟩ := Transaction.bind_eq_ok_iff.mp hend
      exact jobSettled_markJobSucceeded hsucceed
    | finalize bookId rootJobId audioScriptId allChapterIds =>
      -- The job is marked before the root job, which may be the same.
      obtain ⟨-, -, t₁, t₂, -, hsucceed, hroot⟩ := finalizeRun_eq_ok_iff.mp hend
      exact (jobSettled_markJobSucceeded hsucceed).finalizeRootJob hroot

theorem not_jobSettled_of_begins {a : WorkerAccess} {job : ProcessingJob}
    (ha : a.begins? = some jobId) (hjob : findJob jobId s = some job)
    (h : a.session s = .ok ((), s')) : ¬ JobSettled jobId s' := by
  cases a <;> simp only [WorkerAccess.begins?, Option.some.injEq, reduceCtorEq] at ha <;> subst ha
  case begin => exact not_jobSettled_markJobRunning hjob h
  case beginChapter jobId script =>
    obtain ⟨_, s₁, hrun, hscript⟩ := Transaction.bind_eq_ok_iff.mp h
    have hsame : s'.processingJobs = s₁.processingJobs := by
      cases script with
      | none =>
        obtain ⟨-, rfl⟩ := Transaction.pure_eq_ok_iff.mp hscript
        rfl
      | some new =>
        obtain ⟨t₁, s₂, hget, hcreate⟩ := Transaction.bind_eq_ok_iff.mp hscript
        cases hget
        obtain ⟨t₂, s₃, hget, hinsert⟩ :=
          Transaction.bind_eq_ok_iff.mp (Session.lift_eq_ok_iff.mp hcreate)
        cases hget
        obtain ⟨-, rfl⟩ := (Table.insert_eq_ok_iff (ε := Fault) Db.audioScript).mp hinsert
        rfl
    rw [jobSettled_congr hsame]
    exact not_jobSettled_markJobRunning hjob hrun
  case beginSynthesis =>
    obtain ⟨_, s₁, hrun, htts⟩ := Transaction.bind_eq_ok_iff.mp h
    have hsame : s'.processingJobs = s₁.processingJobs := by
      obtain ⟨_, s₂, hjobs, hchunks⟩ :=
        Transaction.bind_eq_ok_iff.mp (Session.lift_eq_ok_iff.mp htts)
      obtain ⟨-, rfl⟩ := (Table.update_eq_ok_iff (ε := Fault) Db.ttsJob).mp hjobs
      obtain ⟨-, rfl⟩ := (Table.update_eq_ok_iff (ε := Fault) Db.audioScriptChunk).mp hchunks
      rfl
    rw [jobSettled_congr hsame]
    exact not_jobSettled_markJobRunning hjob hrun

theorem ttsJobSettled_update {f : TtsJob → TtsJob}
    (h : (Db.ttsJob.update (fun job => decide (job.id = ttsJobId)) f : Tx Unit) s = .ok (u, s'))
    (hf : ∀ job, (f job).id = job.id)
    (hstatus : ∀ job, (f job).status ∈ [.succeeded, .failed, .cancelled]) :
    TtsJobSettled ttsJobId s' := by
  obtain ⟨-, rfl⟩ := (Table.update_eq_ok_iff (ε := Fault) Db.ttsJob).mp h
  intro job hjob
  change (updateWhere _ f s.ttsJobs).find? _ = _ at hjob
  rw [find?_updateWhere hf, Option.map_eq_some_iff] at hjob
  obtain ⟨job₀, hfound, rfl⟩ := hjob
  have hid : job₀.id = ttsJobId := by simpa using List.find?_some hfound
  simpa [hid] using hstatus job₀

theorem ttsJobSettled_failSynthesis {code : TtsErrorCode}
    (h : (WorkerAccess.failSynthesis jobId ttsJobId code).session s = .ok ((), s')) :
    TtsJobSettled ttsJobId s' := by
  obtain ⟨_, s₁, htts, hjob⟩ := Transaction.bind_eq_ok_iff.mp h
  rw [ttsJobSettled_congr (ttsJobs_setJob hjob)]
  exact ttsJobSettled_update (Session.lift_eq_ok_iff.mp htts) (fun _ => rfl) fun _ => by simp

theorem ttsJobSettled_persistAudio {new : NewAudioChunk}
    (h : (WorkerAccess.persistAudio jobId new).session s = .ok ((), s')) :
    TtsJobSettled new.ttsJobId s' := by
  obtain ⟨_, s₁, haudio, hjob⟩ := Transaction.bind_eq_ok_iff.mp h
  rw [ttsJobSettled_congr (ttsJobs_setJob hjob)]
  -- The update of the `tts_job` is the last statement of `insert_audio_chunk`.
  obtain ⟨_, _, hget, h⟩ := Transaction.bind_eq_ok_iff.mp (Session.lift_eq_ok_iff.mp haudio)
  have htail : ∀ {t t' : Store} {audio : AudioChunk} {p : AudioScriptChunk → Bool}
      {f : AudioScriptChunk → AudioScriptChunk} {g : TtsJob → TtsJob} {i r : Option Id}, (do
        Db.audioChunk.insert audio
        Db.audioScriptChunk.update p f
        Db.ttsJob.update (fun job => decide (job.id = new.ttsJobId)) g
        return i : Tx (Option Id)) t = .ok (r, t') →
      (∀ job, (g job).id = job.id) → (∀ job, (g job).status = .succeeded) →
      TtsJobSettled new.ttsJobId t' := by
    intro t t' audio p f g i r h hid hstatus
    obtain ⟨_, _, -, h⟩ := Transaction.bind_eq_ok_iff.mp h
    obtain ⟨_, _, -, h⟩ := Transaction.bind_eq_ok_iff.mp h
    obtain ⟨_, _, htts, h⟩ := Transaction.bind_eq_ok_iff.mp h
    obtain ⟨-, rfl⟩ := Transaction.pure_eq_ok_iff.mp h
    exact ttsJobSettled_update htts hid fun job => by simp [hstatus]
  revert h
  generalize Option.map AudioChunk.id _ = supersedesId
  intro h
  cases supersedesId with
  | some oldId =>
    obtain ⟨_, _, -, h⟩ := Transaction.bind_eq_ok_iff.mp h
    exact htail h (fun _ => rfl) fun _ => rfl
  | none => exact htail h (fun _ => rfl) fun _ => rfl

end sessions

/-! ## Where a Program Ends -/

section ends

variable {m : Envelope} {outage : WorkerAccess → Option WorkerError} {s : Store} {α β : Type}

/-- The rows of a message are terminal once a program has run. -/
def EndsTerminal (m : Envelope) (outage : WorkerAccess → Option WorkerError) (p : Worker α)
    (s : Store) : Prop :=
  RowsTerminal m (p.evaluate outage s).2

theorem evaluate_run (a : WorkerAccess) :
    (Worker.run a).evaluate outage s =
      match outage a with
      | some e => (.error e, s)
      | none =>
          match a.session s with
          | .ok (u, s') => (.ok u, s')
          | .error e => (.error e, s) := by
  rw [Worker.run, Prog.atomically, Prog.evaluate]
  cases outage a with
  | some e => rfl
  | none =>
    simp only [Prog.outcome, Prog.commit]
    cases a.session s with
    | ok r => rfl
    | error e => rfl

theorem evaluate_callModel (n : ℕ) :
    (Worker.callModel n).evaluate outage s =
      match modelFault outage n with
      | some e => (.error e, s)
      | none => (.ok (), s) := by
  induction n with
  | zero => rfl
  | succ n ih =>
    rw [Worker.callModel, Prog.evaluate_bind]
    cases hmodel : outage .callModel with
    | some e => simp [modelFault, hmodel, Prog.evaluate_read_of_outage hmodel]
    | none =>
      rw [Prog.evaluate_read hmodel]
      simp only [ih, modelFault, hmodel, ite_self]

theorem endsTerminal_pure (a : α) : EndsTerminal m outage (pure a) s ↔ RowsTerminal m s := Iff.rfl

theorem endsTerminal_throw (e : WorkerError) :
    EndsTerminal m outage (throw e : Worker α) s ↔ RowsTerminal m s := Iff.rfl

theorem endsTerminal_query_bind {f : Store → α} {k : α → Worker β} (h : ¬ RowsTerminal m s) :
    EndsTerminal m outage (Worker.query f >>= k) s ↔
      outage .query = none ∧ EndsTerminal m outage (k (f s)) s := by
  rw [EndsTerminal, Worker.query, Prog.evaluate_bind]
  cases hquery : outage .query with
  | some e => simp [Prog.evaluate_read_of_outage hquery, h]
  | none =>
    rw [Prog.evaluate_read hquery]
    simp [EndsTerminal]

theorem endsTerminal_run_bind {a : WorkerAccess} {k : Unit → Worker β} (h : ¬ RowsTerminal m s) :
    EndsTerminal m outage (Worker.run a >>= k) s ↔
      ∃ s', Leaves outage a s s' ∧ EndsTerminal m outage (k ()) s' := by
  rw [EndsTerminal, Prog.evaluate_bind, evaluate_run]
  cases houtage : outage a with
  | some e => simp [Leaves, houtage, h]
  | none =>
    cases hsession : a.session s with
    | ok r =>
      obtain ⟨u, s'⟩ := r
      simp [Leaves, houtage, hsession, EndsTerminal]
    | error e => simp [Leaves, houtage, hsession, h]

theorem endsTerminal_newIds_bind {n : ℕ} {k : List Id → Worker β} (h : ¬ RowsTerminal m s) :
    EndsTerminal m outage (Worker.newIds n >>= k) s ↔
      outage (.newIds n) = none ∧
        EndsTerminal m outage (k (List.range' s.nextId n)) (afterIds n s) := by
  have hids : (Worker.newIds n).evaluate outage s =
      match outage (.newIds n) with
      | some e => (.error e, s)
      | none => (.ok (List.range' s.nextId n), afterIds n s) := by
    rw [Worker.newIds, Prog.evaluate]
    cases outage (.newIds n) <;> rfl
  rw [EndsTerminal, Prog.evaluate_bind, hids]
  cases outage (.newIds n) with
  | some e => simp [h]
  | none => simp [EndsTerminal]

theorem endsTerminal_newId_bind {k : Id → Worker β} (h : ¬ RowsTerminal m s) :
    EndsTerminal m outage (Worker.newId >>= k) s ↔
      outage (.newIds 1) = none ∧ EndsTerminal m outage (k s.nextId) (afterIds 1 s) := by
  have hid : Worker.newId.evaluate outage s =
      match outage (.newIds 1) with
      | some e => (.error e, s)
      | none => (.ok s.nextId, afterIds 1 s) := by
    rw [Worker.newId, Prog.evaluate]
    cases outage (.newIds 1) <;> rfl
  rw [EndsTerminal, Prog.evaluate_bind, hid]
  cases outage (.newIds 1) with
  | some e => simp [h]
  | none => simp [EndsTerminal]

theorem endsTerminal_run_settles {a : WorkerAccess} (h : ¬ RowsTerminal m s)
    (ha : a.settles? = some m.jobId) :
    EndsTerminal m outage (Worker.run a) s ↔
      ∃ s', Leaves outage a s s' ∧ TtsRowSettled m.payload s' := by
  rw [EndsTerminal, evaluate_run]
  cases houtage : outage a with
  | some e => simp [Leaves, houtage, h]
  | none =>
    cases hsession : a.session s with
    | ok r =>
      obtain ⟨u, s'⟩ := r
      have hsettled : JobSettled m.jobId s' := jobSettled_of_settles ha hsession
      simp [Leaves, houtage, hsession, RowsTerminal, hsettled]
    | error e => simp [Leaves, houtage, hsession, h]

theorem endsTerminal_run {a : WorkerAccess} (h : ¬ RowsTerminal m s)
    (ha : a.settles? = some m.jobId)
    (htts : ∀ s', Leaves outage a s s' → TtsRowSettled m.payload s') :
    EndsTerminal m outage (Worker.run a) s ↔ Goes outage a s :=
  (endsTerminal_run_settles h ha).trans (exists_congr fun s' => and_iff_left_of_imp (htts s'))

theorem endsTerminal_enqueue {envelope : Envelope} (h : RowsTerminal m s) :
    EndsTerminal m outage (Worker.run (.enqueue envelope)) s := by
  rw [EndsTerminal, evaluate_run]
  cases outage (.enqueue envelope) with
  | some e => exact h
  | none =>
    show RowsTerminal m (if _ then s else _)
    split
    · exact h
    · exact h.congr rfl rfl

/-- A program raises when it runs on a store. -/
def Raises (outage : WorkerAccess → Option WorkerError) (p : Worker α) (s : Store) : Prop :=
  ∃ e, (p.evaluate outage s).1 = .error e

theorem raises_throw (e : WorkerError) : Raises outage (throw e : Worker α) s := ⟨e, rfl⟩

theorem raises_bind {p : Worker α} {k : α → Worker β} (h : ∀ a s', Raises outage (k a) s') :
    Raises outage (p >>= k) s := by
  rw [Raises, Prog.evaluate_bind]
  rcases p.evaluate outage s with ⟨_ | a, s'⟩
  · exact ⟨_, rfl⟩
  · exact h a s'

theorem endsTerminal_tryCatch_bind {p : Worker α} {handler : WorkerError → Worker α}
    {k : α → Worker β} (hraise : ∀ e s', Raises outage (handler e) s') :
    EndsTerminal m outage (tryCatchThe WorkerError p handler >>= k) s ↔
      match p.evaluate outage s with
      | (.ok a, s') => EndsTerminal m outage (k a) s'
      | (.error e, s') => EndsTerminal m outage (handler e) s' := by
  rw [EndsTerminal, Prog.evaluate_bind, Prog.evaluate_tryCatch]
  rcases p.evaluate outage s with ⟨e | a, s'⟩
  · obtain ⟨e', he'⟩ := hraise e s'
    rcases hend : (handler e).evaluate outage s' with ⟨r, t⟩
    rw [hend] at he'
    subst he'
    simp [EndsTerminal, hend]
  · rfl

end ends

/-! ## Where the Handlers End -/

section handlers

variable {ctx : JobContext} {outage : WorkerAccess → Option WorkerError} {s : Store} {α β : Type}
  {job : ProcessingJob}

theorem endsTerminal_decideChapter_bind {n : ℕ} {k : Unit → Worker β}
    (h : ¬ RowsTerminal ctx.envelope s) (htts : ∀ s', TtsRowSettled ctx.envelope.payload s') :
    EndsTerminal ctx.envelope outage (decideChapter ctx n >>= k) s ↔
      match modelFault outage n with
      | some err => (err.IsJobError ∧ ctx.isFinalAttempt) ∧
          Goes outage (.fail ctx.envelope.jobId (err.codeOr .directorModelFailed)) s
      | none => EndsTerminal ctx.envelope outage (k ()) s := by
  refine (endsTerminal_tryCatch_bind fun e s' => ?_).trans ?_
  · split
    · exact raises_bind fun _ _ => raises_throw e
    · exact raises_throw e
  rw [evaluate_callModel]
  cases modelFault outage n with
  | none => rfl
  | some err =>
    simp only
    split
    · next hfinal =>
      refine (endsTerminal_run_bind h).trans ?_
      simp only [hfinal, and_self, true_and, Goes]
      refine exists_congr fun s' => and_iff_left_of_imp fun hleaves => ?_
      exact ⟨jobSettled_of_settles rfl hleaves.2, htts s'⟩
    · next hfinal => simp [hfinal, endsTerminal_throw, h]

theorem endsTerminal_decideRevision_bind {n : ℕ} {k : Unit → Worker β}
    (h : ¬ RowsTerminal ctx.envelope s) :
    EndsTerminal ctx.envelope outage (decideRevision ctx n >>= k) s ↔
      modelFault outage n = none ∧ EndsTerminal ctx.envelope outage (k ()) s := by
  refine (endsTerminal_tryCatch_bind fun e s' => ?_).trans ?_
  · split
    · exact raises_bind fun _ _ => raises_throw e
    · exact raises_throw e
  rw [evaluate_callModel]
  cases modelFault outage n with
  | none => simp
  | some err =>
    simp only [reduceCtorEq, false_and, iff_false]
    split
    · refine fun hend => ?_
      obtain ⟨s', hleaves, -⟩ := (endsTerminal_run_bind h).mp hend
      -- The session ends with the exception, so it does not commit.
      obtain ⟨_, t, -, hthrow⟩ := Transaction.bind_eq_ok_iff.mp hleaves.2
      cases hthrow
    · exact h

theorem not_rowsTerminal_afterIds {m : Envelope} {n : ℕ} (h : ¬ RowsTerminal m s) :
    ¬ RowsTerminal m (afterIds n s) :=
  fun hterminal => h (hterminal.congr rfl rfl)

theorem not_rowsTerminal_of_begins {m : Envelope} {a : WorkerAccess} {s' : Store}
    (ha : a.begins? = some m.jobId) (hjob : findJob m.jobId s = some job)
    (h : Leaves outage a s s') : ¬ RowsTerminal m s' :=
  fun hterminal => not_jobSettled_of_begins ha hjob h.2 hterminal.1

theorem endsTerminal_storeChapter {payload : DirectorPayload} {audioScriptId : Id}
    {chunks : List BuiltChunk} (h : ¬ RowsTerminal ctx.envelope s)
    (htts : ∀ s', TtsRowSettled ctx.envelope.payload s') (hids : outage (.newIds 1) = none) :
    EndsTerminal ctx.envelope outage (storeChapter ctx payload audioScriptId chunks) s ↔
      ChapterStored outage ctx payload audioScriptId chunks s := by
  rw [storeChapter, ChapterStored]
  cases payload.remainingChapterIds with
  | nil => exact endsTerminal_run h rfl fun s' _ => htts s'
  | cons nextChapterId remaining =>
    refine (endsTerminal_newId_bind h).trans ?_
    rw [and_iff_right hids]
    refine (endsTerminal_run_bind (not_rowsTerminal_afterIds h)).trans (exists_congr fun s' => ?_)
    -- The chapter is recorded before the message of the next one is sent.
    refine and_iff_left_of_imp fun hleaves => endsTerminal_enqueue ?_
    exact ⟨jobSettled_of_settles rfl hleaves.2, htts s'⟩

theorem not_terminal_of_open {m : Envelope} (hjob : findJob m.jobId s = some job)
    (hstatus : job.status ∉ [.succeeded, .failed, .cancelled]) :
    ¬ RowsTerminal m s ∧ ¬ (job.status = .succeeded ∨ job.status = .failed) := by
  refine ⟨fun hterminal => hstatus (hterminal.1 job hjob), fun hdone => hstatus ?_⟩
  rcases hdone with hdone | hdone <;> simp [hdone]

theorem endsTerminal_handleGenerateDirectorIr {payload : DirectorPayload}
    (htts : ∀ s', TtsRowSettled ctx.envelope.payload s') (hquery : outage .query = none)
    (hjob : findJob ctx.envelope.jobId s = some job)
    (hstatus : job.status ∉ [.succeeded, .failed, .cancelled]) :
    EndsTerminal ctx.envelope outage (handleGenerateDirectorIr payload ctx) s ↔
      DirectorRecords outage payload ctx s := by
  obtain ⟨h, hopen⟩ := not_terminal_of_open hjob hstatus
  refine (endsTerminal_query_bind h).trans ?_
  rw [and_iff_right hquery, hjob]
  simp only [if_neg hopen]
  refine (endsTerminal_query_bind h).trans ?_
  rw [and_iff_right hquery, DirectorRecords]
  cases hchapter : findChapter payload.chapterId s with
  | none => simpa [endsTerminal_throw] using h
  | some chapter =>
  cases hmodel : ctx.modelVersionId with
  | none => simpa [endsTerminal_throw] using h
  | some modelVersionId =>
  simp only [Option.isNone_some, Bool.false_eq_true, if_false, reduceCtorEq]
  refine (endsTerminal_query_bind h).trans ?_
  rw [and_iff_right hquery]
  cases hbook : findBook payload.bookId s with
  | none => simpa [endsTerminal_throw] using h
  | some book =>
  simp only [Option.isNone_some, Bool.false_eq_true, if_false, Option.isSome_some, ne_eq,
    reduceCtorEq, not_false_eq_true, true_and]
  refine (endsTerminal_query_bind h).trans ?_
  rw [and_iff_right hquery]
  refine (endsTerminal_newId_bind h).trans (and_congr_right fun hids => ?_)
  refine (endsTerminal_run_bind (not_rowsTerminal_afterIds h)).trans (exists_congr fun s₁ => ?_)
  refine and_congr_right fun hbegin => ?_
  have hrunning : ¬ RowsTerminal ctx.envelope s₁ :=
    not_rowsTerminal_of_begins (s := afterIds 1 s) rfl hjob hbegin
  refine (endsTerminal_decideChapter_bind hrunning htts).trans ?_
  cases modelFault outage (chapterSpans (loadParagraphsForChapter payload.chapterId s)).length with
  | some err => rfl
  | none =>
    refine (endsTerminal_newIds_bind hrunning).trans (and_congr_right fun _ => ?_)
    exact endsTerminal_storeChapter (not_rowsTerminal_afterIds hrunning) htts hids

theorem endsTerminal_handleReviseDirectorIr {bookId : Id} {chunkIds : List Id}
    {directorVersion : ℕ} (htts : ∀ s', TtsRowSettled ctx.envelope.payload s')
    (hquery : outage .query = none) (hjob : findJob ctx.envelope.jobId s = some job)
    (hstatus : job.status ∉ [.succeeded, .failed, .cancelled]) :
    EndsTerminal ctx.envelope outage (handleReviseDirectorIr bookId chunkIds directorVersion ctx)
        s ↔
      RevisionRecords outage bookId chunkIds directorVersion ctx s := by
  obtain ⟨h, hopen⟩ := not_terminal_of_open hjob hstatus
  refine (endsTerminal_query_bind h).trans ?_
  rw [and_iff_right hquery, hjob]
  simp only [if_neg hopen]
  refine (endsTerminal_query_bind h).trans ?_
  rw [and_iff_right hquery, RevisionRecords]
  cases chunksForRevision bookId chunkIds s with
  | nil => exact endsTerminal_run h rfl fun s' _ => htts s'
  | cons row rows =>
  refine (endsTerminal_query_bind h).trans ?_
  rw [and_iff_right hquery]
  cases hscript : s.audioScripts.find? fun a => decide (a.id = row.audioScriptId) with
  | none =>
    simp only [hscript, Option.isNone_none, if_true, Option.isSome_none, Bool.false_eq_true,
      false_and, iff_false]
    exact h
  | some script =>
  cases hmodel : ctx.modelVersionId with
  | none => simpa [endsTerminal_throw] using h
  | some modelVersionId =>
  simp only [hscript, Option.isNone_some, Bool.false_eq_true, if_false, reduceCtorEq]
  refine (endsTerminal_query_bind h).trans ?_
  rw [and_iff_right hquery]
  cases hchapter : (row :: rows).any fun r => (findChapter r.chapterId s).isSome with
  | false => simpa [endsTerminal_throw] using h
  | true =>
  simp only [not_true_eq_false, if_false, Option.isSome_some, ne_eq, reduceCtorEq,
    not_false_eq_true, true_and]
  refine (endsTerminal_query_bind h).trans ?_
  rw [and_iff_right hquery]
  refine (endsTerminal_run_bind h).trans (exists_congr fun s₁ => ?_)
  refine and_congr_right fun hbegin => ?_
  have hrunning : ¬ RowsTerminal ctx.envelope s₁ := not_rowsTerminal_of_begins rfl hjob hbegin
  refine (endsTerminal_decideRevision_bind hrunning).trans (and_congr_right fun _ => ?_)
  refine (endsTerminal_newIds_bind hrunning).trans (and_congr_right fun _ => ?_)
  exact endsTerminal_run (not_rowsTerminal_afterIds hrunning) rfl fun s' _ => htts s'

section synthesis

variable {chunkId ttsJobId : Id} {ttsJob : TtsJob}
  (hpayload : ctx.envelope.payload = .generateTtsChunk chunkId ttsJobId)

include hpayload

theorem ttsRowSettled_iff : TtsRowSettled ctx.envelope.payload s ↔ TtsJobSettled ttsJobId s := by
  rw [hpayload]
  rfl

theorem endsTerminal_raiseTtsError {code : TtsErrorCode} (h : ¬ RowsTerminal ctx.envelope s) :
    EndsTerminal ctx.envelope outage (raiseTtsError ctx ttsJobId code) s ↔
      ctx.isFinalAttempt ∧ Goes outage (.failSynthesis ctx.envelope.jobId ttsJobId code) s := by
  rw [raiseTtsError]
  split
  · next hfinal =>
    rw [and_iff_right hfinal]
    refine (endsTerminal_run_bind h).trans (exists_congr fun s' => ?_)
    refine and_iff_left_of_imp fun hleaves => ⟨jobSettled_of_settles rfl hleaves.2, ?_⟩
    exact (ttsRowSettled_iff hpayload).mpr (ttsJobSettled_failSynthesis hleaves.2)
  · next hfinal => simp [hfinal, endsTerminal_throw, h]

omit hpayload in
theorem raises_raiseTtsError (code : TtsErrorCode) :
    Raises outage (raiseTtsError ctx ttsJobId code) s := by
  rw [raiseTtsError]
  split
  · exact raises_bind fun _ _ => raises_throw _
  · exact raises_throw _

theorem endsTerminal_synthesizeChunk {chunk : AudioScriptChunk} (hid : ttsJob.id = ttsJobId)
    (h : ¬ RowsTerminal ctx.envelope s) :
    EndsTerminal ctx.envelope outage (synthesizeChunk ctx ttsJob chunk) s ↔
      AudioRecorded outage ctx ttsJob chunk s := by
  subst hid
  refine (endsTerminal_tryCatch_bind fun e s' => raises_raiseTtsError _).trans ?_
  rw [AudioRecorded]
  cases hsynthesize : outage .synthesize with
  | some err =>
    rw [Prog.evaluate_read_of_outage hsynthesize]
    exact endsTerminal_raiseTtsError hpayload h
  | none =>
    rw [Prog.evaluate_read hsynthesize]
    refine (endsTerminal_tryCatch_bind fun e s' => raises_raiseTtsError _).trans ?_
    cases hupload : outage .upload with
    | some err =>
      rw [Prog.evaluate_read_of_outage hupload]
      exact endsTerminal_raiseTtsError hpayload h
    | none =>
      rw [Prog.evaluate_read hupload]
      refine (endsTerminal_newId_bind h).trans (and_congr_right fun _ => ?_)
      refine endsTerminal_run (not_rowsTerminal_afterIds h) rfl fun s' hleaves => ?_
      exact (ttsRowSettled_iff hpayload).mpr (ttsJobSettled_persistAudio hleaves.2)

theorem endsTerminal_run_of_sameTtsJobs {a : WorkerAccess} (h : ¬ RowsTerminal ctx.envelope s)
    (ha : a.settles? = some ctx.envelope.jobId) (htts : findTtsJob ttsJobId s = some ttsJob)
    (hsame : ∀ s', a.session s = .ok ((), s') → s'.ttsJobs = s.ttsJobs) :
    EndsTerminal ctx.envelope outage (Worker.run a) s ↔
      ttsJob.status ∈ [.succeeded, .failed, .cancelled] ∧ Goes outage a s := by
  have hsettled : TtsJobSettled ttsJobId s ↔ ttsJob.status ∈ [.succeeded, .failed, .cancelled] := by
    simp [TtsJobSettled, htts]
  rw [endsTerminal_run_settles h ha, Goes, ← hsettled, ← exists_and_left]
  refine exists_congr fun s' => ?_
  rw [and_comm]
  refine and_congr_left fun hleaves => ?_
  rw [ttsRowSettled_iff hpayload, ttsJobSettled_congr (hsame s' hleaves.2)]

theorem endsTerminal_handleGenerateTtsChunk (hquery : outage .query = none)
    (hjob : findJob ctx.envelope.jobId s = some job)
    (hstatus : job.status ∉ [.succeeded, .failed, .cancelled]) :
    EndsTerminal ctx.envelope outage (handleGenerateTtsChunk ttsJobId ctx) s ↔
      SynthesisRecords outage ttsJobId ctx s := by
  obtain ⟨h, hopen⟩ := not_terminal_of_open hjob hstatus
  refine (endsTerminal_query_bind h).trans ?_
  rw [and_iff_right hquery, hjob]
  simp only [if_neg hopen]
  refine (endsTerminal_query_bind h).trans ?_
  rw [and_iff_right hquery, SynthesisRecords]
  cases htts : findTtsJob ttsJobId s with
  | none => simpa [endsTerminal_throw] using h
  | some ttsJob =>
  have hid : ttsJob.id = ttsJobId := by simpa using List.find?_some htts
  simp only [Option.some.injEq, exists_eq_left']
  split
  · next hdone =>
    refine (endsTerminal_run_of_sameTtsJobs (a := .succeed ctx.envelope.jobId) hpayload h rfl htts
      fun s' hsucceed => ttsJobs_setJob hsucceed).trans ?_
    refine and_iff_right ?_
    rcases hdone with hdone | hdone <;> simp [hdone]
  next hnotDone =>
  refine (endsTerminal_query_bind h).trans ?_
  rw [and_iff_right hquery]
  cases hchunk : findCurrentScriptChunk ttsJob.audioScriptChunkId s with
  | none => simpa [endsTerminal_throw] using h
  | some chunk =>
  simp only [Option.some.injEq, exists_eq_left']
  refine (endsTerminal_query_bind h).trans ?_
  rw [and_iff_right hquery]
  split
  · refine (endsTerminal_run_of_sameTtsJobs hpayload h rfl htts fun s' hskip => ?_).trans ?_
    · obtain ⟨_, s₁, hrun, hsucceed⟩ := Transaction.bind_eq_ok_iff.mp hskip
      exact (ttsJobs_setJob hsucceed).trans (ttsJobs_setJob hrun)
    · rw [not_or] at hnotDone
      simp [hnotDone.1, hnotDone.2]
  refine (endsTerminal_query_bind h).trans ?_
  rw [and_iff_right hquery]
  cases hvoice : findVoiceProfileVersion ttsJob.voiceProfileVersionId s with
  | none => simpa [endsTerminal_throw] using h
  | some voiceVersion =>
  simp only [Option.some.injEq, exists_eq_left']
  split
  · next happroval => simpa [endsTerminal_throw, happroval] using h
  next happroval =>
  rw [not_not] at happroval
  cases hmodel : ctx.modelVersionId with
  | none => simpa [endsTerminal_throw] using h
  | some loadedModelVersionId =>
  simp only [happroval, true_and, Option.some.injEq]
  split
  · next hother => simpa [endsTerminal_throw, hother] using h
  next hsame =>
  rw [not_not] at hsame
  rw [and_iff_right hsame]
  refine (endsTerminal_query_bind h).trans ?_
  rw [and_iff_right hquery]
  cases hscript : s.audioScripts.find? fun a => decide (a.id = chunk.audioScriptId) with
  | none =>
    simp only [Option.isNone_none, if_true, Option.isSome_none, Bool.false_eq_true,
      false_and, iff_false]
    exact h
  | some script =>
  simp only [Option.isNone_some, Bool.false_eq_true, if_false, Option.isSome_some,
    true_and]
  refine (endsTerminal_run_bind h).trans (exists_congr fun s₁ => and_congr_right fun hbegin => ?_)
  exact endsTerminal_synthesizeChunk hpayload hid (not_rowsTerminal_of_begins rfl hjob hbegin)

end synthesis

end handlers

/-! ## Where a Delivery Ends -/

section delivery

variable {outage : WorkerAccess → Option WorkerError} {s : Store} {jobId : Id}
  {job : ProcessingJob}

theorem evaluate_isCancelled (hquery : outage .query = none) (hjob : findJob jobId s = some job)
    (hcolumn : job.cancellationRequested = false) :
    ∃ b, (isCancelled jobId).evaluate outage s = (.ok b, s) ∧
      (b = true ↔ CancellationSeen outage job s) := by
  have hid : job.id = jobId := by simpa using List.find?_some hjob
  have hask : (isCancelled jobId).evaluate outage s = _ := Prog.evaluate_tryCatch
  cases hflag : outage (.readCancellationFlag jobId) with
  | none =>
    rw [Prog.evaluate_read hflag] at hask
    exact ⟨_, hask, by simp [CancellationSeen, hcolumn, hid, hflag]⟩
  | some e =>
    rw [Prog.evaluate_read_of_outage hflag] at hask
    have hcolumnRead : (Worker.query fun s =>
        ((findJob jobId s).map ProcessingJob.cancellationRequested).getD false).evaluate outage s =
          (.ok false, s) := by
      rw [Worker.query, Prog.evaluate_read hquery, hjob, Option.map_some, Option.getD_some, hcolumn]
    exact ⟨false, hask.trans hcolumnRead, by simp [CancellationSeen, hcolumn, hid, hflag]⟩

theorem evaluate_gate_of_none (hquery : outage .query = none) (hjob : findJob jobId s = none) :
    (workerHaltIfCancelled jobId).evaluate outage s = (.ok false, s) := by
  have hread : (Worker.query (findJob jobId)).evaluate outage s = (.ok none, s) := by
    rw [Worker.query, Prog.evaluate_read hquery, hjob]
  exact Prog.evaluate_bind_of_ok hread

theorem evaluate_gate (hquery : outage .query = none) (hjob : findJob jobId s = some job) :
    (job.status = .cancelled → (workerHaltIfCancelled jobId).evaluate outage s = (.ok true, s)) ∧
      (job.status ≠ .cancelled → CancellationSeen outage job s →
        (workerHaltIfCancelled jobId).evaluate outage s =
          (Worker.run (.haltCancelled jobId) >>= fun _ => pure true).evaluate outage s) ∧
      (job.status ≠ .cancelled → ¬ CancellationSeen outage job s →
        (workerHaltIfCancelled jobId).evaluate outage s = (.ok false, s)) := by
  have hread : (Worker.query (findJob jobId)).evaluate outage s = (.ok (some job), s) := by
    rw [Worker.query, Prog.evaluate_read hquery, hjob]
  have hgate : (workerHaltIfCancelled jobId).evaluate outage s = _ :=
    Prog.evaluate_bind_of_ok hread
  simp only at hgate
  refine ⟨fun hstatus => ?_, fun hstatus hseen => ?_, fun hstatus hseen => ?_⟩
  · rw [hgate, if_pos hstatus]
    rfl
  · rw [hgate, if_neg hstatus]
    cases hcolumn : job.cancellationRequested with
    | true => rfl
    | false =>
      obtain ⟨b, hask, hb⟩ := evaluate_isCancelled hquery hjob hcolumn
      obtain rfl := hb.mpr hseen
      exact Prog.evaluate_bind_of_ok hask
  · rw [hgate, if_neg hstatus]
    cases hcolumn : job.cancellationRequested with
    | true => exact absurd (.inl hcolumn) hseen
    | false =>
      obtain ⟨b, hask, hb⟩ := evaluate_isCancelled hquery hjob hcolumn
      obtain rfl : b = false := by simpa using fun htrue => hseen (hb.mp htrue)
      exact Prog.evaluate_bind_of_ok hask

/-- What runs between the queue runtime's checks and its handling of exceptions. -/
def gatedHandler (ctx : JobContext) : Worker Unit :=
  workerHaltIfCancelled ctx.envelope.jobId >>= fun halted =>
    if halted then pure () else handleJob ctx

theorem endsTerminal_process {m : Envelope} {d : WorkerDelivery} :
    EndsTerminal m outage (process d) s ↔
      if d.draining = false ∧ d.wellFormed = true then
        EndsTerminal m outage (gatedHandler d.ctx) s
      else RowsTerminal m s := by
  rw [process]
  cases hdraining : d.draining with
  | true => simp [endsTerminal_throw]
  | false =>
    cases hformed : d.wellFormed with
    | false => simp [endsTerminal_throw]
    | true =>
      simp only [Bool.false_eq_true, if_false, not_true_eq_false, and_self, if_true]
      rw [EndsTerminal]
      show RowsTerminal m ((tryCatchThe WorkerError (gatedHandler d.ctx) _).evaluate outage s).2 ↔ _
      rw [Prog.evaluate_tryCatch, EndsTerminal]
      rcases (gatedHandler d.ctx).evaluate outage s with ⟨err | u, s'⟩
      · cases err <;> rfl
      · rfl

variable {ctx : JobContext}

theorem endsTerminal_handleJob_of_done (hkind : ctx.envelope.payload.IsDirectorOrTts)
    (hjob : ∀ job ∈ findJob ctx.envelope.jobId s, job.status = .succeeded ∨ job.status = .failed) :
    EndsTerminal ctx.envelope outage (handleJob ctx) s ↔ RowsTerminal ctx.envelope s := by
  -- Every handler reads its job first, and returns or raises at once.
  have hread : ∀ {k : Option ProcessingJob → Worker Unit},
      (EndsTerminal ctx.envelope outage (k (findJob ctx.envelope.jobId s)) s ↔
        RowsTerminal ctx.envelope s) →
      (EndsTerminal ctx.envelope outage (Worker.query (findJob ctx.envelope.jobId) >>= k) s ↔
        RowsTerminal ctx.envelope s) := by
    intro k hk
    rw [EndsTerminal, Worker.query, Prog.evaluate_bind]
    cases hquery : outage .query with
    | some e => rw [Prog.evaluate_read_of_outage hquery]
    | none =>
      rw [Prog.evaluate_read hquery]
      exact hk
  rw [handleJob]
  cases hpayload : ctx.envelope.payload with
  | generateDirectorIr payload =>
    apply hread
    cases hfound : findJob ctx.envelope.jobId s with
    | none => rfl
    | some job => simp only [if_pos (hjob job hfound), endsTerminal_pure]
  | reviseDirectorIr bookId chunkIds directorVersion =>
    apply hread
    cases hfound : findJob ctx.envelope.jobId s with
    | none => rfl
    | some job => simp only [if_pos (hjob job hfound), endsTerminal_pure]
  | generateTtsChunk chunkId ttsJobId =>
    apply hread
    cases hfound : findJob ctx.envelope.jobId s with
    | none => rfl
    | some job => simp only [if_pos (hjob job hfound), endsTerminal_pure]
  | _ =>
    rw [hpayload] at hkind
    exact absurd hkind not_false

theorem evaluate_gate_of_outage {e : WorkerError} (hquery : outage .query = some e) :
    (workerHaltIfCancelled jobId).evaluate outage s = (.error e, s) := by
  rw [workerHaltIfCancelled, Prog.evaluate_bind, Worker.query, Prog.evaluate_read_of_outage hquery]

theorem endsTerminal_gatedHandler_of_gate {b : Bool} {s' : Store}
    (hgate : (workerHaltIfCancelled ctx.envelope.jobId).evaluate outage s = (.ok b, s')) :
    EndsTerminal ctx.envelope outage (gatedHandler ctx) s ↔
      EndsTerminal ctx.envelope outage (if b then pure () else handleJob ctx) s' := by
  rw [EndsTerminal, gatedHandler, Prog.evaluate_bind_of_ok hgate]
  rfl

theorem endsTerminal_gatedHandler_of_seen
    (hgate : (workerHaltIfCancelled ctx.envelope.jobId).evaluate outage s =
      (Worker.run (.haltCancelled ctx.envelope.jobId) >>= fun _ => pure true).evaluate outage s) :
    EndsTerminal ctx.envelope outage (gatedHandler ctx) s ↔
      EndsTerminal ctx.envelope outage (Worker.run (.haltCancelled ctx.envelope.jobId)) s := by
  rw [EndsTerminal, EndsTerminal, gatedHandler, Prog.evaluate_bind, hgate, Prog.evaluate_bind]
  rcases (Worker.run (.haltCancelled ctx.envelope.jobId)).evaluate outage s with ⟨e | u, s'⟩ <;> rfl

theorem ttsJobs_of_halt {s' : Store} (h : Leaves outage (.haltCancelled jobId) s s') :
    s'.ttsJobs = s.ttsJobs :=
  ttsJobs_setJob h.2

theorem endsTerminal_gatedHandler_of_terminal (hkind : ctx.envelope.payload.IsDirectorOrTts)
    (hterminal : RowsTerminal ctx.envelope s) :
    EndsTerminal ctx.envelope outage (gatedHandler ctx) s := by
  cases hquery : outage .query with
  | some e =>
    rw [EndsTerminal, gatedHandler, Prog.evaluate_bind, evaluate_gate_of_outage hquery]
    exact hterminal
  | none =>
    cases hjob : findJob ctx.envelope.jobId s with
    | none =>
      rw [endsTerminal_gatedHandler_of_gate (evaluate_gate_of_none hquery hjob)]
      exact (endsTerminal_handleJob_of_done hkind (by simp [hjob])).mpr hterminal
    | some job =>
      obtain ⟨hcancelled, hseen, hunseen⟩ := evaluate_gate hquery hjob
      by_cases hstatus : job.status = .cancelled
      · rw [endsTerminal_gatedHandler_of_gate (hcancelled hstatus)]
        exact hterminal
      by_cases hstop : CancellationSeen outage job s
      · rw [endsTerminal_gatedHandler_of_seen (hseen hstatus hstop), EndsTerminal, evaluate_run]
        cases houtage : outage (.haltCancelled ctx.envelope.jobId) with
        | some e => exact hterminal
        | none =>
          cases hsession : (WorkerAccess.haltCancelled ctx.envelope.jobId).session s with
          | error e => exact hterminal
          | ok r =>
            obtain ⟨u, s'⟩ := r
            refine ⟨jobSettled_of_settles rfl hsession, ?_⟩
            exact (ttsRowSettled_congr (ttsJobs_setJob hsession)).mpr hterminal.2
      · rw [endsTerminal_gatedHandler_of_gate (hunseen hstatus hstop)]
        refine (endsTerminal_handleJob_of_done hkind ?_).mpr hterminal
        intro job' hjob'
        obtain rfl : job = job' := by simpa [hjob] using hjob'
        have hsettled := hterminal.1 job hjob
        simp only [List.mem_cons, List.not_mem_nil, or_false, hstatus] at hsettled
        exact hsettled

theorem endsTerminal_handleJob (hkind : ctx.envelope.payload.IsDirectorOrTts)
    (hquery : outage .query = none) (hjob : findJob ctx.envelope.jobId s = some job)
    (hstatus : job.status ∉ [.succeeded, .failed, .cancelled]) :
    EndsTerminal ctx.envelope outage (handleJob ctx) s ↔ HandlerRecords outage ctx s := by
  rw [handleJob, HandlerRecords]
  cases hpayload : ctx.envelope.payload with
  | generateDirectorIr payload =>
    refine endsTerminal_handleGenerateDirectorIr (fun s' => ?_) hquery hjob hstatus
    rw [hpayload]
    trivial
  | reviseDirectorIr bookId chunkIds directorVersion =>
    refine endsTerminal_handleReviseDirectorIr (fun s' => ?_) hquery hjob hstatus
    rw [hpayload]
    trivial
  | generateTtsChunk chunkId ttsJobId =>
    exact endsTerminal_handleGenerateTtsChunk hpayload hquery hjob hstatus
  | _ =>
    rw [hpayload] at hkind
    exact absurd hkind not_false

theorem endsTerminal_gatedHandler (hkind : ctx.envelope.payload.IsDirectorOrTts)
    (h : ¬ RowsTerminal ctx.envelope s) :
    EndsTerminal ctx.envelope outage (gatedHandler ctx) s ↔
      outage .query = none ∧ ∃ job, findJob ctx.envelope.jobId s = some job ∧
        job.status ∉ [.succeeded, .failed, .cancelled] ∧
        (CancellationSeen outage job s ∧ TtsRowSettled ctx.envelope.payload s ∧
            Goes outage (.haltCancelled job.id) s ∨
          ¬ CancellationSeen outage job s ∧ HandlerRecords outage ctx s) := by
  cases hquery : outage .query with
  | some e =>
    rw [EndsTerminal, gatedHandler, Prog.evaluate_bind, evaluate_gate_of_outage hquery]
    simpa using h
  | none =>
  rw [eq_self, true_and]
  cases hjob : findJob ctx.envelope.jobId s with
  | none =>
    rw [endsTerminal_gatedHandler_of_gate (evaluate_gate_of_none hquery hjob)]
    have hdone : ∀ job ∈ findJob ctx.envelope.jobId s,
        job.status = .succeeded ∨ job.status = .failed := by simp [hjob]
    simpa [endsTerminal_handleJob_of_done hkind hdone] using h
  | some job =>
  have hid : job.id = ctx.envelope.jobId := by simpa using List.find?_some hjob
  obtain ⟨hcancelled, hseen, hunseen⟩ := evaluate_gate hquery hjob
  simp only [Option.some.injEq, exists_eq_left']
  have hhalt : EndsTerminal ctx.envelope outage (Worker.run (.haltCancelled ctx.envelope.jobId)) s ↔
      TtsRowSettled ctx.envelope.payload s ∧ Goes outage (.haltCancelled job.id) s := by
    rw [endsTerminal_run_settles h rfl, hid, Goes, ← exists_and_left]
    refine exists_congr fun s' => ?_
    rw [and_comm]
    exact and_congr_left fun hleaves => ttsRowSettled_congr (ttsJobs_of_halt hleaves)
  by_cases hstatus : job.status ∈ [.succeeded, .failed, .cancelled]
  · -- The job is settled, so its `tts_job` is not, and nothing here settles that one.
    have hsettled : JobSettled ctx.envelope.jobId s := by
      intro job' hjob'
      obtain rfl : job = job' := by simpa [hjob] using hjob'
      exact hstatus
    have htts : ¬ TtsRowSettled ctx.envelope.payload s := fun htts => h ⟨hsettled, htts⟩
    rw [iff_false_right fun hrhs => hrhs.1 hstatus]
    by_cases hdone : job.status = .cancelled
    · rw [endsTerminal_gatedHandler_of_gate (hcancelled hdone)]
      exact h
    by_cases hstop : CancellationSeen outage job s
    · rw [endsTerminal_gatedHandler_of_seen (hseen hdone hstop), hhalt]
      exact fun hrhs => htts hrhs.1
    · rw [endsTerminal_gatedHandler_of_gate (hunseen hdone hstop)]
      refine fun hend => h ((endsTerminal_handleJob_of_done hkind ?_).mp hend)
      intro job' hjob'
      obtain rfl : job = job' := by simpa [hjob] using hjob'
      simp only [List.mem_cons, List.not_mem_nil, or_false, hdone] at hstatus
      exact hstatus
  · rw [and_iff_right hstatus]
    have hdone : job.status ≠ .cancelled := fun hdone => hstatus (by simp [hdone])
    by_cases hstop : CancellationSeen outage job s
    · rw [endsTerminal_gatedHandler_of_seen (hseen hdone hstop), hhalt]
      simp [hstop]
    · rw [endsTerminal_gatedHandler_of_gate (hunseen hdone hstop)]
      simpa [hstop] using endsTerminal_handleJob hkind hquery hjob hstatus

end delivery

/-- A delivery of a message of the Director or the synthesis, and so the last one too, leaves the
rows of the message terminal exactly when they were so before or the delivery is recorded. -/
theorem rowsTerminal_iff_recorded (outage : WorkerAccess → Option WorkerError) (d : WorkerDelivery)
    (s : Store) (hkind : d.ctx.envelope.payload.IsDirectorOrTts) :
    RowsTerminal d.ctx.envelope ((process d).evaluate outage s).2 ↔ Recorded outage d s := by
  refine (endsTerminal_process (d := d)).trans ?_
  rw [Recorded]
  by_cases h : RowsTerminal d.ctx.envelope s
  · rw [iff_true_right (.inl h)]
    split
    · exact endsTerminal_gatedHandler_of_terminal hkind h
    · exact h
  · rw [or_iff_right h]
    split
    · next hopen =>
      rw [endsTerminal_gatedHandler hkind h, and_iff_right hopen.1, and_iff_right hopen.2]
    · next hclosed =>
      rw [iff_false_left h]
      exact fun hrhs => hclosed ⟨hrhs.1, hrhs.2.1⟩

/-- Nothing is refused: the first chapter of a small book is directed and recorded. -/
theorem recorded_uneventful :
    Recorded (fun _ => none) (plainDelivery directedBookMessage 1) directedBook :=
  (rowsTerminal_iff_recorded (fun _ => none) (plainDelivery directedBookMessage 1) directedBook
    trivial).mp (by decide +kernel)

/-- The model raises a `TerminalJobError`, and everything else is answered. -/
def modelRefuses : WorkerAccess → Option WorkerError
  | .callModel => some (.terminal .directorModelFailed)
  | _ => none

/-- The model raises a `TerminalJobError` on the first of three attempts: the queue does not
deliver the message again, and its job stays `RUNNING`. -/
theorem not_forall_rowsTerminal :
    ¬ ∀ (outage : WorkerAccess → Option WorkerError) (d : WorkerDelivery) (s : Store),
        d.ctx.envelope.payload.IsDirectorOrTts → d.IsLast ((process d).evaluate outage s).1 →
        RowsTerminal d.ctx.envelope ((process d).evaluate outage s).2 := by
  intro hclaim
  have hend : ((process (plainDelivery directedBookMessage 1)).evaluate modelRefuses
      directedBook).1 = .error .unrecoverable := by decide +kernel
  have hlast : (plainDelivery directedBookMessage 1).IsLast
      ((process (plainDelivery directedBookMessage 1)).evaluate modelRefuses directedBook).1 := by
    rw [hend]
    exact .inl rfl
  have hopen : ¬ RowsTerminal directedBookMessage
      ((process (plainDelivery directedBookMessage 1)).evaluate modelRefuses directedBook).2 := by
    decide +kernel
  exact hopen (hclaim modelRefuses (plainDelivery directedBookMessage 1) directedBook trivial hlast)

end AudioBook
