import AudioBook.Pipeline.Steps
import AudioBook.Schema.Constraints
import AudioBook.Workers.TerminalRows

/-!
# What the Pipeline Does to Jobs

What one access of the pipeline does to the jobs, the queue and the books: which jobs it creates,
which ones it leaves running, which messages it puts on the queue, and which books it deletes or
restores. Nothing else makes a job active, and nothing changes what a job is.

- `PipelineAccess.footprint`: all of this, for each access.
- `Changes`: the changes that a footprint stands for.
- `changes_effect`: the effect of an access is a change of its footprint.
- `ended_effect`: an access that creates the next job of a chain ends the job before it.
-/

namespace AudioBook.Pipeline

open Relational Concurrent

/-! ## Changes -/

/-- What may become of a job: it stays the same job, and is active only if it was, or if it is
marked as running. -/
structure RowStep (runs : List Id) (job job' : ProcessingJob) : Prop where
  id : job'.id = job.id
  type : job'.type = job.type
  bookId : job'.bookId = job.bookId
  parentJobId : job'.parentJobId = job.parentJobId
  active : job'.status.IsActive → job.status.IsActive ∨ job.id ∈ runs

theorem RowStep.refl (runs : List Id) (job : ProcessingJob) : RowStep runs job job :=
  ⟨rfl, rfl, rfl, rfl, .inl⟩

theorem RowStep.trans {runs : List Id} {a b c : ProcessingJob} (hab : RowStep runs a b)
    (hbc : RowStep runs b c) : RowStep runs a c := by
  refine ⟨hbc.id.trans hab.id, hbc.type.trans hab.type, hbc.bookId.trans hab.bookId,
    hbc.parentJobId.trans hab.parentJobId, fun hactive => ?_⟩
  rcases hbc.active hactive with hb | hb
  · exact hab.active hb
  · exact .inr (hab.id ▸ hb)

theorem RowStep.of_terminal {runs : List Id} {job job' : ProcessingJob} (status : JobStatus)
    (hid : job'.id = job.id) (htype : job'.type = job.type) (hbook : job'.bookId = job.bookId)
    (hparent : job'.parentJobId = job.parentJobId) (hstatus : job'.status = status)
    (hterminal : ¬ status.IsActive) : RowStep runs job job' :=
  ⟨hid, htype, hbook, hparent, fun hactive => absurd (hstatus ▸ hactive) hterminal⟩

/-- What an access does to jobs, to the queue and to `deleted_at`. -/
structure Footprint where
  creates : List ProcessingJob := []
  runs : List Id := []
  sends : List Envelope := []
  sets : List (Id × Bool) := []

def deletion (book : Book) : Id × Bool := (book.id, book.deletedAt)

structure Changes (e : Footprint) (s s' : Store) : Prop where
  jobs : ∀ job' ∈ s'.processingJobs, ∃ job ∈ s.processingJobs ++ e.creates, RowStep e.runs job job'
  ids : (s.processingJobs.map ProcessingJob.id).Nodup →
    (s'.processingJobs.map ProcessingJob.id).Nodup
  queue : ∀ m ∈ s'.queue, m ∈ s.queue ++ e.sends
  books : ∀ book ∈ s'.books, deletion book ∈ s.books.map deletion ++ e.sets

instance (e : Footprint) : IsPreorder Store (Changes e) where
  refl s := ⟨fun job hjob => ⟨job, List.mem_append_left _ hjob, .refl e.runs job⟩, id,
    fun m hm => List.mem_append_left _ hm,
    fun book hbook => List.mem_append_left _ (List.mem_map_of_mem hbook)⟩
  trans s₁ s₂ s₃ h₁ h₂ := by
    refine ⟨fun job'' hjob'' => ?_, fun h => h₂.ids (h₁.ids h), fun m hm => ?_,
      fun book hbook => ?_⟩
    · obtain ⟨job', hjob', hstep⟩ := h₂.jobs job'' hjob''
      rcases List.mem_append.mp hjob' with hjob' | hcreated
      · obtain ⟨job, hjob, hstep₁⟩ := h₁.jobs job' hjob'
        exact ⟨job, hjob, hstep₁.trans hstep⟩
      · exact ⟨job', List.mem_append_right _ hcreated, hstep⟩
    · rcases List.mem_append.mp (h₂.queue m hm) with hm | hm
      · exact h₁.queue m hm
      · exact List.mem_append_right _ hm
    · rcases List.mem_append.mp (h₂.books book hbook) with hbook | hbook
      · obtain ⟨book₂, hbook₂, heq⟩ := List.mem_map.mp hbook
        rw [← heq]
        exact h₁.books book₂ hbook₂
      · exact List.mem_append_right _ hbook

section within

variable {e : Footprint} {ε : Type} [OfViolation ε]

theorem Changes.of_eq {s s' : Store} (hjobs : s'.processingJobs = s.processingJobs)
    (hqueue : s'.queue = s.queue) (hbooks : s'.books = s.books) : Changes e s s' := by
  refine ⟨fun job hjob => ?_, fun h => ?_, fun m hm => ?_, fun book hbook => ?_⟩
  · rw [hjobs] at hjob
    exact ⟨job, List.mem_append_left _ hjob, .refl e.runs job⟩
  · rw [hjobs]
    exact h
  · rw [hqueue] at hm
    exact List.mem_append_left _ hm
  · rw [hbooks] at hbook
    exact List.mem_append_left _ (List.mem_map_of_mem hbook)

variable {f : ProcessingJob → ProcessingJob}

theorem changes_updateWhere {p : ProcessingJob → Bool}
    (h : ∀ job, p job = true → RowStep e.runs job (f job)) (s : Store) :
    Changes e s { s with processingJobs := updateWhere p f s.processingJobs } := by
  refine ⟨fun job' hjob' => ?_, fun hids => ?_, fun m hm => List.mem_append_left _ hm,
    fun book hbook => List.mem_append_left _ (List.mem_map_of_mem hbook)⟩
  · rcases mem_updateWhere.mp hjob' with ⟨job, hjob, hp, rfl⟩ | ⟨hjob, -⟩
    · exact ⟨job, List.mem_append_left _ hjob, h job hp⟩
    · exact ⟨job', List.mem_append_left _ hjob, .refl e.runs job'⟩
  · have hsame : (updateWhere p f s.processingJobs).map ProcessingJob.id =
        s.processingJobs.map ProcessingJob.id := by
      rw [updateWhere, List.map_map]
      refine List.map_congr_left fun job _ => ?_
      by_cases hp : p job = true
      · simp [hp, (h job hp).id]
      · simp [hp]
    exact hsame.symm ▸ hids

theorem changes_update {p : ProcessingJob → Bool}
    (h : ∀ job, p job = true → RowStep e.runs job (f job)) :
    (Db.processingJob.update p f : Transaction Store ε Unit).Within (Changes e) :=
  Table.within_update _ fun s _ => changes_updateWhere h s

theorem changes_insert {job : ProcessingJob} (h : job ∈ e.creates) :
    (Db.processingJob.insert job : Transaction Store ε Unit).Within (Changes e) := by
  refine Table.within_insert _ fun s hacc => ⟨fun job' hjob' => ?_,
    fun _ => (Db.processingJob_accepts_iff.mp hacc).id, fun m hm => List.mem_append_left _ hm,
    fun book hbook => List.mem_append_left _ (List.mem_map_of_mem hbook)⟩
  rcases List.mem_append.mp hjob' with hjob' | hjob'
  · exact ⟨job', List.mem_append_left _ hjob', .refl e.runs job'⟩
  · rw [List.mem_singleton.mp hjob']
    exact ⟨job, List.mem_append_right _ h, .refl e.runs job⟩

theorem changes_updateJob {jobId : Id} (h : ∀ job, job.id = jobId → RowStep e.runs job (f job)) :
    (updateJob jobId f).Within (Changes e) :=
  updateJob_within fun s => changes_updateWhere (fun job hp => h job (of_decide_eq_true hp)) s

theorem changes_updateBook {p : Book → Bool} {f : Book → Book}
    (h : ∀ book, deletion (f book) = deletion book) :
    (Db.book.update p f : Transaction Store ε Unit).Within (Changes e) := by
  refine Table.within_update _ fun s _ => ⟨fun job hjob =>
    ⟨job, List.mem_append_left _ hjob, .refl e.runs job⟩, id, fun m hm => List.mem_append_left _ hm,
    fun book hbook => List.mem_append_left _ ?_⟩
  have hsame : (updateWhere p f s.books).map deletion = s.books.map deletion :=
    map_updateWhere deletion h s.books
  rw [← hsame]
  exact List.mem_map_of_mem hbook

end within

/-! ## Accesses -/

def PipelineAccess.footprint : PipelineAccess → Footprint
  | api (.createJobs jobs) => { creates := jobs }
  | api (.createTtsJobs coordinator jobs) => { creates := coordinator :: jobs.map Prod.fst }
  | api (.markRunning jobId _) => { runs := [jobId] }
  | api (.enqueue envelope) => { sends := [envelope] }
  | worker (.enqueue envelope) => { sends := [envelope] }
  | worker (.begin jobId) => { runs := [jobId] }
  | worker (.beginChapter jobId _) => { runs := [jobId] }
  | worker (.beginSynthesis jobId _ _) => { runs := [jobId] }
  | worker a => { creates := a.child?.toList }
  | softDelete bookId => { sets := [(bookId, true)] }
  | restore bookId => { sets := [(bookId, false)] }
  | _ => {}

section accesses

variable {e : Footprint}

theorem changes_createSyntheses {jobs : List (ProcessingJob × TtsJob)}
    (h : ∀ p ∈ jobs, p.1 ∈ e.creates) :
    (createSyntheses jobs).Within (Changes e) := by
  induction jobs with
  | nil => exact Transaction.within_pure ()
  | cons p jobs ih =>
      refine Transaction.within_bind (changes_insert (h p List.mem_cons_self)) fun _ => ?_
      refine Transaction.within_bind (Table.within_insert _ fun s _ => .of_eq rfl rfl rfl) fun _ => ?_
      exact ih fun q hq => h q (List.mem_cons_of_mem _ hq)

theorem changes_createJobs {jobs : List ProcessingJob} (h : ∀ job ∈ jobs, job ∈ e.creates) :
    (createJobs jobs).Within (Changes e) := by
  induction jobs with
  | nil => exact Transaction.within_pure ()
  | cons job jobs ih =>
      refine Transaction.within_bind (changes_insert (h job List.mem_cons_self)) fun _ => ?_
      exact ih fun q hq => h q (List.mem_cons_of_mem _ hq)

theorem changes_send {envelope : Envelope} (h : envelope ∈ e.sends) (s : Store) :
    Changes e s
      (if s.queue.any fun m => decide (m.jobId = envelope.jobId) then s
        else { s with queue := s.queue ++ [envelope] }) := by
  split
  · exact refl_of (Changes e) s
  · refine ⟨fun job hjob => ⟨job, List.mem_append_left _ hjob, .refl e.runs job⟩, id, fun m hm => ?_,
      fun book hbook => List.mem_append_left _ (List.mem_map_of_mem hbook)⟩
    rcases List.mem_append.mp hm with hm | hm
    · exact List.mem_append_left _ hm
    · rw [List.mem_singleton.mp hm]
      exact List.mem_append_right _ h

theorem changes_setJob {jobId : Id} {f : ProcessingJob → ProcessingJob}
    (h : ∀ job, job.id = jobId → RowStep e.runs job (f job)) :
    (setJob jobId f).Within (Changes e) :=
  changes_update fun job hp => h job (of_decide_eq_true hp)

theorem changes_markJobRunning {jobId : Id} (h : jobId ∈ e.runs) :
    (markJobRunning jobId).Within (Changes e) :=
  changes_setJob fun _ hid => ⟨rfl, rfl, rfl, rfl, fun _ => .inr (hid ▸ h)⟩

theorem changes_markJobSucceeded (jobId : Id) :
    (markJobSucceeded jobId).Within (Changes e) :=
  changes_setJob fun _ _ => .of_terminal .succeeded rfl rfl rfl rfl rfl (by decide)

theorem changes_markJobFailed (jobId : Id) (errorCode : ErrorCode) :
    (markJobFailed jobId errorCode).Within (Changes e) :=
  changes_setJob fun _ _ => .of_terminal .failed rfl rfl rfl rfl rfl (by decide)

theorem changes_finalizeRootJob (rootJobId : Id) :
    (finalizeRootJob rootJobId).Within (Changes e) :=
  changes_update fun _ _ => .of_terminal .succeeded rfl rfl rfl rfl rfl (by decide)

theorem changes_finalizeAudioScript (audioScriptId bookId : Id) (coverage : CoverageResult) :
    (finalizeAudioScript audioScriptId bookId coverage).Within (Changes e) := by
  refine Transaction.within_bind (Table.within_update _ fun s _ => .of_eq rfl rfl rfl) fun _ => ?_
  refine Transaction.within_bind (Table.within_update _ fun s _ => .of_eq rfl rfl rfl) fun _ => ?_
  exact changes_updateBook fun _ => rfl

theorem changes_tx (a : Access) : a.tx.Within (Changes (PipelineAccess.api a).footprint) := by
  cases a with
  | query => exact Transaction.within_pure ()
  | requestedFormats audiobookId => exact Transaction.within_pure ()
  | readCancellationFlag jobId => exact Transaction.within_pure ()
  | external => exact Transaction.within_pure ()
  | freshId =>
    rintro s _ s' h
    cases h
    exact .of_eq rfl rfl rfl
  | enqueue envelope =>
    exact Transaction.within_modify (changes_send (List.mem_singleton_self _))
  | markQueued jobId =>
    exact changes_updateJob fun _ _ => ⟨rfl, rfl, rfl, rfl, .inl⟩
  | removeQueuedJob jobId =>
    refine Transaction.within_modify fun s => ⟨fun job hjob =>
      ⟨job, List.mem_append_left _ hjob, .refl _ job⟩, id, fun m hm => ?_,
      fun book hbook => List.mem_append_left _ (List.mem_map_of_mem hbook)⟩
    exact List.mem_append_left _ (List.mem_filter.mp hm).1
  | setCancellationFlag jobId => exact Transaction.within_modify fun s => .of_eq rfl rfl rfl
  | createJobs jobs => exact changes_createJobs fun _ hjob => hjob
  | createTtsJobs coordinator jobs =>
    refine Transaction.within_bind (changes_insert List.mem_cons_self) fun _ => ?_
    exact changes_createSyntheses fun p hp => List.mem_cons_of_mem _ (List.mem_map_of_mem hp)
  | cancelJobs jobs =>
    refine cancelJobs_within fun p _ => changes_updateJob fun job _ => ?_
    unfold cancellationPatch
    split
    · exact .of_terminal .cancelled rfl rfl rfl rfl rfl (by decide)
    · exact ⟨rfl, rfl, rfl, rfl, .inl⟩
  | halt jobId seen =>
    exact changes_updateJob fun _ _ => .of_terminal .cancelled rfl rfl rfl rfl rfl (by decide)
  | markRunning jobId seen =>
    exact changes_updateJob fun _ hid =>
      ⟨rfl, rfl, rfl, rfl, fun _ => .inr (hid ▸ List.mem_singleton_self _)⟩
  | markSucceeded jobId seen =>
    exact changes_updateJob fun _ _ => .of_terminal .succeeded rfl rfl rfl rfl rfl (by decide)
  | markFailed jobId seen errorCode =>
    exact changes_updateJob fun _ _ => .of_terminal .failed rfl rfl rfl rfl rfl (by decide)
  | persistChapterAudio jobId chapterAudio =>
    refine Transaction.within_bind (Table.within_update _ fun s _ => .of_eq rfl rfl rfl) fun _ => ?_
    refine Transaction.within_bind (Table.within_insert _ fun s _ => .of_eq rfl rfl rfl) fun _ => ?_
    exact changes_updateJob fun _ _ => .of_terminal .succeeded rfl rfl rfl rfl rfl (by decide)
  | persistAudiobook jobId audiobook =>
    refine Transaction.within_bind (Table.within_update _ fun s _ => .of_eq rfl rfl rfl) fun _ => ?_
    refine Transaction.within_bind (Table.within_insert _ fun s _ => .of_eq rfl rfl rfl) fun _ => ?_
    exact changes_updateJob fun _ _ => .of_terminal .succeeded rfl rfl rfl rfl rfl (by decide)
  | updateRendition renditionId rendition =>
    exact Table.within_update _ fun s _ => .of_eq rfl rfl rfl
  | createRendition rendition => exact Table.within_insert _ fun s _ => .of_eq rfl rfl rfl
  | failEncode jobId seen errorCode audiobookId format existing newId failAudiobook =>
    refine Transaction.within_bind (changes_updateJob fun _ _ =>
      .of_terminal .failed rfl rfl rfl rfl rfl (by decide)) fun _ => ?_
    refine Transaction.within_bind ?_ fun _ => ?_
    · unfold failRendition
      split
      · exact Table.within_update _ fun s _ => .of_eq rfl rfl rfl
      · exact Table.within_insert _ fun s _ => .of_eq rfl rfl rfl
    · split
      · exact Table.within_update _ fun s _ => .of_eq rfl rfl rfl
      · exact Transaction.within_pure ()
  | publish audiobookId bookId =>
    refine Transaction.within_bind (Table.within_update _ fun s _ => .of_eq rfl rfl rfl) fun _ => ?_
    exact changes_updateBook fun _ => rfl
  | insertChunks chunks => exact insertChunks_within (fun s rows => .of_eq rfl rfl rfl) _
  | insertAudioChunk new =>
    exact Transaction.within_bind (insertAudioChunk_within (fun s rows => .of_eq rfl rfl rfl)
      (fun s rows => .of_eq rfl rfl rfl) (fun s rows => .of_eq rfl rfl rfl) new) fun _ =>
        Transaction.within_pure ()

/-! ## The Workers' Sessions -/

/-- The job is over. -/
def Ended (jobId : Id) (s : Store) : Prop :=
  ∀ job ∈ s.processingJobs, job.id = jobId → ¬ job.status.IsActive

theorem ended_markJobSucceeded {jobId : Id} {s s' : Store} {u : Unit}
    (h : markJobSucceeded jobId s = .ok (u, s')) : Ended jobId s' := by
  obtain ⟨-, rfl⟩ := setJob_eq_ok_iff.mp h
  intro job hjob hid
  rcases mem_updateWhere.mp hjob with ⟨job₀, -, -, rfl⟩ | ⟨-, hother⟩
  · show ¬ JobStatus.succeeded.IsActive
    decide
  · exact absurd hid (of_decide_eq_false hother)

theorem Ended.of_changes {jobId : Id} {s s' : Store} (h : Ended jobId s)
    (hchange : Changes {} s s') : Ended jobId s' := by
  intro job' hjob' hid hactive
  obtain ⟨job, hjob, hstep⟩ := hchange.jobs job' hjob'
  rw [List.append_nil] at hjob
  rcases hstep.active hactive with hbefore | hruns
  · exact h job hjob (hstep.id ▸ hid) hbefore
  · exact absurd hruns List.not_mem_nil

theorem Changes.of_ended {jobId : Id} {s s' : Store} (hchange : Changes { e with runs := [jobId] } s s')
    (h : Ended jobId s') : Changes e s s' := by
  refine ⟨fun job' hjob' => ?_, hchange.ids, hchange.queue, hchange.books⟩
  obtain ⟨job, hjob, hstep⟩ := hchange.jobs job' hjob'
  refine ⟨job, hjob, hstep.id, hstep.type, hstep.bookId, hstep.parentJobId, fun hactive => ?_⟩
  rcases hstep.active hactive with hbefore | hruns
  · exact .inl hbefore
  · exact absurd hactive (h job' hjob' (hstep.id.trans (List.mem_singleton.mp hruns)))

theorem changes_sessionInsertChunks (chunks : List BuiltChunk) :
    (liftM (AudioBook.insertChunks chunks) : Session Unit).Within (Changes e) :=
  Session.of_within (insertChunks_within (fun _ _ => .of_eq rfl rfl rfl) chunks)

theorem changes_reviseChunks (revisions : List Revision) :
    (reviseChunks revisions).Within (Changes e) := by
  have hinsert (chunks : List BuiltChunk) : (AudioBook.insertChunks chunks).Within (Changes e) :=
    insertChunks_within (fun _ _ => .of_eq rfl rfl rfl) chunks
  induction revisions with
  | nil => exact Transaction.within_pure ()
  | cons revision revisions ih =>
    refine Transaction.within_bind (Session.of_within ?_) fun _ => ih
    unfold reviseChunk
    split
    · exact Transaction.within_bind (hinsert _) fun _ =>
        Table.within_update _ fun s _ => .of_eq rfl rfl rfl
    · exact Table.within_update _ fun s _ => .of_eq rfl rfl rfl

theorem changes_finalizeRun (bookId jobId rootJobId audioScriptId : Id) (allChapterIds : List Id) :
    (finalizeRun bookId jobId rootJobId audioScriptId allChapterIds).Within (Changes e) := by
  rintro s ⟨⟩ s' h
  obtain ⟨-, -, s₁, s₂, hscript, hsucceed, hroot⟩ := finalizeRun_eq_ok_iff.mp h
  refine trans_of (Changes e) (changes_finalizeAudioScript _ _ _ s _ s₁ hscript) ?_
  exact trans_of (Changes e) (changes_markJobSucceeded _ s₁ _ s₂ hsucceed)
    (changes_finalizeRootJob _ s₂ _ s' hroot)

theorem changes_createChildJob {child : ProcessingJob} (h : child ∈ e.creates) :
    (createChildJob child).Within (Changes e) :=
  changes_insert h

theorem changes_createChildJob_markJobSucceeded {jobId : Id} {child : ProcessingJob}
    (h : child ∈ e.creates) : (do
      createChildJob child
      markJobSucceeded jobId : Session Unit).Within (Changes e) :=
  Transaction.within_bind (changes_createChildJob h) fun _ => changes_markJobSucceeded jobId

theorem changes_createDraftAudioScript (audioScriptId bookId bookVersionId : Id)
    (directorVersion : ℕ) (jobId : Id) (supersedesAudioScriptId : Option Id) :
    (createDraftAudioScript audioScriptId bookId bookVersionId directorVersion jobId
      supersedesAudioScriptId).Within (Changes e) :=
  Transaction.within_bind Transaction.within_get fun _ =>
    Table.within_insert _ fun _ _ => .of_eq rfl rfl rfl

/-- The job that an access ends when it creates the next one. -/
def parent? : WorkerAccess → Option Id
  | .persistChapter jobId _ (.chain _) => some jobId
  | .persistAnalysis jobId _ => some jobId
  | .integrateDelta jobId (.chain _) => some jobId
  | _ => none

theorem ended_of_bind {α : Type} {jobId : Id} {t : Session α} {s s' : Store} {u : Unit}
    (h : (do
      let _ ← t
      markJobSucceeded jobId : Session Unit) s = .ok (u, s')) : Ended jobId s' := by
  obtain ⟨-, s₁, -, hsucceed⟩ := Transaction.bind_eq_ok_iff.mp h
  exact ended_markJobSucceeded hsucceed

theorem ended_integrateDelta {jobId : Id} {ending : DeltaEnd} {s s' : Store} {u : Unit}
    (h : AudioBook.integrateDelta jobId ending s = .ok (u, s')) : Ended jobId s' := by
  obtain ⟨-, s₁, -, h⟩ := Transaction.bind_eq_ok_iff.mp h
  cases ending with
  | chain child => exact ended_of_bind h
  | finalize rootJobId =>
    obtain ⟨_, s₂, hsucceed, hroot⟩ := Transaction.bind_eq_ok_iff.mp h
    exact (ended_markJobSucceeded hsucceed).of_changes (changes_finalizeRootJob _ s₂ _ s' hroot)

theorem ended_of_child {a : WorkerAccess} {jobId : Id} {s s' : Store}
    (ha : parent? a = some jobId) (h : a.session s = .ok ((), s')) : Ended jobId s' := by
  cases a with
  | persistChapter i chunks ending =>
    cases ending with
    | chain child =>
      cases ha
      obtain ⟨-, s₁, -, h⟩ := Transaction.bind_eq_ok_iff.mp h
      exact ended_of_bind h
    | finalize => cases ha
  | persistAnalysis i child =>
    cases ha
    exact ended_of_bind h
  | integrateDelta i ending =>
    cases ending with
    | chain child =>
      cases ha
      have h : AudioBook.integrateDelta jobId (.chain child) s = .ok ((), s') := h
      exact ended_integrateDelta h
    | finalize => cases ha
  | _ => cases ha

theorem changes_session (a : WorkerAccess) :
    a.session.Within (Changes (PipelineAccess.worker a).footprint) := by
  cases a with
  | query => exact Transaction.within_pure ()
  | readCancellationFlag jobId => exact Transaction.within_pure ()
  | newIds n => exact Transaction.within_modify fun s => .of_eq rfl rfl rfl
  | callModel => exact Transaction.within_pure ()
  | synthesize => exact Transaction.within_pure ()
  | upload => exact Transaction.within_pure ()
  | enqueue envelope => exact Transaction.within_modify (changes_send (List.mem_singleton_self _))
  | haltCancelled jobId =>
    exact changes_setJob fun _ _ => .of_terminal .cancelled rfl rfl rfl rfl rfl (by decide)
  | begin jobId => exact changes_markJobRunning (List.mem_singleton_self _)
  | succeed jobId => exact changes_markJobSucceeded jobId
  | skip jobId =>
    rintro s ⟨⟩ s' h
    have hends : Ended jobId s' := ended_of_bind h
    refine Changes.of_ended ?_ hends
    exact Transaction.within_bind (changes_markJobRunning (List.mem_singleton_self _))
      (fun _ => changes_markJobSucceeded jobId) s () s' h
  | fail jobId errorCode => exact changes_markJobFailed jobId errorCode
  | beginChapter jobId script =>
    refine Transaction.within_bind (changes_markJobRunning (List.mem_singleton_self _)) fun _ => ?_
    cases script with
    | none => exact Transaction.within_pure ()
    | some new =>
      refine Transaction.within_bind Transaction.within_get fun _ => ?_
      exact Session.of_within (changes_createDraftAudioScript _ _ _ _ _ _)
  | persistChapter jobId chunks ending =>
    refine Transaction.within_bind (changes_sessionInsertChunks chunks) fun _ => ?_
    cases ending with
    | chain child => exact changes_createChildJob_markJobSucceeded (List.mem_singleton_self _)
    | finalize => exact changes_finalizeRun _ _ _ _ _
  | persistAnalysis jobId child =>
    exact changes_createChildJob_markJobSucceeded (List.mem_singleton_self _)
  | integrateDelta jobId ending =>
    rintro s ⟨⟩ s' h
    refine Changes.of_ended ?_ (ended_integrateDelta h)
    refine Transaction.within_bind (changes_markJobRunning (List.mem_singleton_self _))
      (fun _ => ?_) s () s' h
    cases ending with
    | chain child => exact changes_createChildJob_markJobSucceeded (List.mem_singleton_self _)
    | finalize rootJobId =>
      exact Transaction.within_bind (changes_markJobSucceeded _) fun _ => changes_finalizeRootJob _
  | persistRevision jobId revisions =>
    exact Transaction.within_bind (changes_reviseChunks revisions) fun _ =>
      changes_markJobSucceeded jobId
  | abandonRevision jobId err =>
    exact Transaction.within_bind (changes_markJobFailed _ _) fun _ => Transaction.within_throw err
  | beginSynthesis jobId ttsJobId audioScriptChunkId =>
    refine Transaction.within_bind (changes_markJobRunning (List.mem_singleton_self _)) fun _ => ?_
    refine Session.of_within (t := beginTtsJob ttsJobId audioScriptChunkId) ?_
    refine Transaction.within_bind ?_ fun _ => ?_
    · exact Table.within_update _ fun s _ => .of_eq rfl rfl rfl
    · exact Table.within_update _ fun s _ => .of_eq rfl rfl rfl
  | failSynthesis jobId ttsJobId code =>
    refine Transaction.within_bind (Session.of_within ?_) fun _ => changes_markJobFailed _ _
    exact Table.within_update _ fun s _ => .of_eq rfl rfl rfl
  | persistAudio jobId new =>
    refine Transaction.within_bind (Session.of_within ?_) fun _ => changes_markJobSucceeded _
    exact insertAudioChunk_within (fun s rows => .of_eq rfl rfl rfl)
      (fun s rows => .of_eq rfl rfl rfl) (fun s rows => .of_eq rfl rfl rfl) new

end accesses

/-! ## The Effect of an Access -/

theorem changes_commit {α ε : Type} {e : Footprint} {t : Transaction Store ε α}
    (h : t.Within (Changes e)) (s : Store) : Changes e s (Prog.commit t s) := by
  cases ht : t s with
  | ok p =>
    rw [Prog.commit_of_ok ht]
    exact h s p.1 p.2 ht
  | error err =>
    rw [Prog.commit_of_error ht]
    exact refl_of (Changes e) s

theorem changes_setDeletedAt {e : Footprint} {bookId : Id} {deletedAt : Bool}
    (h : (bookId, deletedAt) ∈ e.sets) : (setDeletedAt bookId deletedAt).Within (Changes e) := by
  refine Table.within_update _ fun s _ => ⟨fun job hjob =>
    ⟨job, List.mem_append_left _ hjob, .refl e.runs job⟩, id, fun m hm => List.mem_append_left _ hm,
    fun book hbook => ?_⟩
  rcases mem_updateWhere.mp hbook with ⟨book₀, -, hid, rfl⟩ | ⟨hbook, -⟩
  · have hid : book₀.id = bookId := of_decide_eq_true hid
    exact List.mem_append_right _ (by rw [deletion, hid]; exact h)
  · exact List.mem_append_left _ (List.mem_map_of_mem hbook)

theorem changes_effect (a : PipelineAccess) (s : Store) : Changes a.footprint s (a.effect s) := by
  cases a with
  | api a => exact changes_commit (changes_tx a) s
  | worker a => exact changes_commit (changes_session a) s
  | softDelete bookId => exact changes_commit (changes_setDeletedAt (List.mem_singleton_self _)) s
  | restore bookId => exact changes_commit (changes_setDeletedAt (List.mem_singleton_self _)) s

/-- What holds of the footprint of every access: one that creates jobs does nothing else, one job is
left running at most, and no access both runs a job and deletes a book. -/
structure Footprint.Simple (e : Footprint) : Prop where
  creates : ∀ job ∈ e.creates, e.runs = [] ∧ e.sends = [] ∧ e.sets = []
  runs : ∀ i ∈ e.runs, ∀ j ∈ e.runs, i = j
  sets : ∀ set ∈ e.sets, e.runs = []

theorem simple_footprint (a : PipelineAccess) : a.footprint.Simple := by
  have hcreates (jobs : List ProcessingJob) : ({ creates := jobs } : Footprint).Simple :=
    ⟨fun _ _ => ⟨rfl, rfl, rfl⟩, fun _ h => absurd h List.not_mem_nil, fun _ _ => rfl⟩
  have hruns (jobId : Id) : ({ runs := [jobId] } : Footprint).Simple := by
    refine ⟨fun _ h => absurd h List.not_mem_nil, fun i hi j hj => ?_,
      fun _ h => absurd h List.not_mem_nil⟩
    rw [List.mem_singleton.mp hi, List.mem_singleton.mp hj]
  have hrest (sends : List Envelope) (sets : List (Id × Bool)) :
      ({ sends := sends, sets := sets } : Footprint).Simple :=
    ⟨fun _ h => absurd h List.not_mem_nil, fun _ h => absurd h List.not_mem_nil, fun _ _ => rfl⟩
  cases a with
  | api a =>
    cases a with
    | createJobs jobs => exact hcreates jobs
    | createTtsJobs coordinator jobs => exact hcreates _
    | markRunning jobId seen => exact hruns jobId
    | enqueue envelope => exact hrest [envelope] []
    | _ => exact hrest [] []
  | worker a =>
    cases a with
    | begin jobId => exact hruns jobId
    | beginChapter jobId script => exact hruns jobId
    | beginSynthesis jobId ttsJobId chunkId => exact hruns jobId
    | enqueue envelope => exact hrest [envelope] []
    | _ => exact hcreates _
  | softDelete bookId => exact hrest [] [(bookId, true)]
  | restore bookId => exact hrest [] [(bookId, false)]

/-- The job that an access ends as it creates the next one. -/
def PipelineAccess.parent? : PipelineAccess → Option Id
  | worker a => Pipeline.parent? a
  | _ => none

theorem ended_effect {a : PipelineAccess} {jobId : Id} (ha : a.parent? = some jobId) (s : Store) :
    a.effect s = s ∨ Ended jobId (a.effect s) := by
  cases a with
  | worker a =>
    cases ht : a.session s with
    | ok p => exact .inr (by
        show Ended jobId (Prog.commit a.session s)
        rw [Prog.commit_of_ok ht]
        exact ended_of_child ha ht)
    | error err => exact .inl (Prog.commit_of_error ht)
  | _ => cases ha

end AudioBook.Pipeline
