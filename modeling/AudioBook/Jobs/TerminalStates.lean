import AudioBook.Assembly.Steps

/-!
# Terminal Job States

Whether a job that succeeded, failed or was cancelled keeps that status. Every service checks the
status of a job before it writes a new one, but the check and the write are separate accesses,
and some checks let a terminal status through.

Main results:

- `final_absorbing`: in every run whose accesses are undisturbed, a final status stays.
-/

namespace AudioBook

open Relational Concurrent

/-- The statuses that a job must not leave. -/
def JobStatus.IsFinal (status : JobStatus) : Prop :=
  status ∈ [.succeeded, .failed, .cancelled]

instance (status : JobStatus) : Decidable status.IsFinal :=
  inferInstanceAs (Decidable (_ ∈ _))

theorem JobStatus.IsFinal.isTerminal {status : JobStatus} (h : status.IsFinal) :
    status.IsTerminal := by
  revert h
  cases status <;> decide

structure StatusWrite where
  jobId : Id
  /-- The status that the writer last saw, by its own check or its own write. -/
  seen : JobStatus
  new : JobStatus

namespace Access

def statusWrites : Access → List StatusWrite
  | cancelJobs jobs =>
      (jobs.filter fun p => decide p.2.IsImmediatelyCancellable).map fun p =>
        ⟨p.1, p.2, .cancelled⟩
  | halt jobId seen => [⟨jobId, seen, .cancelled⟩]
  | markRunning jobId seen => [⟨jobId, seen, .running⟩]
  | markSucceeded jobId seen => [⟨jobId, seen, .succeeded⟩]
  | markFailed jobId seen _ => [⟨jobId, seen, .failed⟩]
  | persistChapterAudio jobId _ => [⟨jobId, .running, .succeeded⟩]
  | persistAudiobook jobId _ => [⟨jobId, .running, .succeeded⟩]
  | failEncode jobId seen _ _ _ _ _ _ => [⟨jobId, seen, .failed⟩]
  | _ => []

/-- The final statuses that the check before an access does not look for: the gate does not look
for finished jobs, the processors do not look for cancelled ones, and the failure handlers do not
look for jobs that succeeded or were cancelled. -/
def uncheckedStatuses : Access → List JobStatus
  | halt _ _ => [.succeeded, .failed]
  | markRunning _ _ => [.cancelled]
  | markSucceeded _ _ => [.cancelled]
  | markFailed _ _ _ => [.succeeded, .cancelled]
  | failEncode _ _ _ _ _ _ _ _ => [.succeeded, .cancelled]
  | _ => []

/-- No final status slips past the checks of an access: what the writer saw is not a status its
check overlooks, and a job that is final by now was already so when the writer saw it, or gets
the status it has. -/
def Undisturbed (a : Access) (s : Store) : Prop :=
  ∀ w ∈ a.statusWrites, w.seen ∉ a.uncheckedStatuses ∧
    ∀ job ∈ s.processingJobs, job.id = w.jobId → job.status.IsFinal →
      job.status = w.seen ∨ job.status = w.new

instance (a : Access) (s : Store) : Decidable (a.Undisturbed s) :=
  inferInstanceAs (Decidable (∀ w ∈ a.statusWrites, _ ∧ ∀ job ∈ s.processingJobs, _))

end Access

/-! ## What a Transaction Does to a Status -/

/-- A job keeps its id, and keeps its status or gets one that is written to it. -/
def StatusStep (writes : List StatusWrite) (job job' : ProcessingJob) : Prop :=
  job'.id = job.id ∧
    (job'.status = job.status ∨ ∃ w ∈ writes, w.jobId = job.id ∧ job'.status = w.new)

instance (writes : List StatusWrite) : IsPreorder ProcessingJob (StatusStep writes) where
  refl _ := ⟨rfl, .inl rfl⟩
  trans a b c hab hbc := by
    refine ⟨hbc.1.trans hab.1, ?_⟩
    rcases hbc.2 with hsame | ⟨w, hw, hid, hnew⟩
    · rw [hsame]
      exact hab.2
    · exact .inr ⟨w, hw, hid.trans hab.1, hnew⟩

/-- The jobs of a store persist, with statuses changed only by the given writes. -/
def StatusesStep (writes : List StatusWrite) (s s' : Store) : Prop :=
  Persist (StatusStep writes) s.processingJobs s'.processingJobs

instance (writes : List StatusWrite) : IsPreorder Store (StatusesStep writes) where
  refl s := refl_of (Persist (StatusStep writes)) s.processingJobs
  trans _ _ _ h₁ h₂ := trans_of (Persist (StatusStep writes)) h₁ h₂

theorem StatusesStep.of_eq {writes : List StatusWrite} {s s' : Store}
    (h : s'.processingJobs = s.processingJobs) : StatusesStep writes s s' := by
  rw [StatusesStep, h]
  exact refl_of (Persist (StatusStep writes)) _

theorem tx_jobs {R : Store → Store → Prop} [IsPreorder Store R] {a : Access}
    (hsame : ∀ s s', s'.processingJobs = s.processingJobs → R s s')
    (happend : ∀ s jobs, R s { s with processingJobs := s.processingJobs ++ jobs })
    (hupdate : ∀ jobId f, (∀ job : ProcessingJob, job.SameRequest (f job)) →
      (∀ job : ProcessingJob, (f job).status = job.status ∨
        ∃ w ∈ a.statusWrites, w.jobId = jobId ∧ (f job).status = w.new) →
      (updateJob jobId f).Within R) : a.tx.Within R := by
  have hwrite : ∀ jobId f seen new, ⟨jobId, seen, new⟩ ∈ a.statusWrites →
      (∀ job : ProcessingJob, job.SameRequest (f job)) →
      (∀ job : ProcessingJob, (f job).status = new) → (updateJob jobId f).Within R :=
    fun jobId f seen new hw hf hnew => hupdate jobId f hf fun job => .inr ⟨_, hw, rfl, hnew job⟩
  cases a with
  | query => exact Transaction.within_pure ()
  | requestedFormats audiobookId => exact Transaction.within_pure ()
  | readCancellationFlag jobId => exact Transaction.within_pure ()
  | external => exact Transaction.within_pure ()
  | freshId =>
    rintro s _ s' h
    cases h
    exact hsame _ _ rfl
  | enqueue envelope => exact enqueueMessage_within (fun s queue => hsame _ _ rfl) _
  | markQueued jobId => exact hupdate _ _ (fun _ => rfl) fun _ => .inl rfl
  | removeQueuedJob jobId => exact Transaction.within_modify fun s => hsame _ _ rfl
  | setCancellationFlag jobId => exact Transaction.within_modify fun s => hsame _ _ rfl
  | createJobs jobs => exact createJobs_within fun job _ s _ => happend _ _
  | createTtsJobs coordinator jobs =>
    refine Transaction.within_bind (Table.within_insert _ fun s _ => happend _ _) fun _ => ?_
    exact createSyntheses_within (fun s rows => happend _ _) fun s rows => hsame _ _ rfl
  | cancelJobs jobs =>
    refine cancelJobs_within fun p hp => ?_
    have hpatch : ∀ immediate : Bool, ∀ job : ProcessingJob,
        job.SameRequest (cancellationPatch immediate job) := fun immediate job => by
      cases immediate <;> rfl
    by_cases hseen : p.2.IsImmediatelyCancellable
    · refine hwrite p.1 _ p.2 .cancelled ?_ (hpatch _) fun job => by
        simp [cancellationPatch, hseen]
      exact List.mem_map.mpr ⟨p, List.mem_filter.mpr ⟨hp, by simpa using hseen⟩, rfl⟩
    · exact hupdate _ _ (hpatch _) fun job => .inl (by simp [cancellationPatch, hseen])
  | halt jobId seen =>
    exact hwrite _ _ seen _ (List.mem_singleton_self _) (fun _ => rfl) fun _ => rfl
  | markRunning jobId seen =>
    exact hwrite _ _ seen _ (List.mem_singleton_self _) (fun _ => rfl) fun _ => rfl
  | markSucceeded jobId seen =>
    exact hwrite _ _ seen _ (List.mem_singleton_self _) (fun _ => rfl) fun _ => rfl
  | markFailed jobId seen errorCode =>
    exact hwrite _ _ seen _ (List.mem_singleton_self _) (fun _ => rfl) fun _ => rfl
  | persistChapterAudio jobId chapterAudio =>
    refine Transaction.within_bind (Table.within_update _ fun s _ => hsame _ _ rfl) fun _ => ?_
    refine Transaction.within_bind (Table.within_insert _ fun s _ => hsame _ _ rfl) fun _ => ?_
    exact hwrite _ _ .running _ (List.mem_singleton_self _) (fun _ => rfl) fun _ => rfl
  | persistAudiobook jobId audiobook =>
    refine Transaction.within_bind (Table.within_update _ fun s _ => hsame _ _ rfl) fun _ => ?_
    refine Transaction.within_bind (Table.within_insert _ fun s _ => hsame _ _ rfl) fun _ => ?_
    exact hwrite _ _ .running _ (List.mem_singleton_self _) (fun _ => rfl) fun _ => rfl
  | updateRendition renditionId rendition =>
    exact Table.within_update _ fun s _ => hsame _ _ rfl
  | createRendition rendition => exact Table.within_insert _ fun s _ => hsame _ _ rfl
  | failEncode jobId seen errorCode audiobookId format existing newId failAudiobook =>
    refine Transaction.within_bind (hwrite _ _ seen _ (List.mem_singleton_self _)
      (fun _ => rfl) fun _ => rfl) fun _ => ?_
    refine Transaction.within_bind ?_ fun _ => ?_
    · unfold failRendition
      split
      · exact Table.within_update _ fun s _ => hsame _ _ rfl
      · exact Table.within_insert _ fun s _ => hsame _ _ rfl
    · split
      · exact Table.within_update _ fun s _ => hsame _ _ rfl
      · exact Transaction.within_pure ()
  | publish audiobookId bookId =>
    exact Transaction.within_bind (Table.within_update _ fun s _ => hsame _ _ rfl) fun _ =>
      Table.within_update _ fun s _ => hsame _ _ rfl
  | insertChunks chunks => exact insertChunks_within (fun s rows => hsame _ _ rfl) _
  | insertAudioChunk new =>
    exact Transaction.within_bind (insertAudioChunk_within (fun s rows => hsame _ _ rfl)
      (fun s rows => hsame _ _ rfl) (fun s rows => hsame _ _ rfl) _) fun _ =>
        Transaction.within_pure ()

theorem tx_statuses (a : Access) : a.tx.Within (StatusesStep a.statusWrites) := by
  refine tx_jobs (fun _ _ => StatusesStep.of_eq) (fun _ _ => Persist.append _ _ _)
    fun jobId f hf hstatus => ?_
  have hid : ∀ job, (f job).id = job.id := fun job => by rw [hf job]
  refine updateJob_within fun s => Persist.updateWhere fun job _ hjob => ⟨hid job, ?_⟩
  obtain rfl : job.id = jobId := by simpa using hjob
  exact hstatus job

/-! ## Runs -/

theorem mem_uncheckedStatuses {a : Access} (ha : a.Checked) {w : StatusWrite}
    (hw : w ∈ a.statusWrites) (hfinal : w.seen.IsFinal) : w.seen ∈ a.uncheckedStatuses := by
  cases a <;> simp only [Access.statusWrites, List.not_mem_nil, List.mem_singleton] at hw
  case cancelJobs jobs =>
    obtain ⟨p, hp, rfl⟩ := List.mem_map.mp hw
    exact absurd hfinal.isTerminal (ha p (List.mem_filter.mp hp).1)
  all_goals
    subst hw
    simp only [Access.Checked, Access.uncheckedStatuses, JobStatus.IsFinal] at ha hfinal ⊢
    grind

/-- Final statuses stay along a step. -/
def FinalStays (s s' : Store) : Prop :=
  Persist (fun job job' => job'.id = job.id ∧ (job.status.IsFinal → job'.status = job.status))
    s.processingJobs s'.processingJobs

/-- Undisturbed accesses, and stores whose final statuses stay. -/
def finalStatusContract : Contract Store Access where
  admits := Access.Undisturbed
  evolves := FinalStays
  refl s job hjob := ⟨job, hjob, rfl, fun _ => rfl⟩
  trans h₁ h₂ job hjob := by
    obtain ⟨job', hjob', hid, hst⟩ := h₁ job hjob
    obtain ⟨job'', hjob'', hid', hst'⟩ := h₂ job' hjob'
    refine ⟨job'', hjob'', hid'.trans hid, fun hfinal => ?_⟩
    rw [hst' (by rwa [hst hfinal]), hst hfinal]

theorem allows_of_sound (a : Access) (w : Store → Store) (h : a.Sound w) :
    finalStatusContract.Allows a w := by
  obtain ⟨hchecked, rfl | rfl⟩ := h
  · exact Contract.allows_id _ a
  refine Contract.allows_commit _ fun s _ s' hadm htx job hjob => ?_
  obtain ⟨job', hjob', hid, hstatus⟩ := tx_statuses a s _ s' htx job hjob
  refine ⟨job', hjob', hid, fun hfinal => ?_⟩
  rcases hstatus with hsame | ⟨w, hw, hwid, hnew⟩
  · exact hsame
  · -- The write meets a final status: either its check saw it and looked for it, or it is kept.
    obtain ⟨hunchecked, hmeets⟩ := hadm w hw
    rcases hmeets job hjob hwid.symm hfinal with hseen | hkept
    · exact absurd (mem_uncheckedStatuses hchecked hw (hseen ▸ hfinal)) hunchecked
    · rw [hnew, hkept]

/-- In every run whose accesses are undisturbed, a job that is `SUCCEEDED`, `FAILED` or
`CANCELLED` in a reachable state keeps that status. -/
theorem final_absorbing (computeManifestHash : List (Id × Hash) → Hash)
    {c c' : Config Store Access Fault}
    (hc : (assemblySystem computeManifestHash).Reachable Access.Undisturbed c)
    (hrun : (assemblySystem computeManifestHash).Run Access.Undisturbed c c')
    {job : ProcessingJob} (hjob : job ∈ c.store.processingJobs) (hfinal : job.status.IsFinal) :
    ∃ job' ∈ c'.store.processingJobs, job'.id = job.id ∧ job'.status = job.status := by
  have hrespects := respects_of_sound allows_of_sound computeManifestHash
  obtain ⟨job', hjob', hid, hstatus⟩ := hrespects.evolves_of_run hc hrun job hjob
  exact ⟨job', hjob', hid, hstatus hfinal⟩

def jobStatuses (s : Store) : List (Id × JobStatus) :=
  s.processingJobs.map fun job => (job.id, job.status)

/-- A chapter of the small book is assembled; a worker starts on the message once more. -/
def assembledTwice : List (Move AssemblyRequest Fault) :=
  alone 0 8 (.startAssembly 1 { scope := .chapter, chapterIds := [3] }) ++
    alone 1 12 (firstDelivery (chapterEnvelope 100 3) 77) ++
    alone 2 3 (firstDelivery (chapterEnvelope 100 3) 77)

/-- Redelivering the message of a finished chapter leaves its job `SUCCEEDED`. -/
theorem assembledTwice_final :
    ∃ c c' : Config Store Access Fault, ∃ job ∈ c.store.processingJobs,
      job.status = .succeeded ∧
        (assemblySystem polynomialDigest).Run Access.Undisturbed ⟨narratedBook, []⟩ c ∧
        (assemblySystem polynomialDigest).Run Access.Undisturbed c c' ∧
        ∃ job' ∈ c'.store.processingJobs, job'.id = job.id ∧ job'.status = job.status := by
  have hplay : ((assemblySystem polynomialDigest).playAll Access.Undisturbed ⟨narratedBook, []⟩
      (assembledTwice.take 22)).bind (fun c₁ =>
        ((assemblySystem polynomialDigest).playAll Access.Undisturbed c₁
          (assembledTwice.drop 22)).map fun c₂ =>
            (jobStatuses c₁.store, jobStatuses c₂.store)) =
      some ([(100, .succeeded)], [(100, .succeeded)]) := by decide +kernel
  obtain ⟨c, c', hrun, hrun', hjobs, -⟩ :=
    System.exists_run_run_of_playAll (f := jobStatuses) (g := jobStatuses) hplay
  have hmem : (100, JobStatus.succeeded) ∈ jobStatuses c.store := by simp [hjobs]
  obtain ⟨job, hjob, heq⟩ := List.mem_map.mp hmem
  have hstatus : job.status = .succeeded := (Prod.mk.inj heq).2
  refine ⟨c, c', job, hjob, hstatus, hrun, hrun', ?_⟩
  exact final_absorbing polynomialDigest ⟨narratedBook, nothingAssembled_narratedBook, hrun⟩ hrun'
    hjob (by rw [hstatus]; decide)

/-- `cancelJob` has read the job as `CREATED` when a worker finishes the chapter. -/
def cancelledLate : List (Move AssemblyRequest Fault) :=
  alone 0 8 (.startAssembly 1 { scope := .chapter, chapterIds := [3] }) ++
    alone 1 2 (.cancelJob 100) ++ alone 2 12 (firstDelivery (chapterEnvelope 100 3) 77)

/-- It is not so that a final status stays in every run: `cancelJob` overwrites `SUCCEEDED`. -/
theorem not_forall_final_absorbing :
    ¬ ∀ (computeManifestHash : List (Id × Hash) → Hash) (c c' : Config Store Access Fault),
      (assemblySystem computeManifestHash).Reachable anyAccess c →
      (assemblySystem computeManifestHash).Run anyAccess c c' →
      ∀ job ∈ c.store.processingJobs, job.status.IsFinal →
        ∃ job' ∈ c'.store.processingJobs, job'.id = job.id ∧ job'.status = job.status := by
  intro h
  have hplay : ((assemblySystem polynomialDigest).playAll anyAccess ⟨narratedBook, []⟩
      cancelledLate).bind (fun c₁ =>
        ((assemblySystem polynomialDigest).playAll anyAccess c₁ [.proceed 1]).map fun c₂ =>
          (jobStatuses c₁.store, jobStatuses c₂.store)) =
      some ([(100, .succeeded)], [(100, .cancelled)]) := by decide +kernel
  obtain ⟨c, c', hrun, hrun', hjobs, hjobs'⟩ :=
    System.exists_run_run_of_playAll (f := jobStatuses) (g := jobStatuses) hplay
  have hmem : (100, JobStatus.succeeded) ∈ jobStatuses c.store := by simp [hjobs]
  obtain ⟨job, hjob, heq⟩ := List.mem_map.mp hmem
  have hstatus : job.status = .succeeded := (Prod.mk.inj heq).2
  obtain ⟨job', hjob', -, hstatus'⟩ := h polynomialDigest c c'
    ⟨narratedBook, nothingAssembled_narratedBook, hrun⟩ hrun' job hjob (by rw [hstatus]; decide)
  have hmem' : (job'.id, job'.status) ∈ [(100, JobStatus.cancelled)] :=
    hjobs' ▸ List.mem_map.mpr ⟨job', hjob', rfl⟩
  simp [hstatus', hstatus] at hmem'

end AudioBook
