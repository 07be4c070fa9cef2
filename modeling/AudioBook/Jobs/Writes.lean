import AudioBook.Schema.Store

/-!
# Writes to a Job Row

The updates of `processing_job` that the services share. All of them address the row by its id,
and none of them looks at the status it replaces.
-/

namespace AudioBook

open Relational

/-- `TERMINAL_JOB_STATUSES`. -/
def JobStatus.IsTerminal (status : JobStatus) : Prop :=
  status ∈ [.succeeded, .failed, .cancelled, .deadLettered]

instance (status : JobStatus) : Decidable status.IsTerminal :=
  inferInstanceAs (Decidable (_ ∈ _))

/-- `IMMEDIATELY_CANCELLABLE`. -/
def JobStatus.IsImmediatelyCancellable (status : JobStatus) : Prop :=
  status ∈ [.created, .queued, .blocked, .retrying]

instance (status : JobStatus) : Decidable status.IsImmediatelyCancellable :=
  inferInstanceAs (Decidable (_ ∈ _))

def findJob (jobId : Id) (s : Store) : Option ProcessingJob :=
  s.processingJobs.find? fun job => decide (job.id = jobId)

/-- `processingJob.update` by id; the database client raises when the row is not there. -/
def updateJob (jobId : Id) (f : ProcessingJob → ProcessingJob) : Tx Unit := do
  if (findJob jobId (← get)).isNone then throw (.coded .p2025)
  Db.processingJob.update (fun job => decide (job.id = jobId)) f

theorem updateJob_eq_ok_iff {jobId : Id} {f : ProcessingJob → ProcessingJob} {s s' : Store}
    {u : Unit} :
    updateJob jobId f s = .ok (u, s') ↔
      (findJob jobId s).isSome ∧
        Db.processingJob.Accepts
          (updateWhere (fun job => decide (job.id = jobId)) f s.processingJobs) ∧
        s' = { s with
          processingJobs := updateWhere (fun job => decide (job.id = jobId)) f s.processingJobs } := by
  refine Iff.trans ?_
    (and_congr_right fun _ => Table.update_eq_ok_iff (ε := Fault) Db.processingJob)
  unfold updateJob
  have hget : (get : Tx Store) s = .ok (s, s) := rfl
  rw [Transaction.bind_eq_of_ok hget]
  cases findJob jobId s with
  | none =>
    have hthrow : (throw (.coded .p2025) : Tx Unit) s = .error (.coded .p2025) := rfl
    simp [Transaction.bind_eq_error hthrow]
  | some job => simp

theorem updateJob_within {R : Store → Store → Prop} {jobId : Id}
    {f : ProcessingJob → ProcessingJob}
    (h : ∀ s, R s { s with
      processingJobs := updateWhere (fun job => decide (job.id = jobId)) f s.processingJobs }) :
    (updateJob jobId f).Within R := by
  intro s a s' hs
  obtain ⟨-, -, rfl⟩ := updateJob_eq_ok_iff.mp hs
  exact h s

/-- A later version of a job: only its progress changed. -/
def ProcessingJob.SameRequest (job job' : ProcessingJob) : Prop :=
  job' = { job with
    status := job'.status
    attemptCount := job'.attemptCount
    cancellationRequested := job'.cancellationRequested
    errorCode := job'.errorCode
    queued := job'.queued }

instance : IsPreorder ProcessingJob ProcessingJob.SameRequest where
  refl _ := rfl
  trans a b c hab hbc := by
    rw [ProcessingJob.SameRequest] at *
    rw [hbc, hab]

def cancellationPatch (immediate : Bool) (job : ProcessingJob) : ProcessingJob :=
  if immediate then { job with cancellationRequested := true, status := .cancelled }
  else { job with cancellationRequested := true }

/-- The job has started another attempt. -/
def markRunning (jobId : Id) : Tx Unit :=
  updateJob jobId fun job =>
    { job with status := .running, attemptCount := job.attemptCount + 1 }

def markSucceeded (jobId : Id) : Tx Unit :=
  updateJob jobId fun job => { job with status := .succeeded }

def markFailed (jobId : Id) (errorCode : ErrorCode) : Tx Unit :=
  updateJob jobId fun job => { job with status := .failed, errorCode := some errorCode }

/-- `errorCodeOf`: the code an exception carries, or the fallback. -/
def errorCodeOf (err : Fault) (fallback : ErrorCode) : ErrorCode :=
  match err with
  | .violation .unique => .p2002
  | .violation .foreignKey => .p2003
  | .violation .check => fallback
  | .coded code => code
  | .uncoded => fallback

end AudioBook
