import AudioBook.Assembly.Access

/-!
# Cancellation

The API's `cancelJob` and the worker's `haltIfCancelled`. Both read the row of a job in one query
and write it in a later transaction.
-/

namespace AudioBook

open Concurrent

def activeChildren (jobId : Id) (s : Store) : List (Id × JobStatus) :=
  (s.processingJobs.filter fun job =>
    decide (job.parentJobId = some jobId ∧ ¬ job.status.IsTerminal)).map fun job =>
      (job.id, job.status)

/-- The clean-up of the broker and the cache after `cancelJob`: best effort, outside the
database. -/
def propagateCancellation : List (Id × JobStatus) → Service Unit
  | [] => pure ()
  | (jobId, seen) :: jobs => do
      if seen.IsImmediatelyCancellable then
        tryCatch (perform (.removeQueuedJob jobId)) fun _ => pure ()
      tryCatch (perform (.setCancellationFlag jobId)) fun _ => pure ()
      propagateCancellation jobs

def cancelJob (jobId : Id) : Service Unit := do
  match ← query (findJob jobId) with
  | none => throw .uncoded
  | some job =>
      if job.status.IsTerminal then return
      let children ← query (activeChildren jobId)
      let cancelled := children ++ [(job.id, job.status)]
      perform (.cancelJobs cancelled)
      propagateCancellation cancelled
      -- The audit record and the refreshed row of the response.
      external
      let _ ← query (findJob jobId)

/-- `CancellationFlagStore.isSet`: whether the cache holds a flag of the job that has not expired. -/
def readCancellationFlag (jobId : Id) : Service Bool :=
  Prog.read (.readCancellationFlag jobId) fun s => decide (jobId ∈ s.cancellationFlags)

/-- `isCancellationRequested`: the flag in the cache, or the column of the row that was read when
the cache cannot be reached. -/
def isCancellationRequested (job : ProcessingJob) : Service Bool :=
  tryCatch (readCancellationFlag job.id) fun _ => pure job.cancellationRequested

/-- `haltIfCancelled`: whether the work of a job must not start. -/
def haltIfCancelled (jobId : Id) : Service Bool := do
  match ← query (findJob jobId) with
  | none => return false
  | some job =>
      if job.status = .cancelled then return true
      if ← isCancellationRequested job then
        perform (.halt job.id job.status)
        return true
      return false

end AudioBook
