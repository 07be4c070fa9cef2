import AudioBook.Jobs.Cancellation
import AudioBook.Schema.Constraints

/-!
# The Two Cancellation Gates

A worker asks a gate before it starts a job. The Node workers run `haltIfCancelled`, the Python
workers `CancellationGate.halt_if_cancelled`. The durable record of a cancellation is the column
`cancellation_requested`; the flag in the cache is only a fast path to it. The Python gate looks
at the column before the flag. The Node gate looks at the column only when the cache does not
answer, so a flag that expired or was never set hides the column from it.

Main results:

- `haltIfCancelled_evaluate` and `CancellationGate.haltIfCancelled_evaluate`: what each gate
  decides.
- `gates_agree_iff`: the gates agree, and neither loses a request, unless the flag hides it.
-/

namespace AudioBook

open Relational Concurrent

/-! ## The Python Gate -/

namespace CancellationGate

/-- `is_cancelled`: the flag in the cache, or the column when the cache cannot be reached. -/
def isCancelled (jobId : Id) : Service Bool :=
  tryCatch (readCancellationFlag jobId) fun _ =>
    query fun s => ((findJob jobId s).map ProcessingJob.cancellationRequested).getD false

/-- The transaction of `halt_if_cancelled`. -/
def halt (jobId : Id) : Tx Unit :=
  Db.processingJob.update (fun job => decide (job.id = jobId)) fun job =>
    { job with status := .cancelled, cancellationRequested := true }

/-- `b or await ask`: a true flag is not asked about again. -/
def orElse (b : Bool) (ask : Service Bool) : Service Bool :=
  if b then pure true else ask

/-- `halt_if_cancelled`: whether the work of a job must not start. -/
def haltIfCancelled (jobId : Id) : Service Bool := do
  match ← query (findJob jobId) with
  | none => return false
  | some job =>
      if job.status = .cancelled then return true
      if ← orElse job.cancellationRequested (isCancelled jobId) then
        Prog.atomically (.halt jobId job.status) (halt jobId)
        return true
      return false

end CancellationGate

/-! ## What a Gate Decides -/

/-- The accesses that are refused while the cache is down. -/
def cacheOutage (down : Bool) : Access → Option Fault
  | .readCancellationFlag _ => if down then some .uncoded else none
  | _ => none

/-- What a gate answers when it runs alone on a store. -/
def decision (gate : Id → Service Bool) (down : Bool) (jobId : Id) (s : Store) :
    Except Fault Bool :=
  ((gate jobId).evaluate (cacheOutage down) s).1

/-- The cache answers that no flag is set, for a job that is to stop and has not stopped. -/
def FlagHidesRequest (down : Bool) (jobId : Id) (s : Store) : Prop :=
  ∃ job, findJob jobId s = some job ∧ job.status ≠ .cancelled ∧
    job.cancellationRequested = true ∧ down = false ∧ jobId ∉ s.cancellationFlags

/-- Both gates give the same answer, and the answer is to halt when the row of the job asks for
it. -/
def GatesAgree (down : Bool) (jobId : Id) (s : Store) : Prop :=
  decision haltIfCancelled down jobId s = decision CancellationGate.haltIfCancelled down jobId s ∧
    ∀ job, findJob jobId s = some job → job.cancellationRequested = true →
      decision haltIfCancelled down jobId s = .ok true ∧
        decision CancellationGate.haltIfCancelled down jobId s = .ok true

section halt

variable {jobId : Id} {s : Store}

theorem processingJobsOk_halt {rows : List ProcessingJob} (h : Db.ProcessingJobsOk rows) :
    Db.ProcessingJobsOk (updateWhere (fun job => decide (job.id = jobId))
      (fun job => { job with status := .cancelled, cancellationRequested := true }) rows) where
  id := nodup_map_updateWhere h.id fun _ => rfl
  activeKey := h.activeKey.updateWhere_of_retire fun job _ _ => .inl rfl
  attemptCount := forall_mem_updateWhere h.attemptCount fun job hjob _ => h.attemptCount job hjob
  errorCode := by
    apply forall_mem_updateWhere h.errorCode
    intro job _ _ hstatus
    simp at hstatus
  parent := h.parent.updateWhere (fun _ => rfl) fun job hjob _ => h.parent job hjob

theorem CancellationGate.halt_commits (hs : Db.ProcessingJobsOk s.processingJobs) :
    ∃ s', CancellationGate.halt jobId s = .ok ((), s') := by
  refine ⟨_, (Table.update_eq_ok_iff (ε := Fault) Db.processingJob).mpr ⟨?_, rfl⟩⟩
  exact Db.processingJob_accepts_iff.mpr (processingJobsOk_halt hs)

theorem halt_commits {job : ProcessingJob} {seen : JobStatus}
    (hs : Db.ProcessingJobsOk s.processingJobs) (hjob : findJob jobId s = some job) :
    ∃ s', (Access.halt jobId seen).tx s = .ok ((), s') := by
  refine ⟨_, updateJob_eq_ok_iff.mpr ⟨?_, ?_, rfl⟩⟩
  · rw [hjob]
    rfl
  · exact Db.processingJob_accepts_iff.mpr (processingJobsOk_halt hs)

end halt

section decision

variable (down : Bool) {jobId : Id} {s : Store} {job : ProcessingJob}

theorem cacheOutage_down : cacheOutage true (.readCancellationFlag jobId) = some .uncoded := rfl

theorem query_evaluate {α : Type} {f : Store → α} :
    (query f).evaluate (cacheOutage down) s = (.ok (f s), s) :=
  Prog.evaluate_read rfl

theorem isCancellationRequested_evaluate :
    (isCancellationRequested job).evaluate (cacheOutage down) s =
      (.ok (if down then job.cancellationRequested else decide (job.id ∈ s.cancellationFlags)),
        s) := by
  show (tryCatchThe Fault (readCancellationFlag job.id)
    fun _ => pure job.cancellationRequested).evaluate _ s = _
  unfold readCancellationFlag
  rw [Prog.evaluate_tryCatch]
  cases down with
  | true =>
    rw [Prog.evaluate_read_of_outage cacheOutage_down]
    rfl
  | false =>
    rw [Prog.evaluate_read rfl]
    rfl

theorem CancellationGate.isCancelled_evaluate (hjob : findJob jobId s = some job) :
    (CancellationGate.isCancelled jobId).evaluate (cacheOutage down) s =
      (.ok (if down then job.cancellationRequested else decide (jobId ∈ s.cancellationFlags)),
        s) := by
  show (tryCatchThe Fault (readCancellationFlag jobId) fun _ => query fun s =>
    ((findJob jobId s).map ProcessingJob.cancellationRequested).getD false).evaluate _ s = _
  unfold readCancellationFlag
  rw [Prog.evaluate_tryCatch]
  cases down with
  | true =>
    rw [Prog.evaluate_read_of_outage cacheOutage_down]
    show (query _).evaluate (cacheOutage true) s = _
    rw [query_evaluate, hjob]
    rfl
  | false =>
    rw [Prog.evaluate_read rfl]
    rfl

theorem haltIfCancelled_evaluate (hs : Db.ProcessingJobsOk s.processingJobs)
    (hjob : findJob jobId s = some job) (hstatus : job.status ≠ .cancelled) :
    decision haltIfCancelled down jobId s =
      .ok (if down then job.cancellationRequested else decide (jobId ∈ s.cancellationFlags)) := by
  have hid : job.id = jobId := by simpa [findJob] using List.find?_some hjob
  unfold decision haltIfCancelled
  rw [Prog.evaluate_bind_of_ok (query_evaluate down), hjob]
  simp only [if_neg hstatus]
  rw [Prog.evaluate_bind_of_ok (isCancellationRequested_evaluate down), hid]
  generalize (if down then job.cancellationRequested else decide (jobId ∈ s.cancellationFlags)) = stop
  cases stop with
  | false => rfl
  | true =>
    obtain ⟨s', hcommit⟩ : ∃ s', (Access.halt jobId job.status).tx s = .ok ((), s') :=
      halt_commits hs hjob
    show ((perform (.halt jobId job.status) >>= fun _ => pure true).evaluate _ s).1 = _
    unfold perform
    rw [Prog.evaluate_bind_of_ok (Prog.evaluate_atomically rfl hcommit)]
    rfl

theorem CancellationGate.haltIfCancelled_evaluate (hs : Db.ProcessingJobsOk s.processingJobs)
    (hjob : findJob jobId s = some job) (hstatus : job.status ≠ .cancelled) :
    decision CancellationGate.haltIfCancelled down jobId s =
      .ok (job.cancellationRequested ||
        if down then job.cancellationRequested else decide (jobId ∈ s.cancellationFlags)) := by
  have hask : (CancellationGate.orElse job.cancellationRequested
      (CancellationGate.isCancelled jobId)).evaluate (cacheOutage down) s =
        (.ok (job.cancellationRequested ||
          if down then job.cancellationRequested else decide (jobId ∈ s.cancellationFlags)), s) := by
    cases hrequested : job.cancellationRequested with
    | true => rfl
    | false =>
      have hanswer := CancellationGate.isCancelled_evaluate down hjob
      rw [hrequested] at hanswer
      simpa [CancellationGate.orElse] using hanswer
  unfold decision CancellationGate.haltIfCancelled
  rw [Prog.evaluate_bind_of_ok (query_evaluate down), hjob]
  simp only [if_neg hstatus]
  rw [Prog.evaluate_bind_of_ok hask]
  generalize (job.cancellationRequested ||
    if down then job.cancellationRequested else decide (jobId ∈ s.cancellationFlags)) = stop
  cases stop with
  | false => rfl
  | true =>
    obtain ⟨s', hcommit⟩ : ∃ s', CancellationGate.halt jobId s = .ok ((), s') :=
      CancellationGate.halt_commits hs
    show ((Prog.atomically (Access.halt jobId job.status) (CancellationGate.halt jobId) >>=
      fun _ => pure true).evaluate _ s).1 = _
    rw [Prog.evaluate_bind_of_ok (Prog.evaluate_atomically rfl hcommit)]
    rfl

theorem decision_of_settled
    (h : findJob jobId s = none ∨ ∃ job, findJob jobId s = some job ∧ job.status = .cancelled) :
    decision haltIfCancelled down jobId s = .ok (findJob jobId s).isSome ∧
      decision CancellationGate.haltIfCancelled down jobId s = .ok (findJob jobId s).isSome := by
  unfold decision haltIfCancelled CancellationGate.haltIfCancelled
  rw [Prog.evaluate_bind_of_ok (query_evaluate down), Prog.evaluate_bind_of_ok (query_evaluate down)]
  rcases h with hnone | ⟨job, hjob, hstatus⟩
  · rw [hnone]
    exact ⟨rfl, rfl⟩
  · rw [hjob]
    simp only [if_pos hstatus]
    exact ⟨rfl, rfl⟩

/-- The gates agree and neither lets a job pass that its row asks to stop, except when the cache
answers that no flag is set for such a job. -/
theorem gates_agree_iff (down : Bool) (jobId : Id) (s : Store)
    (hs : Db.processingJob.Holds s) :
    GatesAgree down jobId s ↔ ¬ FlagHidesRequest down jobId s := by
  have hok : Db.ProcessingJobsOk s.processingJobs := Db.processingJob_accepts_iff.mp hs
  cases hjob : findJob jobId s with
  | none =>
    obtain ⟨hnode, hpython⟩ := decision_of_settled down (.inl hjob)
    simp [GatesAgree, FlagHidesRequest, hnode, hpython, hjob]
  | some job =>
    by_cases hstatus : job.status = .cancelled
    · obtain ⟨hnode, hpython⟩ := decision_of_settled down (.inr ⟨job, hjob, hstatus⟩)
      simp [GatesAgree, FlagHidesRequest, hnode, hpython, hjob, hstatus]
    · have hnode := haltIfCancelled_evaluate down hok hjob hstatus
      have hpython := CancellationGate.haltIfCancelled_evaluate down hok hjob hstatus
      rw [GatesAgree, FlagHidesRequest, hnode, hpython, hjob]
      -- The four cases of the column and the cache; only one of them tells the gates apart.
      cases down <;> cases hrequested : job.cancellationRequested <;>
        simp [hstatus, hrequested]

end decision

/-! ## A Cancellation That Only One Gate Sees -/

/-- The API cannot set flags in the cache. -/
def flagRefused : Access → Option Fault
  | .setCancellationFlag _ => some .uncoded
  | _ => none

/-- A job of assembly that a worker has started. -/
def runningStore : Store where
  processingJobs := [{
    id := 1
    bookId := some 7
    type := .assembleChapter
    status := .running
    relatedResourceType := .chapter
    relatedResourceId := 3
    attemptCount := 1
    idempotencyKey := .assembleChapter 3 5 }]

/-- The store after the user cancelled the running job while the cache was down. -/
def cancelledWithoutFlag : Store :=
  ((cancelJob 1).evaluate flagRefused runningStore).2

/-- As long as the cache is down, both gates stop the job. -/
theorem gates_agree_cancelledWithoutFlag : GatesAgree true 1 cancelledWithoutFlag :=
  (gates_agree_iff true 1 cancelledWithoutFlag (by decide +kernel)).mpr
    fun ⟨_, _, _, _, hdown, _⟩ => Bool.noConfusion hdown

/-- Once the cache is back, the Node gate lets the next attempt of the cancelled job start, and
the Python gate does not. -/
theorem not_gatesAgree_cancelledWithoutFlag :
    ¬ GatesAgree false 1 cancelledWithoutFlag := by
  rintro ⟨hsame, -⟩
  have hnode : decision haltIfCancelled false 1 cancelledWithoutFlag = .ok false := rfl
  have hpython :
      decision CancellationGate.haltIfCancelled false 1 cancelledWithoutFlag = .ok true := rfl
  rw [hnode, hpython] at hsame
  cases hsame

end AudioBook
