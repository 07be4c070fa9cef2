import AudioBook.Jobs.Writes
import AudioBook.Schema.Constraints

/-!
# Rows of New Jobs

When the table of jobs accepts new rows, and what becomes of the row of a job that runs once and
succeeds. Of a new job only its idempotency key can be refused, so long as its id is fresh and its
parent is there.

Main results:

- `processingJobsOk_append_iff`: new jobs are accepted exactly when their keys differ and no live
  row holds one of them.
-/

namespace AudioBook

open Relational

section rows

variable {rows : List ProcessingJob} {jobId : Id}

/-! ## Insertions -/

/-- The rows of jobs that were just created, under fresh ids; the job of a synthesis request is
created as `SUCCEEDED`. -/
structure NewJobs (rows new : List ProcessingJob) : Prop where
  id : ((rows ++ new).map ProcessingJob.id).Nodup
  parent : ∀ job ∈ new, ∀ i ∈ job.parentJobId, i ∈ (rows ++ new).map ProcessingJob.id
  status : ∀ job ∈ new, job.status ∈ [.created, .succeeded]
  attemptCount : ∀ job ∈ new, job.attemptCount = 0

variable {job : ProcessingJob}

theorem NewJobs.activeIdempotencyKey {new : List ProcessingJob} (hnew : NewJobs rows new)
    (hjob : job ∈ new) : job.activeIdempotencyKey = some job.idempotencyKey := by
  have hstatus := hnew.status job hjob
  rw [ProcessingJob.activeIdempotencyKey, if_neg]
  rcases List.mem_pair.mp hstatus with h | h <;> simp [h]

theorem processingJobsOk_append_iff {new : List ProcessingJob} (h : Db.ProcessingJobsOk rows)
    (hnew : NewJobs rows new) :
    Db.ProcessingJobsOk (rows ++ new) ↔
      (new.map ProcessingJob.idempotencyKey).Nodup ∧
        ∀ child ∈ new, ∀ job ∈ rows, job.activeIdempotencyKey ≠ some child.idempotencyKey := by
  have hkeys : UniqueWhere ProcessingJob.activeIdempotencyKey new ↔
      (new.map ProcessingJob.idempotencyKey).Nodup := by
    rw [UniqueWhere, ← List.filterMap_eq_map]
    refine Eq.to_iff (congrArg List.Nodup (List.filterMap_congr fun job hjob => ?_))
    exact hnew.activeIdempotencyKey hjob
  constructor
  · intro hok
    obtain ⟨-, hdistinct, hfree⟩ := uniqueWhere_append_iff.mp hok.activeKey
    refine ⟨hkeys.mp hdistinct, fun child hchild job hjob hheld => ?_⟩
    exact hfree job hjob child hchild _ hheld (hnew.activeIdempotencyKey hchild)
  · rintro ⟨hdistinct, hfree⟩
    refine ⟨hnew.id, ?_, ?_, ?_, ?_⟩
    · refine uniqueWhere_append_iff.mpr ⟨h.activeKey, hkeys.mpr hdistinct, ?_⟩
      intro job hjob child hchild key hheld hkey
      rw [hnew.activeIdempotencyKey hchild] at hkey
      cases hkey
      exact hfree child hchild job hjob hheld
    · intro job hjob
      rcases List.mem_append.mp hjob with hjob | hjob
      · exact h.attemptCount job hjob
      · simp [hnew.attemptCount job hjob]
    · intro job hjob hstatus
      rcases List.mem_append.mp hjob with hjob | hjob
      · exact h.errorCode job hjob hstatus
      · rcases List.mem_pair.mp (hnew.status job hjob) with h | h <;> simp [h] at hstatus
    · intro job hjob i hi
      rcases List.mem_append.mp hjob with hjob | hjob
      · rw [List.map_append]
        exact List.mem_append_left _ (h.parent job hjob i hi)
      · exact hnew.parent job hjob i hi

theorem processingJobsOk_concat_iff {child : ProcessingJob} (h : Db.ProcessingJobsOk rows)
    (hid : child.id ∉ rows.map ProcessingJob.id)
    (hparent : ∀ i ∈ child.parentJobId, i ∈ rows.map ProcessingJob.id)
    (hstatus : child.status = .created) (hattempts : child.attemptCount = 0) :
    Db.ProcessingJobsOk (rows ++ [child]) ↔
      ∀ job ∈ rows, job.activeIdempotencyKey ≠ some child.idempotencyKey := by
  have hnew : NewJobs rows [child] := by
    refine ⟨?_, ?_, ?_, ?_⟩
    · rw [List.map_append, List.map_singleton, List.nodup_append]
      exact ⟨h.id, List.nodup_singleton _, by
        rintro i hi _ hi' rfl
        exact hid (List.mem_singleton.mp hi' ▸ hi)⟩
    · intro job hjob i hi
      rw [List.map_append]
      exact List.mem_append_left _ (hparent i (List.mem_singleton.mp hjob ▸ hi))
    · simp [hstatus]
    · simp [hattempts]
  rw [processingJobsOk_append_iff h hnew]
  simp

/-! ## Updates -/

theorem processingJobsOk_updateWhere {f : ProcessingJob → ProcessingJob}
    (h : Db.ProcessingJobsOk rows) (hid : ∀ job, (f job).id = job.id)
    (hparent : ∀ job, (f job).parentJobId = job.parentJobId)
    (hjob : ∀ job ∈ rows, job.id = jobId →
      (f job).activeIdempotencyKey = job.activeIdempotencyKey ∧
        (f job).attemptCount ≤ (f job).maxAttempts + 1 ∧
        (f job).status ∉ [.failed, .deadLettered]) :
    Db.ProcessingJobsOk (updateWhere (fun job => decide (job.id = jobId)) f rows) := by
  have hmatch : ∀ job ∈ rows, decide (job.id = jobId) = true →
      (f job).activeIdempotencyKey = job.activeIdempotencyKey ∧
        (f job).attemptCount ≤ (f job).maxAttempts + 1 ∧
        (f job).status ∉ [.failed, .deadLettered] := fun job hmem hp =>
    hjob job hmem (of_decide_eq_true hp)
  refine ⟨nodup_map_updateWhere h.id hid, ?_, ?_, ?_, ?_⟩
  · exact h.activeKey.updateWhere_of_retire fun job hmem hp => .inr (hmatch job hmem hp).1
  · exact forall_mem_updateWhere h.attemptCount fun job hmem hp => (hmatch job hmem hp).2.1
  · exact forall_mem_updateWhere h.errorCode fun job hmem hp hstatus =>
      absurd hstatus (hmatch job hmem hp).2.2
  · refine h.parent.updateWhere hid fun job hmem _ i hi => h.parent job hmem i ?_
    rwa [hparent] at hi

def startRow (job : ProcessingJob) : ProcessingJob :=
  { job with status := .running, attemptCount := job.attemptCount + 1 }

def startJob (jobId : Id) (rows : List ProcessingJob) : List ProcessingJob :=
  updateWhere (fun job => decide (job.id = jobId)) startRow rows

/-- The row of a job that ran once and succeeded. -/
def finishRow (job : ProcessingJob) : ProcessingJob :=
  { job with status := .succeeded, attemptCount := job.attemptCount + 1 }

def finishJob (jobId : Id) (rows : List ProcessingJob) : List ProcessingJob :=
  updateWhere (fun job => decide (job.id = jobId)) finishRow rows

/-- The job of a message has not run yet, and is not to be cancelled. -/
structure PendingJob (m : Envelope) (s : Store) (job : ProcessingJob) : Prop where
  found : findJob m.jobId s = some job
  status : job.status = .created
  attemptCount : job.attemptCount = 0
  notRequested : job.cancellationRequested = false
  notFlagged : m.jobId ∉ s.cancellationFlags

theorem updateWhere_startJob :
    updateWhere (fun job => decide (job.id = jobId)) (fun job => { job with status := .succeeded })
      (startJob jobId rows) = finishJob jobId rows := by
  rw [updateWhere, startJob, updateWhere, List.map_map]
  refine List.map_congr_left fun job _ => ?_
  by_cases h : job.id = jobId
  · simp [h, startRow, finishRow]
  · simp [h]

theorem updateWhere_running_succeeded {child : ProcessingJob} (hid : child.id ≠ jobId) :
    updateWhere (fun job => decide (job.id = jobId)) (fun job => { job with status := .succeeded })
      (startJob jobId rows ++ [child]) = finishJob jobId rows ++ [child] := by
  rw [← updateWhere_startJob, updateWhere, List.map_append, List.map_singleton,
    if_neg (by simpa using hid), ← updateWhere]

theorem map_id_startJob : (startJob jobId rows).map ProcessingJob.id = rows.map ProcessingJob.id :=
  map_updateWhere (f := startRow) ProcessingJob.id (fun _ => rfl) rows

theorem map_id_finishJob :
    (finishJob jobId rows).map ProcessingJob.id = rows.map ProcessingJob.id :=
  map_updateWhere (f := finishRow) ProcessingJob.id (fun _ => rfl) rows

theorem processingJobsOk_startJob (h : Db.ProcessingJobsOk rows)
    (hfound : rows.find? (fun job => decide (job.id = jobId)) = some job)
    (hstatus : job.status = .created) (hattempts : job.attemptCount = 0) :
    Db.ProcessingJobsOk (startJob jobId rows) := by
  refine processingJobsOk_updateWhere h (fun _ => rfl) (fun _ => rfl) fun job' hjob' hid => ?_
  have hfound' := (find?_eq_some_iff_of_nodup h.id).mpr ⟨hjob', hid⟩
  rw [hfound] at hfound'
  cases hfound'
  simp [startRow, ProcessingJob.activeIdempotencyKey, hstatus, hattempts]

theorem processingJobsOk_finishJob (h : Db.ProcessingJobsOk rows)
    (hfound : rows.find? (fun job => decide (job.id = jobId)) = some job)
    (hstatus : job.status = .created) (hattempts : job.attemptCount = 0) :
    Db.ProcessingJobsOk (finishJob jobId rows) := by
  refine processingJobsOk_updateWhere h (fun _ => rfl) (fun _ => rfl) fun job' hjob' hid => ?_
  have hfound' := (find?_eq_some_iff_of_nodup h.id).mpr ⟨hjob', hid⟩
  rw [hfound] at hfound'
  cases hfound'
  simp [finishRow, ProcessingJob.activeIdempotencyKey, hstatus, hattempts]

theorem activeIdempotencyKey_updateWhere {f : ProcessingJob → ProcessingJob}
    (h : Db.ProcessingJobsOk rows)
    (hfound : rows.find? (fun job => decide (job.id = jobId)) = some job)
    (hf : (f job).activeIdempotencyKey = job.activeIdempotencyKey) (key : IdempotencyKey) :
    (∀ job ∈ updateWhere (fun job => decide (job.id = jobId)) f rows,
        job.activeIdempotencyKey ≠ some key) ↔
      ∀ job ∈ rows, job.activeIdempotencyKey ≠ some key := by
  have hsame : ∀ job' ∈ rows, decide (job'.id = jobId) = true →
      (f job').activeIdempotencyKey = job'.activeIdempotencyKey := by
    intro job' hjob' hid
    have hfound' := (find?_eq_some_iff_of_nodup h.id).mpr ⟨hjob', of_decide_eq_true hid⟩
    rw [hfound] at hfound'
    cases hfound'
    exact hf
  have hkeys := filterMap_updateWhere ProcessingJob.activeIdempotencyKey hsame
  have hmem : ∀ rows : List ProcessingJob,
      (∀ job ∈ rows, job.activeIdempotencyKey ≠ some key) ↔
        key ∉ rows.filterMap ProcessingJob.activeIdempotencyKey := by
    intro rows
    simp only [List.mem_filterMap, not_exists, not_and]
  rw [hmem, hmem, hkeys]

end rows

/-! ## Fresh Ids -/

/-- The ids in a key that were handed out for it are below `n`. -/
def IdempotencyKey.Below (n : Id) : IdempotencyKey → Prop
  | .analysisRun _ _ _ jobId => jobId < n
  | .ttsCoordinator _ jobId => jobId < n
  | .storyBible storyBibleVersionId _ _ => storyBibleVersionId < n
  | _ => True

instance (n : Id) : (key : IdempotencyKey) → Decidable (key.Below n)
  | .analysisRun _ _ _ jobId => inferInstanceAs (Decidable (jobId < n))
  | .ttsCoordinator _ jobId => inferInstanceAs (Decidable (jobId < n))
  | .storyBible storyBibleVersionId _ _ => inferInstanceAs (Decidable (storyBibleVersionId < n))
  | .assembleChapter .. | .assembleAudiobook .. | .assembleAudiobookManifest ..
  | .encodeDeliveryFormat .. | .analyzeScene .. | .directorRun .. | .directorChapter .. | .tts ..
  | .other _ => isTrue trivial

theorem IdempotencyKey.Below.mono {n n' : Id} {key : IdempotencyKey} (h : key.Below n)
    (hle : n ≤ n') : key.Below n' := by
  cases key <;> first | exact Nat.lt_of_lt_of_le h hle | trivial

/-- The ids that are handed out next are not in use. -/
structure IdsFresh (s : Store) : Prop where
  jobs : ∀ job ∈ s.processingJobs, job.id < s.nextId
  keys : ∀ job ∈ s.processingJobs, job.idempotencyKey.Below s.nextId
  queue : ∀ m ∈ s.queue, m.jobId < s.nextId
  flags : ∀ i ∈ s.cancellationFlags, i < s.nextId

end AudioBook
