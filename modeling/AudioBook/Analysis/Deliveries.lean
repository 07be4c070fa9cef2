import AudioBook.Analysis.Service
import AudioBook.Jobs.NewRows
import AudioBook.Workers.TerminalRows

/-!
# Deliveries of an Analysis

How a worker's program goes on when nothing fails from outside, and what one delivery of a message
of the chain makes of the store then: the job of the message succeeds, the row of the next job is
there and its message is on the broker. The one thing that can go wrong is the idempotency key of
the next job: when a live row holds it, the session is rolled back, on every attempt.

Main results:

- `redeliver_analyzeScene`, `redeliver_delta`, `redeliver_delta_of_held`: the three deliveries.
-/

namespace AudioBook

open Relational Concurrent

/-! ## Pending Jobs -/

section pending

variable {s : Store} {m : Envelope} {job : ProcessingJob}

def whileRunning (jobId : Id) (s : Store) : Store :=
  { s with processingJobs := startJob jobId s.processingJobs }

theorem markJobRunning_of_pending (h : Db.ProcessingJobsOk s.processingJobs)
    (hjob : PendingJob m s job) :
    markJobRunning m.jobId s = .ok ((), whileRunning m.jobId s) :=
  setJob_eq_ok_iff.mpr ⟨Db.processingJob_accepts_iff.mpr
    (processingJobsOk_startJob h hjob.found hjob.status hjob.attemptCount), rfl⟩

theorem PendingJob.afterIds (hjob : PendingJob m s job) (n : ℕ) :
    PendingJob m (AudioBook.afterIds n s) job :=
  ⟨hjob.found, hjob.status, hjob.attemptCount, hjob.notRequested, hjob.notFlagged⟩

theorem IdsFresh.afterIds (h : IdsFresh s) (n : ℕ) : IdsFresh (AudioBook.afterIds n s) := by
  have hle : s.nextId ≤ (AudioBook.afterIds n s).nextId := Nat.le_add_right _ _
  exact ⟨fun job hjob => (h.jobs job hjob).trans_le hle, fun job hjob => (h.keys job hjob).mono hle,
    fun m hm => (h.queue m hm).trans_le hle, fun i hi => (h.flags i hi).trans_le hle⟩

end pending

/-! ## Programs -/

namespace Worker

variable {α β : Type} {s s' : Store}

/-- Nothing fails from outside. -/
abbrev Undisturbed : WorkerAccess → Option WorkerError := fun _ => none

theorem evaluate_query_bind {f : Store → α} {k : α → Worker β} :
    (query f >>= k).evaluate Undisturbed s = (k (f s)).evaluate Undisturbed s :=
  Prog.evaluate_read_bind rfl

theorem evaluate_run_bind {a : WorkerAccess} {k : Unit → Worker β}
    (h : a.session s = .ok ((), s')) :
    (run a >>= k).evaluate Undisturbed s = (k ()).evaluate Undisturbed s' :=
  Prog.evaluate_bind_of_ok (Prog.evaluate_atomically rfl h)

theorem evaluate_run_of_error {a : WorkerAccess} {k : Unit → Worker β} {e : WorkerError}
    (h : a.session s = .error e) :
    (run a >>= k).evaluate Undisturbed s = (.error e, s) := by
  rw [Prog.evaluate_bind, evaluate_run]
  simp only [h]

theorem evaluate_enqueue {envelope : Envelope} (h : ∀ m ∈ s.queue, m.jobId ≠ envelope.jobId) :
    (run (.enqueue envelope)).evaluate Undisturbed s =
      (.ok (), { s with queue := s.queue ++ [envelope] }) := by
  refine Prog.evaluate_atomically rfl ?_
  show Except.ok ((), if _ then s else _) = _
  rw [if_neg]
  rw [List.any_eq_true]
  rintro ⟨m, hm, heq⟩
  exact h m hm (of_decide_eq_true heq)

end Worker

open Worker

theorem evaluate_process_of_pending {s : Store} {job : ProcessingJob} {d : WorkerDelivery}
    (hjob : PendingJob d.ctx.envelope s job) (hdraining : d.draining = false)
    (hwellFormed : d.wellFormed = true) :
    (process d).evaluate Undisturbed s =
      match (handleJob d.ctx).evaluate Undisturbed s with
      | (.ok u, s') => (.ok u, s')
      | (.error (.terminal _), s') => (.error .unrecoverable, s')
      | (.error e, s') => (.error e, s') := by
  have hseen : ¬ CancellationSeen Undisturbed job s := by
    rintro (hcolumn | ⟨-, hflag⟩)
    · rw [hjob.notRequested] at hcolumn
      cases hcolumn
    · have hid : job.id = d.ctx.envelope.jobId := by simpa using List.find?_some hjob.found
      exact hjob.notFlagged (hid ▸ hflag)
  have hgate := (evaluate_gate rfl hjob.found).2.2 (by simp [hjob.status]) hseen
  have hgated : (gatedHandler d.ctx).evaluate Undisturbed s =
      (handleJob d.ctx).evaluate Undisturbed s := Prog.evaluate_bind_of_ok hgate
  rw [process, if_neg (by simp [hdraining]), if_neg (by simp [hwellFormed])]
  refine (Prog.evaluate_tryCatch (p := gatedHandler d.ctx)).trans ?_
  rw [hgated]
  rcases (handleJob _).evaluate Undisturbed s with ⟨err | u, s'⟩
  · cases err <;> rfl
  · rfl

/-! ## Sessions -/

section sessions

variable {s : Store} {m : Envelope} {job child : ProcessingJob}

/-- The store after a message's job ran, succeeded and created the next job. -/
def afterLink (m : Envelope) (child : ProcessingJob) (s : Store) : Store :=
  { s with processingJobs := finishJob m.jobId s.processingJobs ++ [child] }

/-- What makes a row the one of a next job of the chain. -/
structure NextJob (child : ProcessingJob) (s : Store) : Prop where
  id : child.id ∉ s.processingJobs.map ProcessingJob.id
  parent : ∀ i ∈ child.parentJobId, i ∈ s.processingJobs.map ProcessingJob.id
  status : child.status = .created
  attemptCount : child.attemptCount = 0

theorem processingJobsOk_next_iff (h : Db.ProcessingJobsOk s.processingJobs)
    (hjob : PendingJob m s job) (hchild : NextJob child s) :
    Db.ProcessingJobsOk (startJob m.jobId s.processingJobs ++ [child]) ↔
      ∀ job ∈ s.processingJobs, job.activeIdempotencyKey ≠ some child.idempotencyKey := by
  rw [processingJobsOk_concat_iff
    (processingJobsOk_startJob h hjob.found hjob.status hjob.attemptCount)
    (by rw [map_id_startJob]; exact hchild.id) (by rw [map_id_startJob]; exact hchild.parent)
    hchild.status hchild.attemptCount]
  refine activeIdempotencyKey_updateWhere h hjob.found ?_ _
  simp [startRow, ProcessingJob.activeIdempotencyKey, hjob.status]

theorem processingJobsOk_afterLink (h : Db.ProcessingJobsOk s.processingJobs)
    (hjob : PendingJob m s job) (hchild : NextJob child s)
    (hfree : ∀ job ∈ s.processingJobs, job.activeIdempotencyKey ≠ some child.idempotencyKey) :
    Db.ProcessingJobsOk (afterLink m child s).processingJobs := by
  refine (processingJobsOk_concat_iff
    (processingJobsOk_finishJob h hjob.found hjob.status hjob.attemptCount)
    (by rw [map_id_finishJob]; exact hchild.id) (by rw [map_id_finishJob]; exact hchild.parent)
    hchild.status hchild.attemptCount).mpr ?_
  refine (activeIdempotencyKey_updateWhere h hjob.found ?_ _).mpr hfree
  simp [finishRow, ProcessingJob.activeIdempotencyKey, hjob.status]

theorem persistAnalysis_whileRunning (h : Db.ProcessingJobsOk s.processingJobs)
    (hjob : PendingJob m s job) (hchild : NextJob child s)
    (hfree : ∀ job ∈ s.processingJobs, job.activeIdempotencyKey ≠ some child.idempotencyKey) :
    persistAnalysis m.jobId child (whileRunning m.jobId s) = .ok ((), afterLink m child s) := by
  have hinsert : createChildJob child (whileRunning m.jobId s) = .ok ((),
      { whileRunning m.jobId s with
        processingJobs := startJob m.jobId s.processingJobs ++ [child] }) :=
    (Table.insert_eq_ok_iff (ε := WorkerError) Db.processingJob).mpr
      ⟨Db.processingJob_accepts_iff.mpr ((processingJobsOk_next_iff h hjob hchild).mpr hfree), rfl⟩
  have hne : child.id ≠ m.jobId := by
    rintro heq
    refine hchild.id (heq ▸ List.mem_map.mpr ⟨job, List.mem_of_find?_eq_some hjob.found, ?_⟩)
    simpa using List.find?_some hjob.found
  rw [persistAnalysis, Transaction.bind_eq_of_ok hinsert]
  refine setJob_eq_ok_iff.mpr ⟨Db.processingJob_accepts_iff.mpr ?_, ?_⟩
  · show Db.ProcessingJobsOk (updateWhere _ _ (startJob _ _ ++ [child]))
    rw [updateWhere_running_succeeded hne]
    exact processingJobsOk_afterLink h hjob hchild hfree
  · show afterLink m child s =
      { s with processingJobs := updateWhere _ _ (startJob _ _ ++ [child]) }
    rw [updateWhere_running_succeeded hne]
    rfl

theorem integrateDelta_chain (h : Db.ProcessingJobsOk s.processingJobs) (hjob : PendingJob m s job)
    (hchild : NextJob child s)
    (hfree : ∀ job ∈ s.processingJobs, job.activeIdempotencyKey ≠ some child.idempotencyKey) :
    integrateDelta m.jobId (.chain child) s = .ok ((), afterLink m child s) :=
  (Transaction.bind_eq_of_ok (markJobRunning_of_pending h hjob)).trans
    (persistAnalysis_whileRunning h hjob hchild hfree)

theorem integrateDelta_of_held (h : Db.ProcessingJobsOk s.processingJobs)
    (hjob : PendingJob m s job) (hchild : NextJob child s)
    (hheld : ∃ job ∈ s.processingJobs, job.activeIdempotencyKey = some child.idempotencyKey) :
    ∃ v, integrateDelta m.jobId (.chain child) s = .error (.database (.violation v)) := by
  have hinsert : ∃ v, createChildJob child (whileRunning m.jobId s) =
      .error (.database (.violation v)) := by
    rw [createChildJob, Table.insert, Table.insertMany, Table.statement]
    split
    · next c hc => exact ⟨c.violation, rfl⟩
    · next hnone =>
      -- No constraint is broken, so the key is free.
      have hok : Db.processingJob.Accepts (startJob m.jobId s.processingJobs ++ [child]) := by
        intro c hc
        have hholds := List.find?_eq_none.mp hnone c hc
        rw [Bool.not_eq_true, Bool.not_eq_false'] at hholds
        exact hholds
      obtain ⟨job', hjob', hkey⟩ := hheld
      exact absurd hkey ((processingJobsOk_next_iff h hjob hchild).mp
        (Db.processingJob_accepts_iff.mp hok) job' hjob')
  obtain ⟨v, hv⟩ := hinsert
  refine ⟨v, (Transaction.bind_eq_of_ok (markJobRunning_of_pending h hjob)).trans ?_⟩
  exact Transaction.bind_eq_error hv

end sessions

/-! ## Deliveries -/

open Worker

section deliveries

variable {s s' : Store} {m : Envelope} {job child : ProcessingJob} {modelVersionId : Id}
  {attempt n : ℕ}

theorem redeliver_of_ok (hjob : PendingJob m s job)
    (h : (handleJob (analysisDelivery modelVersionId m attempt).ctx).evaluate Undisturbed s
      = (.ok (), s')) : redeliver modelVersionId m attempt (n + 1) s = s' := by
  have hprocess := evaluate_process_of_pending (d := analysisDelivery modelVersionId m attempt) hjob rfl rfl
  rw [h] at hprocess
  rw [redeliver, hprocess]

theorem redeliver_of_violation (hjob : PendingJob m s job) {v : Violation}
    (h : (handleJob (analysisDelivery modelVersionId m attempt).ctx).evaluate Undisturbed s
      = (.error (.database (.violation v)), s')) :
    redeliver modelVersionId m attempt (n + 1) s
      = redeliver modelVersionId m (attempt + 1) n s' := by
  have hprocess := evaluate_process_of_pending (d := analysisDelivery modelVersionId m attempt) hjob rfl rfl
  rw [h] at hprocess
  rw [redeliver, hprocess]
  exact if_neg (by simp)

def AnalysisPayload.storyBible (payload : AnalysisPayload) (s : Store) : Id :=
  payload.storyBibleVersionId.getD s.nextId

def nextDeltaJob (payload : AnalysisPayload) (modelVersionId : Id) (s : Store) : ProcessingJob :=
  deltaJob (s.nextId + 1) payload (payload.storyBible s) modelVersionId

/-- The next message, after a chapter was analysed. -/
def nextDelta (payload : AnalysisPayload) (s : Store) : Envelope :=
  deltaEnvelope (s.nextId + 1) payload (payload.storyBible s)

/-- The store after a link of the chain: ids were handed out and the next message is there. -/
def afterDelivery (m : Envelope) (child : ProcessingJob) (next : Envelope) (ids : ℕ) (s : Store) :
    Store :=
  { s with
    processingJobs := finishJob m.jobId s.processingJobs ++ [child]
    queue := s.queue ++ [next]
    nextId := s.nextId + ids }

variable {payload : AnalysisPayload}

theorem redeliver_analyzeScene (hpayload : m.payload = .analyzeScene payload)
    (h : Db.ProcessingJobsOk s.processingJobs) (hfresh : IdsFresh s) (hjob : PendingJob m s job)
    (hchapter : (findChapter payload.chapterId s).isSome)
    (hversion : (findBookVersion payload.bookVersionId s).isSome)
    (hroot : payload.rootJobId ∈ s.processingJobs.map ProcessingJob.id)
    (hfree : ∀ job ∈ s.processingJobs,
      job.activeIdempotencyKey ≠ some (nextDeltaJob payload modelVersionId s).idempotencyKey) :
    redeliver modelVersionId m attempt (n + 1) s =
      afterDelivery m (nextDeltaJob payload modelVersionId s) (nextDelta payload s) 2 s := by
  refine redeliver_of_ok hjob ?_
  have hnext : NextJob (nextDeltaJob payload modelVersionId s) (afterIds 2 s) := by
    refine ⟨fun hmem => ?_, fun i hi => ?_, rfl, rfl⟩
    · obtain ⟨job', hjob', hid⟩ := List.mem_map.mp hmem
      have hlt : s.nextId + 1 < s.nextId := hid.symm.trans_lt (hfresh.jobs job' hjob')
      exact absurd hlt (Nat.not_lt.mpr (Nat.le_succ _))
    · obtain rfl := Option.mem_some_iff.mp hi
      exact hroot
  -- The ids are handed out between the two sessions.
  have hpersist : (WorkerAccess.persistAnalysis m.jobId
      (nextDeltaJob payload modelVersionId s)).session (afterIds 2 (whileRunning m.jobId s)) =
        .ok ((), afterLink m (nextDeltaJob payload modelVersionId s) (afterIds 2 s)) :=
    persistAnalysis_whileRunning (s := afterIds 2 s) h (hjob.afterIds 2) hnext hfree
  have hbegin : (WorkerAccess.begin m.jobId).session s = .ok ((), whileRunning m.jobId s) :=
    markJobRunning_of_pending h hjob
  have henvelope : (analysisDelivery modelVersionId m attempt).ctx.envelope = m := rfl
  rw [handleJob, henvelope, hpayload]
  dsimp only
  rw [handleAnalyzeScene, henvelope, evaluate_query_bind, hjob.found]
  dsimp only
  rw [if_neg (by simp [hjob.status]), evaluate_query_bind, evaluate_query_bind]
  rw [if_neg]
  · show (Worker.run (.begin m.jobId) >>= _).evaluate Undisturbed s = _
    rw [evaluate_run_bind hbegin]
    show (Worker.run (.persistAnalysis m.jobId (nextDeltaJob payload modelVersionId s)) >>=
      fun _ => Worker.run (.enqueue (nextDelta payload s))).evaluate Undisturbed
        (afterIds 2 (whileRunning m.jobId s)) = _
    rw [evaluate_run_bind hpersist, evaluate_enqueue]
    · rfl
    · intro m' hm' heq
      have hlt : s.nextId + 1 < s.nextId := heq.symm.trans_lt (hfresh.queue m' hm')
      exact absurd hlt (Nat.not_lt.mpr (Nat.le_succ _))
  · rw [not_or, Option.isNone_iff_eq_none, ← ne_eq, Option.ne_none_iff_isSome]
    refine ⟨hchapter, ?_⟩
    rw [Option.isNone_iff_eq_none, ← ne_eq, Option.ne_none_iff_isSome]
    exact hversion

/-- The job of the next chapter, after the facts of a chapter were integrated. -/
def nextAnalyzeJob (payload : AnalysisPayload) (nextChapterId : Id) (s : Store) : ProcessingJob :=
  analyzeJob s.nextId payload nextChapterId

variable {nextChapterId : Id}

theorem nextJob_nextAnalyzeJob (hfresh : IdsFresh s)
    (hroot : payload.rootJobId ∈ s.processingJobs.map ProcessingJob.id) :
    NextJob (nextAnalyzeJob payload nextChapterId s) (afterIds 1 s) := by
  refine ⟨fun hmem => ?_, fun i hi => ?_, rfl, rfl⟩
  · obtain ⟨job', hjob', hid⟩ := List.mem_map.mp hmem
    have hlt : s.nextId < s.nextId := hid.symm.trans_lt (hfresh.jobs job' hjob')
    exact absurd hlt (Nat.lt_irrefl _)
  · obtain rfl := Option.mem_some_iff.mp hi
    exact hroot

variable {remaining : List Id}

theorem evaluate_handleJob_delta (hpayload : m.payload = .buildStoryBibleDelta payload)
    (hremaining : payload.remainingChapterIds = nextChapterId :: remaining)
    (hjob : PendingJob m s job) (hchapter : (findChapter nextChapterId s).isSome) :
    (handleJob (analysisDelivery modelVersionId m attempt).ctx).evaluate Undisturbed s =
      (Worker.run (.integrateDelta m.jobId (.chain (nextAnalyzeJob payload nextChapterId s))) >>=
        fun _ => Worker.query (findChapter nextChapterId) >>= fun _ => Worker.run (.enqueue
          (analyzeEnvelope s.nextId payload nextChapterId remaining))).evaluate Undisturbed
        (afterIds 1 s) := by
  have henvelope : (analysisDelivery modelVersionId m attempt).ctx.envelope = m := rfl
  rw [handleJob, henvelope, hpayload]
  dsimp only
  rw [handleBuildStoryBibleDelta, henvelope, evaluate_query_bind, hjob.found]
  dsimp only
  rw [if_neg (by simp [hjob.status]), evaluate_query_bind, hremaining]
  dsimp only
  rw [evaluate_query_bind, if_neg]
  · rfl
  · rw [Option.isNone_iff_eq_none, ← ne_eq, Option.ne_none_iff_isSome]
    exact hchapter

theorem redeliver_delta (hpayload : m.payload = .buildStoryBibleDelta payload)
    (hremaining : payload.remainingChapterIds = nextChapterId :: remaining)
    (h : Db.ProcessingJobsOk s.processingJobs) (hfresh : IdsFresh s) (hjob : PendingJob m s job)
    (hchapter : (findChapter nextChapterId s).isSome)
    (hroot : payload.rootJobId ∈ s.processingJobs.map ProcessingJob.id)
    (hfree : ∀ job ∈ s.processingJobs,
      job.activeIdempotencyKey ≠ some (nextAnalyzeJob payload nextChapterId s).idempotencyKey) :
    redeliver modelVersionId m attempt (n + 1) s =
      afterDelivery m (nextAnalyzeJob payload nextChapterId s)
        (analyzeEnvelope s.nextId payload nextChapterId remaining) 1 s := by
  refine redeliver_of_ok hjob ?_
  have hintegrate : (WorkerAccess.integrateDelta m.jobId
      (.chain (nextAnalyzeJob payload nextChapterId s))).session (afterIds 1 s) =
        .ok ((), afterLink m (nextAnalyzeJob payload nextChapterId s) (afterIds 1 s)) :=
    integrateDelta_chain (s := afterIds 1 s) h (hjob.afterIds 1)
      (nextJob_nextAnalyzeJob hfresh hroot) hfree
  rw [evaluate_handleJob_delta hpayload hremaining hjob hchapter, evaluate_run_bind hintegrate,
    evaluate_query_bind, evaluate_enqueue]
  · rfl
  · intro m' hm' heq
    have hlt : s.nextId < s.nextId := heq.symm.trans_lt (hfresh.queue m' hm')
    exact absurd hlt (Nat.lt_irrefl _)

theorem redeliver_delta_of_held (hpayload : m.payload = .buildStoryBibleDelta payload)
    (hremaining : payload.remainingChapterIds = nextChapterId :: remaining)
    (h : Db.ProcessingJobsOk s.processingJobs) (hfresh : IdsFresh s) (hjob : PendingJob m s job)
    (hchapter : (findChapter nextChapterId s).isSome)
    (hroot : payload.rootJobId ∈ s.processingJobs.map ProcessingJob.id)
    (hheld : ∃ job ∈ s.processingJobs, job.activeIdempotencyKey =
      some (.analyzeScene payload.bookVersionId nextChapterId payload.analysisMode)) :
    redeliver modelVersionId m attempt n s = afterIds n s := by
  induction n generalizing attempt s with
  | zero => rfl
  | succ n ih =>
    obtain ⟨v, hv⟩ := integrateDelta_of_held (s := afterIds 1 s) h (hjob.afterIds 1)
      (nextJob_nextAnalyzeJob hfresh hroot) hheld
    have hfail : (handleJob (analysisDelivery modelVersionId m attempt).ctx).evaluate Undisturbed s
        = (.error (.database (.violation v)), afterIds 1 s) := by
      rw [evaluate_handleJob_delta hpayload hremaining hjob hchapter]
      exact evaluate_run_of_error hv
    rw [redeliver_of_violation hjob hfail,
      ih (s := AudioBook.afterIds 1 s) h (hfresh.afterIds 1) (hjob.afterIds 1) hchapter hroot hheld]
    simp only [AudioBook.afterIds, Nat.add_assoc, Nat.add_comm 1 n]

end deliveries

end AudioBook
