import AudioBook.Jobs.ReplayHandlers

/-!
# Programs That Keep to One Row

What the processors write, whatever happens around them: to which rows of jobs, and in which order.

Main results:

- `keepsToRow_of_writes`: a program whose statements are on one row, and the last of which gives it
  a terminal state, keeps to this row.
- `keepsToRow_behind`: so does a processor behind a gate, if it does so where the gate lets it run.
- `isGate_haltIfCancelled` and `isGate_workerHaltIfCancelled`: the two gates.
-/

namespace AudioBook.Replay

open Concurrent Prog Relational

/-! ## The Statements of a Program -/

/-- A program changes the rows by statements of a kind only. -/
def Writes {α : Type} (ok : RowWrite → Prop) (p : RowProg α) : Prop :=
  p.Always fun _ w => w = id ∨ ∃ writes, (∀ write ∈ writes, ok write) ∧ w = applyWrites writes

section writes

variable {α β : Type} {ok : RowWrite → Prop}

theorem writes_query (n : ℕ) (f : ReplayStore → α) : Writes ok (query n f) :=
  always_read (.inl rfl)

theorem writes_query_bind {n : ℕ} {f : ReplayStore → α} {k : α → RowProg β}
    (h : ∀ s, Writes ok (k (f s))) : Writes ok (query n f >>= k) :=
  always_read_bind (.inl rfl) h

theorem writes_work (n : ℕ) : Writes ok (work n) := always_read (.inl rfl)

theorem writes_write {writes : List RowWrite} (h : ∀ write ∈ writes, ok write) :
    Writes ok (write writes) :=
  ⟨.inr ⟨writes, h, rfl⟩, fun _ => trivial, fun _ => trivial⟩

variable {p : RowProg α}

theorem writes_bind {f : α → RowProg β} (hp : Writes ok p) (hf : ∀ a, Writes ok (f a)) :
    Writes ok (p >>= f) :=
  always_bind hp hf

theorem writes_tryCatch {handler : RowError → RowProg α} (hp : Writes ok p)
    (hh : ∀ e, Writes ok (handler e)) : Writes ok (tryCatchThe RowError p handler) :=
  always_tryCatch hp hh

theorem Writes.mono {ok' : RowWrite → Prop} (h : Writes ok p) (hok : ∀ write, ok write → ok' write) :
    Writes ok' p := by
  refine Always.mono ?_ h
  rintro _ w (rfl | ⟨writes, hwrites, rfl⟩)
  · exact .inl rfl
  · exact .inr ⟨writes, fun write hwrite => hok write (hwrites write hwrite), rfl⟩

theorem related_applyWrites {R : ReplayStore → ReplayStore → Prop} [IsPreorder ReplayStore R]
    (hR : ∀ write, ok write → ∀ s, R s (write.apply s)) {writes : List RowWrite}
    (h : ∀ write ∈ writes, ok write) (s : ReplayStore) : R s (applyWrites writes s) := by
  induction writes generalizing s with
  | nil => exact refl_of R s
  | cons write writes ih =>
      have hwrite : R s (write.apply s) := hR write (h write List.mem_cons_self) s
      exact trans_of R hwrite (ih (fun w hw => h w (List.mem_cons_of_mem _ hw)) _)

theorem Writes.related {R : ReplayStore → ReplayStore → Prop} [IsPreorder ReplayStore R]
    (h : Writes ok p) (hR : ∀ write, ok write → ∀ s, R s (write.apply s))
    (outage : RowAccess → Option RowError) (s : ReplayStore) : R s (p.evaluate outage s).2 := by
  refine evaluate_related (Always.mono ?_ h) s
  rintro _ w (rfl | ⟨writes, hwrites, rfl⟩) s
  · exact refl_of R s
  · exact related_applyWrites hR hwrites s

end writes

/-- A statement on the row of one job, or on a row that is not one of a job, or on a new row. -/
def RowWrite.ActsOn (jobId : Id) : RowWrite → Prop
  | job id _ => id = jobId
  | root id => id = jobId
  | child _ | beginSynthesis _ | synthesis _ _ | preview _ _ => True
  | deleteOthers _ _ => False

/-- The rows of all jobs but one stay as they are. -/
def OnlyRow (jobId : Id) (s s' : ReplayStore) : Prop :=
  Lookup JobRow.id (fun job job' => job.id = jobId ∨ job' = job) s.jobs s'.jobs

instance (jobId : Id) : IsPreorder JobRow fun job job' => job.id = jobId ∨ job' = job where
  refl _ := .inr rfl
  trans job₁ job₂ job₃ h₁ h₂ := by
    rcases h₁ with h₁ | rfl
    · exact .inl h₁
    · exact h₂

instance (jobId : Id) : IsPreorder ReplayStore (OnlyRow jobId) where
  refl s := refl_of (Lookup JobRow.id fun job job' => job.id = jobId ∨ job' = job) s.jobs
  trans _ _ _ := trans_of (Lookup JobRow.id fun job job' => job.id = jobId ∨ job' = job)

variable {jobId : Id}

theorem onlyRow_updateJobs {p : JobRow → Bool} {f : JobRow → JobRow}
    (hid : ∀ job, (f job).id = job.id) (hp : ∀ job, p job = true → job.id = jobId) (s : ReplayStore) :
    OnlyRow jobId s (updateJobs p f s) :=
  Lookup.updateWhere hid fun job hjob => .inl (hp job hjob)

theorem onlyRow_apply {write : RowWrite} (h : write.ActsOn jobId) (s : ReplayStore) :
    OnlyRow jobId s (write.apply s) := by
  cases write with
  | job id status =>
      have hid : ∀ job : JobRow, decide (job.id = id) = true → job.id = jobId :=
        fun _ hjob => (of_decide_eq_true hjob).trans h
      exact onlyRow_updateJobs (f := (·.withStatus status)) (fun _ => rfl) hid s
  | root id =>
      have hid : ∀ job : JobRow, decide (job.id = id ∧ ¬ hasEnded job.status) = true →
          job.id = jobId := fun _ hjob => (of_decide_eq_true hjob).1.trans h
      exact onlyRow_updateJobs (f := (·.withStatus .succeeded)) (fun _ => rfl) hid s
  | child bookId => exact Lookup.append _ _
  | beginSynthesis ttsJobId => exact refl_of (OnlyRow jobId) s
  | synthesis ttsJobId status => exact refl_of (OnlyRow jobId) s
  | preview previewId status => exact refl_of (OnlyRow jobId) s
  | deleteOthers bookId purgeJobId => exact h.elim

/-! ### The Writes of the Processors -/

theorem id_of_findJob {s : ReplayStore} {job : JobRow} (h : findJob jobId s = some job) :
    job.id = jobId := by
  have hid := List.find?_some h
  exact of_decide_eq_true hid

theorem writes_job (status : JobStatus) :
    Writes (RowWrite.ActsOn jobId) (write [.job jobId status]) := by
  refine writes_write fun write hwrite => ?_
  obtain rfl := List.mem_singleton.mp hwrite
  exact rfl

theorem writes_recordFailure (jobId : Id) (settled : List JobStatus) :
    Writes (RowWrite.ActsOn jobId) (recordFailure jobId settled) := by
  refine writes_bind (writes_query _ _) fun current => ?_
  rcases current with _ | current
  · trivial
  · dsimp only
    split
    · trivial
    · exact writes_job .failed

theorem writes_run (p : Processor) (d : Delivery) (jobId : Id) :
    Writes (RowWrite.ActsOn jobId) (p.run d jobId) := by
  refine writes_tryCatch ?_ fun e => ?_
  · refine writes_bind (writes_work 2) fun _ => ?_
    exact writes_bind (writes_job .succeeded) fun _ => writes_work 3
  · split
    · exact writes_bind (writes_recordFailure _ _) fun _ => trivial
    · trivial

theorem writes_process (p : Processor) {d : Delivery} {e : Id} (he : d.message.entityId = some e) :
    Writes (RowWrite.ActsOn e) (p.process d) := by
  rw [Processor.process, he]
  refine writes_query_bind fun s => ?_
  cases hjob : findJob e s with
  | none => trivial
  | some job =>
      obtain rfl := id_of_findJob hjob
      dsimp only
      split
      · trivial
      refine writes_bind (writes_work 0) fun _ => ?_
      split
      · exact writes_recordFailure _ _
      · exact writes_bind (writes_job .succeeded) fun _ => writes_work 1
      · exact writes_bind (writes_job .running) fun _ => writes_run p d job.id

variable {ok : RowWrite → Prop}

theorem writes_purgeBook {bookId : Id} (hdelete : ok (.deleteOthers bookId jobId))
    (hjob : ∀ status, ok (.job jobId status)) : Writes ok (purgeBook bookId jobId) := by
  refine writes_tryCatch ?_ fun _ => ?_
  · refine writes_bind (writes_work 2) fun _ => ?_
    refine writes_bind (writes_write (by simpa using hdelete)) fun _ => ?_
    exact writes_bind (writes_work 3) fun _ => writes_write (by simpa using hjob .succeeded)
  · exact writes_bind (writes_write (by simpa using hjob .failed)) fun _ => trivial

theorem writes_withOpenJob {handler : JobRow → RowProg Unit} (h : ∀ job, Writes ok (handler job)) :
    Writes ok (withOpenJob jobId handler) := by
  refine writes_bind (writes_query _ _) fun job => ?_
  rcases job with _ | job
  · trivial
  · dsimp only
    split
    · trivial
    · exact h job

theorem writes_callModel {d : Delivery} (hjob : ∀ status, ok (.job d.message.jobId status)) :
    Writes ok (callModel d) := by
  refine writes_tryCatch (writes_work 2) fun e => ?_
  split
  · exact writes_bind (writes_write (by simpa using hjob .failed)) fun _ => trivial
  · trivial

theorem writes_handleAnalyzeScene (d : Delivery) :
    Writes (RowWrite.ActsOn d.message.jobId) (handleAnalyzeScene d) := by
  refine writes_withOpenJob fun job => writes_bind (writes_work 0) fun _ => ?_
  refine writes_bind (writes_job .running) fun _ => ?_
  refine writes_bind (writes_callModel fun _ => rfl) fun _ => ?_
  exact writes_bind (writes_write (by simp [RowWrite.ActsOn])) fun _ => writes_work 3

theorem writes_handleGenerateDirectorIr {rootJobId : Option Id} {remaining : List Id} {d : Delivery}
    (hjob : ∀ status, ok (.job d.message.jobId status))
    (hchild : remaining ≠ [] → ∀ bookId, ok (.child bookId))
    (hroot : remaining = [] → ok (.root (rootJobId.getD d.message.jobId))) :
    Writes ok (handleGenerateDirectorIr rootJobId remaining d) := by
  refine writes_withOpenJob fun job => writes_bind (writes_work 0) fun _ => ?_
  refine writes_bind (writes_write (by simpa using hjob .running)) fun _ => ?_
  refine writes_bind (writes_callModel hjob) fun _ => ?_
  split
  · next hlast =>
    refine writes_bind (writes_work 3) fun _ => writes_write ?_
    simpa using ⟨hjob .succeeded, hroot hlast⟩
  · next hmore =>
    refine writes_bind (writes_write ?_) fun _ => writes_work 4
    simpa using ⟨hchild hmore job.bookId, hjob .succeeded⟩

theorem writes_handleReviseDirectorIr (d : Delivery) :
    Writes (RowWrite.ActsOn d.message.jobId) (handleReviseDirectorIr d) := by
  refine writes_withOpenJob fun job => ?_
  split
  · exact writes_write (by simp [RowWrite.ActsOn])
  · refine writes_bind (writes_work 0) fun _ => writes_bind (writes_job .running) fun _ => ?_
    exact writes_bind (writes_work 2) fun _ => writes_job .succeeded

theorem writes_handleGenerateTtsChunk (ttsJobId : Id) (d : Delivery) :
    Writes (RowWrite.ActsOn d.message.jobId) (handleGenerateTtsChunk ttsJobId d) := by
  refine writes_withOpenJob fun job => writes_bind (writes_query _ _) fun ttsJob => ?_
  rcases ttsJob with _ | ttsJob
  · trivial
  dsimp only
  split
  · exact writes_job .succeeded
  split
  · exact writes_write (by simp [RowWrite.ActsOn])
  refine writes_bind (writes_work 0) fun _ => ?_
  refine writes_bind (writes_write (by simp [RowWrite.ActsOn])) fun _ => ?_
  refine writes_bind (writes_tryCatch ?_ fun e => ?_) fun _ => ?_
  · exact writes_bind (writes_work 2) fun _ => writes_work 3
  · split
    · exact writes_bind (writes_write (by simp [RowWrite.ActsOn])) fun _ => trivial
    · trivial
  · exact writes_write (by simp [RowWrite.ActsOn])

theorem writes_handleGenerateVoicePreview (previewId : Id) (d : Delivery) :
    Writes (RowWrite.ActsOn d.message.jobId) (handleGenerateVoicePreview previewId d) := by
  refine writes_withOpenJob fun job => writes_bind (writes_query _ _) fun preview => ?_
  rcases preview with _ | preview
  · trivial
  dsimp only
  split
  · exact writes_job .succeeded
  refine writes_bind (writes_work 0) fun _ => writes_bind (writes_job .running) fun _ => ?_
  refine writes_bind (writes_tryCatch (writes_work 2) fun e => ?_) fun _ => ?_
  · split
    · exact writes_bind (writes_write (by simp [RowWrite.ActsOn])) fun _ => trivial
    · trivial
  · exact writes_bind (writes_work 3) fun _ => writes_write (by simp [RowWrite.ActsOn])

theorem writes_haltIfCancelled (jobId : Id) :
    Writes (RowWrite.ActsOn jobId) (haltIfCancelled jobId) := by
  refine writes_bind (writes_query _ _) fun job => ?_
  rcases job with _ | job
  · trivial
  dsimp only
  split
  · trivial
  refine writes_bind (writes_tryCatch (always_read (.inl rfl)) fun _ => trivial) fun requested => ?_
  split
  · exact writes_bind (writes_job .cancelled) fun _ => trivial
  · trivial

theorem writes_workerHaltIfCancelled (jobId : Id) :
    Writes (RowWrite.ActsOn jobId) (workerHaltIfCancelled jobId) := by
  refine writes_bind (writes_query _ _) fun job => ?_
  rcases job with _ | job
  · trivial
  dsimp only
  split
  · trivial
  have hflag : Writes (RowWrite.ActsOn jobId) (isCancelled jobId) :=
    writes_tryCatch (always_read (.inl rfl)) fun _ => writes_query _ _
  have hend : ∀ requested : Bool, Writes (RowWrite.ActsOn jobId) (if requested then do
      write [.job jobId .cancelled]
      return true
      else return false) := by
    intro requested
    split
    · exact writes_bind (writes_job .cancelled) fun _ => trivial
    · trivial
  split
  · exact hend true
  · exact writes_bind hflag hend

/-! ## Programs That Keep to a Row -/

/-- The rows of all other jobs are what they were, and where the program returned, the job has
reached a terminal state. -/
structure KeptToRow (jobId : Id) (s : ReplayStore) (result : Except RowError Unit × ReplayStore) :
    Prop where
  others : ∀ id job, id ≠ jobId → findJob id s = some job → findJob id result.2 = some job
  ends : result.1 = .ok () → ∃ job, findJob jobId result.2 = some job ∧ isTerminal job.status

/-- So it is whenever the program runs alone, whatever is out of order. -/
def KeepsToRow (p : RowProg Unit) (jobId : Id) (s : ReplayStore) : Prop :=
  ∀ outage, KeptToRow jobId s (p.evaluate outage s)

/-- Where a program returns, the job has reached a terminal state. -/
def Concludes (jobId : Id) (p : RowProg Unit) : Prop :=
  ∀ outage s s', p.evaluate outage s = (.ok (), s') →
    ∀ job, findJob jobId s' = some job → isTerminal job.status

section keepsToRow

variable {jobId : Id} {s s' : ReplayStore} {job : JobRow} {p : RowProg Unit}

theorem isTerminal_of_hasEnded {status : JobStatus} (h : hasEnded status) : isTerminal status := by
  rcases h with rfl | rfl <;> decide

theorem OnlyRow.others (h : OnlyRow jobId s s') {id : Id} (hid : id ≠ jobId)
    (hjob : findJob id s = some job) : findJob id s' = some job := by
  obtain ⟨job', hjob', hsame⟩ := h id job hjob
  rcases hsame with hsame | rfl
  · exact absurd (hsame.symm.trans (id_of_findJob hjob)) hid.symm
  · exact hjob'

theorem keepsToRow_of_onlyRow (h : ∀ outage, OnlyRow jobId s (p.evaluate outage s).2)
    (hjob : findJob jobId s = some job) (hp : Concludes jobId p) : KeepsToRow p jobId s := by
  intro outage
  refine ⟨fun id other hid hother => (h outage).others hid hother, fun hok => ?_⟩
  obtain ⟨job', hjob', -⟩ := h outage jobId job hjob
  exact ⟨job', hjob', hp outage s _ (Prod.ext hok rfl) job' hjob'⟩

theorem keepsToRow_of_writes (h : Writes (RowWrite.ActsOn jobId) p)
    (hjob : findJob jobId s = some job) (hp : Concludes jobId p) : KeepsToRow p jobId s :=
  keepsToRow_of_onlyRow (fun outage => h.related (fun _ => onlyRow_apply) outage s) hjob hp

theorem evaluate_of_query_bind {α β : Type} {n : ℕ} {f : ReplayStore → α} {k : α → RowProg β}
    {outage : RowAccess → Option RowError} {b : β}
    (h : (query n f >>= k).evaluate outage s = (.ok b, s')) :
    (k (f s)).evaluate outage s = (.ok b, s') := by
  obtain ⟨a, s₁, hquery, hk⟩ := evaluate_bind_eq_ok_iff.mp h
  obtain ⟨-, rfl, rfl⟩ := evaluate_access_eq_ok_iff.mp hquery
  exact hk

theorem concludes_throw (e : RowError) : Concludes jobId (throw e) := by
  rintro outage s s' ⟨⟩

theorem concludes_bind {α : Type} {q : RowProg α} {f : α → RowProg Unit}
    (h : ∀ a, Concludes jobId (f a)) : Concludes jobId (q >>= f) := by
  intro outage s s' hok
  obtain ⟨a, s₁, -, hf⟩ := evaluate_bind_eq_ok_iff.mp hok
  exact h a outage s₁ s' hf

theorem Concludes.work (h : Concludes jobId p) (n : ℕ) :
    Concludes jobId (p >>= fun _ => work n) := by
  intro outage s s' hok
  obtain ⟨_, s₁, hp, hwork⟩ := evaluate_bind_eq_ok_iff.mp hok
  obtain ⟨-, -, rfl⟩ := evaluate_access_eq_ok_iff.mp hwork
  exact h outage s s' hp

theorem concludes_write {writes : List RowWrite}
    (h : ∀ s job, findJob jobId (applyWrites writes s) = some job → isTerminal job.status) :
    Concludes jobId (write writes) := by
  intro outage s s' hok
  obtain ⟨-, -, rfl⟩ := evaluate_access_eq_ok_iff.mp hok
  exact h s

theorem findJob_updateJobs {f : JobRow → JobRow} (hf : ∀ job, (f job).id = job.id) (id : Id)
    (p : JobRow → Bool) (s : ReplayStore) :
    findJob id (updateJobs p f s) = (findJob id s).map fun job => if p job then f job else job :=
  find?_updateWhere (g := JobRow.id) hf _ _

theorem findJob_job (id : Id) (status : JobStatus) (s : ReplayStore) :
    findJob id (RowWrite.apply (.job jobId status) s) =
      (findJob id s).map fun job => if job.id = jobId then job.withStatus status else job := by
  rw [RowWrite.apply, findJob_updateJobs (f := (·.withStatus status)) fun _ => rfl]
  simp only [decide_eq_true_eq]

theorem findJob_root (id rootJobId : Id) (s : ReplayStore) :
    findJob id (RowWrite.apply (.root rootJobId) s) =
      (findJob id s).map fun job =>
        if job.id = rootJobId ∧ ¬ hasEnded job.status then job.withStatus .succeeded else job := by
  rw [RowWrite.apply, findJob_updateJobs (f := (·.withStatus .succeeded)) fun _ => rfl]
  simp only [decide_eq_true_eq]

theorem status_of_job {status : JobStatus}
    (h : findJob jobId (RowWrite.apply (.job jobId status) s) = some job) :
    job.status = status := by
  rw [findJob_job] at h
  obtain ⟨job₀, hjob₀, rfl⟩ := Option.map_eq_some_iff.mp h
  rw [if_pos (id_of_findJob hjob₀)]
  rfl

theorem concludes_succeeded (init : List RowWrite) :
    Concludes jobId (write (init ++ [.job jobId .succeeded])) := by
  refine concludes_write fun s job hjob => ?_
  rw [applyWrites, List.foldl_append] at hjob
  exact isTerminal_of_hasEnded (.inl (status_of_job hjob))

theorem concludes_withOpenJob {handler : JobRow → RowProg Unit}
    (h : ∀ job, Concludes jobId (handler job)) : Concludes jobId (withOpenJob jobId handler) := by
  intro outage s s' hok
  replace hok := evaluate_of_query_bind hok
  cases hjob : findJob jobId s with
  | none =>
      rw [hjob] at hok
      cases (Prod.ext_iff.mp hok).1
  | some job =>
      rw [hjob] at hok
      dsimp only at hok
      split at hok
      · next hended =>
        obtain rfl := (Prod.ext_iff.mp hok).2
        intro job' hjob'
        cases hjob.symm.trans hjob'
        exact isTerminal_of_hasEnded hended
      · exact h job outage s s' hok

/-! ### The Handlers of the Python Workers -/

theorem concludes_handleAnalyzeScene (d : Delivery) :
    Concludes d.message.jobId (handleAnalyzeScene d) := by
  refine concludes_withOpenJob fun job => concludes_bind fun _ => concludes_bind fun _ => ?_
  exact concludes_bind fun _ => (concludes_succeeded [.child job.bookId]).work 3

theorem concludes_handleGenerateDirectorIr (rootJobId : Option Id) (remaining : List Id)
    (d : Delivery) : Concludes d.message.jobId (handleGenerateDirectorIr rootJobId remaining d) := by
  refine concludes_withOpenJob fun job => concludes_bind fun _ => concludes_bind fun _ => ?_
  refine concludes_bind fun _ => ?_
  split
  · refine concludes_bind fun _ => concludes_write fun s job hjob => ?_
    -- the root is the job itself, or another row
    have hroot : findJob d.message.jobId (RowWrite.apply (.root (rootJobId.getD d.message.jobId))
        (RowWrite.apply (.job d.message.jobId .succeeded) s)) = some job := hjob
    rw [findJob_root] at hroot
    obtain ⟨job₀, hjob₀, rfl⟩ := Option.map_eq_some_iff.mp hroot
    split
    · exact isTerminal_of_hasEnded (.inl rfl)
    · exact isTerminal_of_hasEnded (.inl (status_of_job hjob₀))
  · exact (concludes_succeeded [.child job.bookId]).work 4

theorem concludes_handleReviseDirectorIr (d : Delivery) :
    Concludes d.message.jobId (handleReviseDirectorIr d) := by
  refine concludes_withOpenJob fun job => ?_
  split
  · exact concludes_succeeded [.job d.message.jobId .running]
  · refine concludes_bind fun _ => concludes_bind fun _ => concludes_bind fun _ => ?_
    exact concludes_succeeded []

theorem concludes_handleGenerateTtsChunk (ttsJobId : Id) (d : Delivery) :
    Concludes d.message.jobId (handleGenerateTtsChunk ttsJobId d) := by
  refine concludes_withOpenJob fun job => concludes_bind fun ttsJob => ?_
  rcases ttsJob with _ | ttsJob
  · exact concludes_throw .job
  dsimp only
  split
  · exact concludes_succeeded []
  split
  · exact concludes_succeeded [.job d.message.jobId .running]
  refine concludes_bind fun _ => concludes_bind fun _ => concludes_bind fun _ => ?_
  exact concludes_succeeded [.synthesis ttsJobId .succeeded]

theorem concludes_handleGenerateVoicePreview (previewId : Id) (d : Delivery) :
    Concludes d.message.jobId (handleGenerateVoicePreview previewId d) := by
  refine concludes_withOpenJob fun job => concludes_bind fun preview => ?_
  rcases preview with _ | preview
  · exact concludes_throw .job
  dsimp only
  split
  · exact concludes_succeeded []
  refine concludes_bind fun _ => concludes_bind fun _ => concludes_bind fun _ => ?_
  exact concludes_bind fun _ => concludes_succeeded [.preview previewId .ready]

end keepsToRow

/-! ### The Cancellation Gates -/

/-- What a gate before a processor decides: it stops exactly the jobs of `halts`, or marks the job
as cancelled, and changes nothing when it lets the processor run. -/
structure IsGate (gate : RowProg Bool) (jobId : Id) (halts : JobRow → ReplayStore → Prop) :
    Prop where
  writes : Writes (RowWrite.ActsOn jobId) gate
  cancelled : ∀ {outage s s'}, gate.evaluate outage s = (.ok true, s') →
    ∀ job, findJob jobId s' = some job → job.status = .cancelled
  /-- A job that is not stopped is not one of `halts`. -/
  passed : ∀ {outage s s' job}, gate.evaluate outage s = (.ok false, s') →
    findJob jobId s = some job → s' = s ∧ ¬ halts job s
  /-- Any other job passes, if the flag cannot be read or is not set. -/
  passes : ∀ {s job}, findJob jobId s = some job → ¬ halts job s →
    ∃ outage : RowAccess → Option RowError,
      (∀ l, l ≠ .readCancellationFlag → outage l = none) ∧
        gate.evaluate outage s = (.ok false, s)

def behind (gate : RowProg Bool) (p : RowProg Unit) : RowProg Unit := do
  if ← gate then return else p

section gates

variable {gate : RowProg Bool} {jobId : Id} {halts : JobRow → ReplayStore → Prop}
  {s : ReplayStore} {job : JobRow} {p : RowProg Unit}

theorem keepsToRow_behind (hgate : IsGate gate jobId halts) (hjob : findJob jobId s = some job)
    (hp : ¬ halts job s → KeepsToRow p jobId s) : KeepsToRow (behind gate p) jobId s := by
  intro outage
  have honly : OnlyRow jobId s (gate.evaluate outage s).2 :=
    hgate.writes.related (fun _ => onlyRow_apply) outage s
  obtain ⟨stopped, hstopped, -⟩ := honly jobId job hjob
  rw [behind, evaluate_bind]
  rcases hresult : gate.evaluate outage s with ⟨e | halted, s'⟩
  · rw [hresult] at honly
    exact ⟨fun id other hid hother => honly.others hid hother, nofun⟩
  cases halted with
  | true =>
      rw [hresult] at honly hstopped
      have hcancelled := hgate.cancelled hresult stopped hstopped
      exact ⟨fun id other hid hother => honly.others hid hother,
        fun _ => ⟨stopped, hstopped, hcancelled ▸ by decide⟩⟩
  | false =>
      obtain ⟨rfl, hhalts⟩ := hgate.passed hresult hjob
      exact hp hhalts outage

theorem exists_evaluate_behind (hgate : IsGate gate jobId halts) (hjob : findJob jobId s = some job)
    (hhalts : ¬ halts job s) (p : RowProg Unit) :
    ∃ outage : RowAccess → Option RowError, (∀ l, l ≠ .readCancellationFlag → outage l = none) ∧
      (behind gate p).evaluate outage s = p.evaluate outage s := by
  obtain ⟨outage, houtage, hpasses⟩ := hgate.passes hjob hhalts
  exact ⟨outage, houtage, evaluate_bind_of_ok hpasses⟩

end gates

/-- What a worker of the `worker-cpu` stops at: a job that is cancelled, or for which this is
requested in the column and in the cache. -/
def JobRow.Halts (job : JobRow) (s : ReplayStore) : Prop :=
  job.status = .cancelled ∨ job.cancellationRequested = true ∧ job.id ∈ s.cancellationFlags

/-- What a Python worker stops at: the column is enough. -/
def JobRow.WorkerHalts (job : JobRow) (_ : ReplayStore) : Prop :=
  job.status = .cancelled ∨ job.cancellationRequested = true

def endOfGate (jobId : Id) (requested : Bool) : RowProg Bool :=
  if requested then do
    write [.job jobId .cancelled]
    return true
  else return false

variable {outage : RowAccess → Option RowError}

theorem cancelled_of_endOfGate {requested : Bool} {s s' : ReplayStore}
    (h : (endOfGate jobId requested).evaluate outage s = (.ok true, s')) (job : JobRow)
    (hjob : findJob jobId s' = some job) : job.status = .cancelled := by
  cases requested with
  | true =>
      obtain ⟨_, s₁, hwrite, hpure⟩ := evaluate_bind_eq_ok_iff.mp h
      obtain ⟨-, -, rfl⟩ := evaluate_access_eq_ok_iff.mp hwrite
      obtain rfl := (Prod.ext_iff.mp hpure).2
      exact status_of_job hjob
  | false => cases (Prod.ext_iff.mp h).1

theorem passed_of_endOfGate {requested : Bool} {s s' : ReplayStore}
    (h : (endOfGate jobId requested).evaluate outage s = (.ok false, s')) :
    requested = false ∧ s' = s := by
  cases requested with
  | true =>
      obtain ⟨_, s₁, -, hpure⟩ := evaluate_bind_eq_ok_iff.mp h
      cases (Prod.ext_iff.mp hpure).1
  | false => exact ⟨rfl, (Prod.ext_iff.mp h).2.symm⟩

theorem of_evaluate_flag {fallback : RowProg Bool} {requested : Bool} {s s' : ReplayStore}
    (h : (tryCatchThe RowError (Prog.read .readCancellationFlag fun s =>
      decide (jobId ∈ s.cancellationFlags)) fun _ => fallback).evaluate outage s =
        (.ok requested, s')) :
    requested = decide (jobId ∈ s.cancellationFlags) ∧ s' = s ∨
      fallback.evaluate outage s = (.ok requested, s') := by
  rw [evaluate_tryCatch] at h
  cases houtage : outage .readCancellationFlag with
  | none =>
      rw [evaluate_read houtage] at h
      obtain ⟨hflag, rfl⟩ := Prod.mk.inj h
      exact .inl ⟨(Except.ok.inj hflag).symm, rfl⟩
  | some e =>
      rw [evaluate_read_of_outage houtage] at h
      exact .inr h

theorem isGate_haltIfCancelled (jobId : Id) :
    IsGate (haltIfCancelled jobId) jobId JobRow.Halts where
  writes := writes_haltIfCancelled jobId
  cancelled := by
    intro outage s s' h job hjob
    replace h := evaluate_of_query_bind h
    cases hfound : findJob jobId s with
    | none =>
        rw [hfound] at h
        cases (Prod.ext_iff.mp h).1
    | some found =>
        rw [hfound] at h
        dsimp only at h
        split at h
        · next hcancelled =>
          obtain rfl := (Prod.ext_iff.mp h).2
          exact Option.some.inj (hfound.symm.trans hjob) ▸ hcancelled
        · obtain ⟨requested, s₁, -, hend⟩ := evaluate_bind_eq_ok_iff.mp h
          exact cancelled_of_endOfGate hend job hjob
  passed := by
    intro outage s s' job h hjob
    replace h := evaluate_of_query_bind h
    rw [hjob] at h
    dsimp only at h
    split at h
    · cases (Prod.ext_iff.mp h).1
    · next hopen =>
      obtain ⟨requested, s₁, hflag, hend⟩ := evaluate_bind_eq_ok_iff.mp h
      obtain ⟨rfl, rfl⟩ := passed_of_endOfGate hend
      rcases of_evaluate_flag hflag with ⟨hunset, rfl⟩ | hcolumn
      · refine ⟨rfl, not_or.mpr ⟨hopen, fun hrequested => ?_⟩⟩
        exact of_decide_eq_false hunset.symm (id_of_findJob hjob ▸ hrequested.2)
      · obtain ⟨hunset, rfl⟩ := Prod.mk.inj hcolumn
        refine ⟨rfl, not_or.mpr ⟨hopen, fun hrequested => ?_⟩⟩
        exact absurd hrequested.1 (by simp [Except.ok.inj hunset])
  passes := by
    intro s job hjob hhalts
    obtain ⟨hopen, hunset⟩ := not_or.mp hhalts
    have hquery : ∀ outage : RowAccess → Option RowError, outage (.query 0) = none →
        (haltIfCancelled jobId).evaluate outage s =
          (tryCatchThe RowError
            (Prog.read .readCancellationFlag fun s => decide (jobId ∈ s.cancellationFlags))
            (fun _ => pure job.cancellationRequested) >>= endOfGate jobId).evaluate outage s := by
      intro outage houtage
      rw [haltIfCancelled, query, evaluate_read_bind houtage, hjob]
      dsimp only
      rw [if_neg hopen]
      rfl
    cases hcolumn : job.cancellationRequested with
    | true =>
        -- the flag is not set, and can be read
        refine ⟨fun _ => none, fun _ _ => rfl, ?_⟩
        have hflag : decide (jobId ∈ s.cancellationFlags) = false := by
          refine decide_eq_false fun hflag => hunset ⟨hcolumn, ?_⟩
          exact (id_of_findJob hjob).symm ▸ hflag
        rw [hquery _ rfl, evaluate_bind, evaluate_tryCatch, evaluate_read rfl]
        dsimp only
        rw [hflag]
        rfl
    | false =>
        refine ⟨fun l => if l = .readCancellationFlag then some .other else none,
          fun l hl => if_neg hl, ?_⟩
        rw [hquery _ (by simp), evaluate_bind, evaluate_tryCatch,
          evaluate_read_of_outage (e := .other) (by simp)]
        dsimp only
        rw [hcolumn]
        rfl

theorem evaluate_isCancelled {e : RowError} {s : ReplayStore} {job : JobRow}
    (hflag : outage .readCancellationFlag = some e) (hquery : outage (.query 1) = none)
    (hjob : findJob jobId s = some job) :
    (isCancelled jobId).evaluate outage s = (.ok job.cancellationRequested, s) := by
  have hread : (isCancelled jobId).evaluate outage s = _ := evaluate_tryCatch
  rw [hread, evaluate_read_of_outage hflag]
  dsimp only
  rw [query, evaluate_read hquery, hjob]
  rfl

theorem isGate_workerHaltIfCancelled (jobId : Id) :
    IsGate (workerHaltIfCancelled jobId) jobId JobRow.WorkerHalts where
  writes := writes_workerHaltIfCancelled jobId
  cancelled := by
    intro outage s s' h job hjob
    replace h := evaluate_of_query_bind h
    cases hfound : findJob jobId s with
    | none =>
        rw [hfound] at h
        cases (Prod.ext_iff.mp h).1
    | some found =>
        rw [hfound] at h
        dsimp only at h
        split at h
        · next hcancelled =>
          obtain rfl := (Prod.ext_iff.mp h).2
          exact Option.some.inj (hfound.symm.trans hjob) ▸ hcancelled
        split at h
        · have hend : (endOfGate jobId true).evaluate outage s = (.ok true, s') := h
          exact cancelled_of_endOfGate hend job hjob
        · obtain ⟨requested, s₁, -, hend⟩ := evaluate_bind_eq_ok_iff.mp h
          exact cancelled_of_endOfGate hend job hjob
  passed := by
    intro outage s s' job h hjob
    replace h := evaluate_of_query_bind h
    rw [hjob] at h
    dsimp only at h
    split at h
    · cases (Prod.ext_iff.mp h).1
    next hopen =>
    split at h
    · have hend : (endOfGate jobId true).evaluate outage s = (.ok false, s') := h
      cases (passed_of_endOfGate hend).1
    next hcolumn =>
    obtain ⟨requested, s₁, hflag, hend⟩ := evaluate_bind_eq_ok_iff.mp h
    obtain ⟨rfl, rfl⟩ := passed_of_endOfGate hend
    refine ⟨?_, not_or.mpr ⟨hopen, hcolumn⟩⟩
    rcases of_evaluate_flag hflag with ⟨-, hsame⟩ | hquery
    · exact hsame
    · exact (evaluate_access_eq_ok_iff.mp hquery).2.2
  passes := by
    intro s job hjob hhalts
    obtain ⟨hopen, hcolumn⟩ := not_or.mp hhalts
    refine ⟨fun l => if l = .readCancellationFlag then some .other else none,
      fun l hl => if_neg hl, ?_⟩
    rw [workerHaltIfCancelled, query, evaluate_read_bind (by simp), hjob]
    dsimp only
    rw [if_neg hopen, if_neg hcolumn,
      evaluate_bind_of_ok (evaluate_isCancelled (e := .other) (by simp) (by simp) hjob)]
    rw [Bool.not_eq_true] at hcolumn
    rw [hcolumn]
    rfl
end AudioBook.Replay
