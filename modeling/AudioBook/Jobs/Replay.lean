import AudioBook.Concurrent.Triples
import AudioBook.Jobs.ReplayRows

/-!
# What a Replay Runs

`replayJob` replaces the `job_id` of the old envelope by the id of the new job, and nothing else. The
Python workers take the row that they work on from `job_id`, so they run the new job. The processors
of `worker-cpu` take it from `entity_id`, which still names the original: they work on the row of the
original, or skip it as ended, and leave the new row behind.

Main results:

- `wellAddressed_of_reachable`: the envelope of a replay names another row as its entity.
- `replay_iff`: a replay runs the new job, and only that, exactly when `RunsItsRow` holds.
-/

namespace AudioBook.Replay

open Concurrent Prog Relational

/-! ## Envelopes -/

/-- An envelope is addressed to the job that it is recorded on; the envelope of a replay names
another entity than its job. -/
structure JobRow.WellAddressed (bound : Id) (job : JobRow) : Prop where
  lt : job.id < bound
  jobId_eq : ∀ m ∈ job.dispatchEnvelope, m.jobId = job.id
  entityId_lt : ∀ m ∈ job.dispatchEnvelope, ∀ e ∈ m.entityId, e < bound
  elsewhere : job.causationId.isSome → ∀ m ∈ job.dispatchEnvelope, ∀ e ∈ m.entityId, e ≠ job.id

/-- All jobs are. -/
def WellAddressed (s : ReplayStore) : Prop := ∀ job ∈ s.jobs, job.WellAddressed s.nextId

theorem JobRow.WellAddressed.mono {bound bound' : Id} {job : JobRow}
    (h : job.WellAddressed bound) (hbound : bound ≤ bound') : job.WellAddressed bound' where
  lt := Nat.lt_of_lt_of_le h.lt hbound
  jobId_eq := h.jobId_eq
  entityId_lt m hm e he := Nat.lt_of_lt_of_le (h.entityId_lt m hm e he) hbound
  elsewhere := h.elsewhere

theorem JobRow.WellAddressed.congr {bound : Id} {job job' : JobRow} (h : job.WellAddressed bound)
    (hid : job'.id = job.id) (henvelope : job'.dispatchEnvelope = job.dispatchEnvelope)
    (hcausation : job'.causationId = job.causationId) : job'.WellAddressed bound where
  lt := hid ▸ h.lt
  jobId_eq := by
    rw [hid, henvelope]
    exact h.jobId_eq
  entityId_lt := henvelope ▸ h.entityId_lt
  elsewhere := by
    rw [hid, henvelope, hcausation]
    exact h.elsewhere

/-- No step takes an id back. -/
def IdsGrow (s s' : ReplayStore) : Prop := s.nextId ≤ s'.nextId

instance : IsPreorder ReplayStore IdsGrow where
  refl _ := Nat.le_refl _
  trans _ _ _ := Nat.le_trans

/-- Steps keep the jobs well addressed and hand out new ids. -/
def addressContract : Contract ReplayStore RowAccess :=
  .ofInvariant anyAccess WellAddressed IdsGrow

variable {s : ReplayStore}

theorem wellAddressed_updateJobs {p : JobRow → Bool} {f : JobRow → JobRow}
    (hid : ∀ job, (f job).id = job.id)
    (henvelope : ∀ job, (f job).dispatchEnvelope = job.dispatchEnvelope)
    (hcausation : ∀ job, (f job).causationId = job.causationId) (h : WellAddressed s) :
    WellAddressed (updateJobs p f s) := by
  intro job hjob
  obtain ⟨job₀, hjob₀, -, rfl⟩ | ⟨hjob, -⟩ := mem_updateWhere.mp hjob
  · exact (h job₀ hjob₀).congr (hid job₀) (henvelope job₀) (hcausation job₀)
  · exact h job hjob

theorem wellAddressed_concat {s' : ReplayStore} {job : JobRow} (h : WellAddressed s)
    (hjobs : s'.jobs = s.jobs ++ [job]) (hids : IdsGrow s s') (hjob : job.WellAddressed s'.nextId) :
    WellAddressed s' := by
  intro job' hjob'
  rw [hjobs] at hjob'
  rcases List.mem_append.mp hjob' with hjob' | hjob'
  · exact (h job' hjob').mono hids
  · exact List.mem_singleton.mp hjob' ▸ hjob

theorem wellAddressed_apply (write : RowWrite) (h : WellAddressed s) :
    WellAddressed (write.apply s) ∧ IdsGrow s (write.apply s) := by
  cases write with
  | job jobId status =>
      exact ⟨wellAddressed_updateJobs (fun _ => rfl) (fun _ => rfl) (fun _ => rfl) h, Nat.le_refl _⟩
  | root jobId =>
      exact ⟨wellAddressed_updateJobs (fun _ => rfl) (fun _ => rfl) (fun _ => rfl) h, Nat.le_refl _⟩
  | child bookId =>
      have hids : IdsGrow s (RowWrite.apply (.child bookId) s) := Nat.le_succ _
      refine ⟨wellAddressed_concat h rfl hids ⟨Nat.lt_succ_self _, ?_, ?_, ?_⟩, hids⟩
      · rintro m ⟨⟩
      · rintro m ⟨⟩
      · rintro _ m ⟨⟩
  | beginSynthesis ttsJobId => exact ⟨h, Nat.le_refl _⟩
  | synthesis ttsJobId status => exact ⟨h, Nat.le_refl _⟩
  | preview previewId status => exact ⟨h, Nat.le_refl _⟩
  | deleteOthers bookId purgeJobId =>
      exact ⟨fun job hjob => h job (List.mem_filter.mp hjob).1, Nat.le_refl _⟩

theorem wellAddressed_applyWrites (writes : List RowWrite) (h : WellAddressed s) :
    WellAddressed (applyWrites writes s) ∧ IdsGrow s (applyWrites writes s) := by
  induction writes generalizing s with
  | nil => exact ⟨h, Nat.le_refl _⟩
  | cons write writes ih =>
      obtain ⟨h₁, hids₁⟩ := wellAddressed_apply write h
      obtain ⟨h₂, hids₂⟩ := ih h₁
      exact ⟨h₂, Nat.le_trans hids₁ hids₂⟩
/-! ## Reachable Rows -/

theorem wellAddressed_submitted (bookId : Id) (submission : Submission) (h : WellAddressed s) :
    WellAddressed (submitted bookId submission s) ∧
      IdsGrow s (submitted bookId submission s) := by
  have hids : IdsGrow s (submitted bookId submission s) := Nat.le_add_right _ 2
  refine ⟨wellAddressed_concat h rfl hids ⟨?_, ?_, ?_, ?_⟩, hids⟩
  · exact Nat.lt_add_of_pos_right Nat.two_pos
  · intro m hm
    cases Option.some.inj hm
    cases submission <;> rfl
  · intro m hm e he
    cases Option.some.inj hm
    have hle : e ≤ s.nextId + 1 := by
      cases submission <;> cases Option.some.inj he <;> simp
    exact Nat.lt_succ_of_le hle
  · rintro ⟨⟩

theorem wellAddressed_replayed (original : JobRow) {m : Message} (h : WellAddressed s)
    (hm : ∀ e ∈ m.entityId, e < s.nextId) :
    WellAddressed (replayed original m s) ∧ IdsGrow s (replayed original m s) := by
  have hids : IdsGrow s (replayed original m s) := Nat.le_succ _
  refine ⟨wellAddressed_concat h rfl hids ⟨Nat.lt_succ_self _, ?_, ?_, ?_⟩, hids⟩
  · intro m' hm'
    cases Option.some.inj hm'
    rfl
  · intro m' hm' e he
    cases Option.some.inj hm'
    exact Nat.lt_succ_of_lt (hm e he)
  · intro _ m' hm' e he
    cases Option.some.inj hm'
    exact Nat.ne_of_lt (hm e he)

theorem always_submit (bookId : Id) (submission : Submission) :
    (Replay.submit bookId submission).Always addressContract.Allows :=
  ⟨fun _ _ h => wellAddressed_submitted bookId submission h,
    fun _ => ⟨fun _ _ h => ⟨h, Nat.le_refl _⟩, fun _ => trivial, fun _ => trivial⟩,
    fun _ => trivial⟩

theorem always_cancelJob (jobId : Id) :
    (Replay.cancelJob jobId).Always addressContract.Allows := by
  refine ⟨fun s _ h => ⟨wellAddressed_updateJobs ?_ ?_ ?_ h, Nat.le_refl _⟩,
    fun _ => ⟨fun _ _ h => ⟨h, Nat.le_refl _⟩, fun _ => trivial, fun _ => trivial⟩,
    fun _ => trivial⟩
  all_goals
    intro job
    unfold JobRow.cancelled
    split_ifs <;> rfl

theorem triple_replayJob (jobId : Id) :
    addressContract.Triple WellAddressed (Replay.replayJob jobId) fun _ _ => True := by
  refine Contract.Triple.bind (G := fun found s => WellAddressed s ∧
    ∀ original, found = some original → ∀ m ∈ original.dispatchEnvelope, ∀ e ∈ m.entityId,
      e < s.nextId) (Contract.triple_read Contract.stable_invariant fun s hs =>
        ⟨hs, fun original horiginal => ?_⟩) fun found => ?_
  · exact (hs original (List.mem_of_find?_eq_some horiginal)).entityId_lt
  rcases found with _ | original
  · exact Contract.triple_throw
  dsimp only
  split
  · exact Contract.triple_throw
  split
  · exact Contract.triple_throw
  · next m hm =>
    split
    · exact Contract.triple_throw
    have hstable : addressContract.Stable fun s : ReplayStore =>
        WellAddressed s ∧ ∀ original', some original = some original' →
          ∀ m ∈ original'.dispatchEnvelope, ∀ e ∈ m.entityId, e < s.nextId := by
      refine Contract.stable_of_mono fun s s' _ hids h original' horiginal m hm e he => ?_
      exact Nat.lt_of_lt_of_le (h original' horiginal m hm e he) hids
    refine Contract.Triple.bind (Contract.triple_access (G := fun _ _ => True) hstable
      fun s hs _ => ⟨fun _ => ?_, trivial⟩) fun newJobId => ?_
    · exact wellAddressed_replayed original hs.1 (hs.2 original rfl m hm)
    · intro s _
      exact Contract.safe_of_always
        ⟨fun _ _ h => ⟨h, Nat.le_refl _⟩, fun _ => trivial, fun _ => trivial⟩

theorem writes_behind {ok : RowWrite → Prop} {gate : RowProg Bool} {p : RowProg Unit}
    (hgate : Writes ok gate) (hp : Writes ok p) : Writes ok (behind gate p) := by
  refine writes_bind hgate fun halted => ?_
  split
  · trivial
  · exact hp

theorem writes_processMaintenanceJob (bookId : Id) (d : Delivery) :
    Writes (fun _ => True) (processMaintenanceJob bookId d) := by
  rw [processMaintenanceJob]
  split
  · trivial
  next e _ =>
  refine writes_query_bind fun s => ?_
  cases findJob e s with
  | none => trivial
  | some job =>
      dsimp only
      split
      · trivial
      · refine writes_bind (writes_write fun _ _ => trivial) fun _ => ?_
        exact writes_purgeBook trivial fun _ => trivial

theorem writes_deliver (d : Delivery) : Writes (fun _ => True) (deliver d) := by
  have hprocess : ∀ p : Processor, Writes (fun _ => True) (p.process d) := by
    intro p
    cases he : d.message.entityId with
    | none =>
        rw [Processor.process, he]
        trivial
    | some e => exact (writes_process p he).mono fun _ _ => trivial
  have hgate : Writes (fun _ => True) (haltIfCancelled d.message.jobId) :=
    (writes_haltIfCancelled _).mono fun _ _ => trivial
  have hworker : Writes (fun _ => True) (workerHaltIfCancelled d.message.jobId) :=
    (writes_workerHaltIfCancelled _).mono fun _ _ => trivial
  rw [deliver]
  split
  · exact writes_behind hgate (hprocess processIngestionJob)
  · exact writes_behind hgate (hprocess processAssembleChapterJob)
  · exact writes_behind hgate (hprocess processAssembleAudiobookJob)
  · exact writes_behind hgate (hprocess processEncodeDeliveryFormatJob)
  · exact writes_behind hgate (writes_processMaintenanceJob _ d)
  · exact writes_behind hworker ((writes_handleAnalyzeScene d).mono fun _ _ => trivial)
  · exact writes_behind hworker
      (writes_handleGenerateDirectorIr (fun _ => trivial) (fun _ _ => trivial) fun _ => trivial)
  · exact writes_behind hworker ((writes_handleReviseDirectorIr d).mono fun _ _ => trivial)
  · exact writes_behind hworker ((writes_handleGenerateTtsChunk _ d).mono fun _ _ => trivial)
  · exact writes_behind hworker ((writes_handleGenerateVoicePreview _ d).mono fun _ _ => trivial)

theorem respects_replaySystem : replaySystem.Respects addressContract := by
  intro s₀ s i hinit hev _
  have hs₀ : WellAddressed s₀ := fun job hjob => by
    have hempty : s₀.jobs = [] := hinit
    rw [hempty] at hjob
    cases hjob
  cases i with
  | submit bookId submission => exact Contract.safe_of_always (always_submit bookId submission)
  | replayJob jobId => exact (triple_replayJob jobId).safe (hev hs₀).1
  | cancelJob jobId => exact Contract.safe_of_always (always_cancelJob jobId)
  | deliver d =>
      refine Contract.safe_of_always (Always.mono ?_ (writes_deliver d))
      rintro l w (rfl | ⟨writes, -, rfl⟩)
      · exact Contract.allows_id addressContract l
      · exact fun _ _ h => wellAddressed_applyWrites writes h

theorem wellAddressed_of_reachable {c : Config ReplayStore RowAccess RowError}
    (hc : replaySystem.Reachable anyAccess c) : WellAddressed c.store := by
  obtain ⟨s₀, hinit, hev⟩ := respects_replaySystem.evolves_of_reachable hc
  refine (hev fun job hjob => ?_).1
  have hempty : s₀.jobs = [] := hinit
  rw [hempty] at hjob
  cases hjob
/-! ## What a Replay Runs -/

/-- A message is handled on the row of its job: every delivery that runs alone changes no other row
of a job, and when it returns, this one has reached a terminal state. -/
def RunsNewOnly (m : Message) (s : ReplayStore) : Prop :=
  ∀ d : Delivery, d.message = m → KeepsToRow (deliver d) m.jobId s

/-- Nothing but the row of the job is left to work on. A processor of `worker-cpu` must find the job
to be cancelled, or the row of the entity to have ended, like the job itself; the Director's last
chapter must not find an open root job that is another one. -/
def RunsItsRow (job : JobRow) (m : Message) (s : ReplayStore) : Prop :=
  match m.payload with
  | .parseBook | .assembleChapter | .assembleAudiobook | .encodeDeliveryFormat =>
      job.Halts s ∨
        ∀ e ∈ m.entityId, ∀ row ∈ findJob e s, isTerminal job.status ∧ hasEnded row.status
  | .purgeBook _ =>
      job.Halts s ∨
        ∀ e ∈ m.entityId, isTerminal job.status ∧ ∀ row ∈ findJob e s, row.status = .succeeded
  | .generateDirectorIr rootJobId [] =>
      job.WorkerHalts s ∨ hasEnded job.status ∨
        ∀ row ∈ findJob (rootJobId.getD m.jobId) s, row.id = job.id ∨ hasEnded row.status
  | .generateDirectorIr _ (_ :: _) | .analyzeScene _ | .reviseDirectorIr | .generateTtsChunk _
  | .generateVoicePreview _ => True

section replay

variable {jobId e : Id} {s s' : ReplayStore} {job row : JobRow} {d : Delivery}

theorem keepsToRow_of_unchanged {p : RowProg Unit} (hjob : findJob jobId s = some job)
    (hp : ∀ outage, (p.evaluate outage s).2 = s ∧
      ((p.evaluate outage s).1 = .ok () → isTerminal job.status)) : KeepsToRow p jobId s := by
  intro outage
  obtain ⟨hsame, hterminal⟩ := hp outage
  refine ⟨fun _ _ _ hother => ?_, fun hok => ⟨job, ?_, hterminal hok⟩⟩
  · rwa [hsame]
  · rwa [hsame]

/-! ### Rows That Are Written -/

/-- The row of a job stays, and its status is not written less often. -/
def StaysWritten (e : Id) (s s' : ReplayStore) : Prop :=
  ∀ row, findJob e s = some row →
    ∃ row', findJob e s' = some row' ∧ row.statusWrites ≤ row'.statusWrites

instance : IsPreorder ReplayStore (StaysWritten e) where
  refl _ row hrow := ⟨row, hrow, Nat.le_refl _⟩
  trans _ _ _ h₁ h₂ row hrow := by
    obtain ⟨row', hrow', hle⟩ := h₁ row hrow
    obtain ⟨row'', hrow'', hle'⟩ := h₂ row' hrow'
    exact ⟨row'', hrow'', Nat.le_trans hle hle'⟩

def RowWrite.Spares (e : Id) : RowWrite → Prop
  | .deleteOthers _ purgeJobId => e = purgeJobId
  | .job _ _ | .root _ | .child _ | .beginSynthesis _ | .synthesis _ _ | .preview _ _ => True

theorem staysWritten_updateJobs {f : JobRow → JobRow} (hid : ∀ job, (f job).id = job.id)
    (hwrites : ∀ job, job.statusWrites ≤ (f job).statusWrites) (p : JobRow → Bool)
    (s : ReplayStore) : StaysWritten e s (updateJobs p f s) := by
  intro row hrow
  refine ⟨if p row then f row else row, ?_, ?_⟩
  · rw [findJob_updateJobs hid, hrow]
    rfl
  · split
    · exact hwrites row
    · exact Nat.le_refl _

theorem staysWritten_apply {write : RowWrite} (h : write.Spares e) (s : ReplayStore) :
    StaysWritten e s (write.apply s) := by
  cases write with
  | job id status =>
      exact staysWritten_updateJobs (f := (·.withStatus status)) (fun _ => rfl)
        (fun _ => Nat.le_succ _) _ s
  | root id =>
      exact staysWritten_updateJobs (f := (·.withStatus .succeeded)) (fun _ => rfl)
        (fun _ => Nat.le_succ _) _ s
  | child bookId =>
      intro row hrow
      refine ⟨row, ?_, Nat.le_refl _⟩
      rw [findJob, RowWrite.apply, List.find?_append]
      rw [findJob] at hrow
      rw [hrow]
      rfl
  | beginSynthesis ttsJobId => exact refl_of (StaysWritten e) s
  | synthesis ttsJobId status => exact refl_of (StaysWritten e) s
  | preview previewId status => exact refl_of (StaysWritten e) s
  | deleteOthers bookId purgeJobId =>
      obtain rfl : e = purgeJobId := h
      intro row hrow
      refine ⟨row, ?_, Nat.le_refl _⟩
      rw [findJob, RowWrite.apply, List.find?_filter]
      rw [findJob] at hrow
      rw [← hrow]
      congr 1
      ext job
      by_cases hid : job.id = e <;> simp [hid]

variable {outage : RowAccess → Option RowError}

theorem findJob_ne_of_running {rest : RowProg Unit} (hrest : Writes (RowWrite.Spares e) rest)
    (hrow : findJob e s = some row) (houtage : outage (.write [.job e .running]) = none) :
    findJob e ((write [.job e .running] >>= fun _ => rest).evaluate outage s).2 ≠ some row := by
  have hmarked : (write [.job e .running]).evaluate outage s =
      (.ok (), RowWrite.apply (.job e .running) s) :=
    evaluate_access_eq_ok_iff.mpr ⟨houtage, rfl, rfl⟩
  rw [evaluate_bind_of_ok hmarked]
  have hrunning : findJob e (RowWrite.apply (.job e .running) s) =
      some (row.withStatus .running) := by
    rw [findJob_job, hrow, Option.map_some, if_pos (id_of_findJob hrow)]
  obtain ⟨row', hrow', hle⟩ :=
    hrest.related (fun _ => staysWritten_apply) outage _ _ hrunning
  intro hsame
  have hmore : row.statusWrites + 1 ≤ row'.statusWrites := hle
  rw [Option.some.inj (hrow'.symm.trans hsame)] at hmore
  exact Nat.not_succ_le_self _ hmore

theorem RowWrite.ActsOn.spares {write : RowWrite} (h : write.ActsOn jobId) : write.Spares e := by
  cases write with
  | deleteOthers bookId purgeJobId => exact h.elim
  | _ => trivial

/-! ### The Processors of `worker-cpu` -/

theorem keepsToRow_process (p : Processor) (hjob : findJob jobId s = some job)
    (h : ∀ e ∈ d.message.entityId, ∀ row ∈ findJob e s,
      isTerminal job.status ∧ hasEnded row.status) : KeepsToRow (p.process d) jobId s := by
  refine keepsToRow_of_unchanged hjob fun outage => ?_
  rw [Processor.process]
  cases hentity : d.message.entityId with
  | none => exact ⟨rfl, fun h => by cases h⟩
  | some e =>
      dsimp only
      cases houtage : outage (.query 2) with
      | some error =>
          rw [evaluate_bind, query, evaluate_read_of_outage houtage]
          exact ⟨rfl, fun h => by cases h⟩
      | none =>
          rw [query, evaluate_read_bind houtage]
          cases hrow : findJob e s with
          | none => exact ⟨rfl, fun h => by cases h⟩
          | some row =>
              obtain ⟨hterminal, hended⟩ := h e hentity row hrow
              dsimp only
              rw [if_pos hended]
              exact ⟨rfl, fun _ => hterminal⟩

theorem hasEnded_of_keptToRow_process {p : Processor} (hjob : findJob jobId s = some job)
    (he : d.message.entityId = some e) (hne : e ≠ jobId) (hpath : d.path = .work)
    (hrow : findJob e s = some row) (houtage : ∀ l, l ≠ .readCancellationFlag → outage l = none)
    (h : KeptToRow jobId s ((p.process d).evaluate outage s)) :
    isTerminal job.status ∧ hasEnded row.status := by
  rw [Processor.process, he] at h
  dsimp only at h
  rw [query, evaluate_read_bind (houtage (.query 2) (by simp)), hrow] at h
  dsimp only at h
  by_cases hended : hasEnded row.status
  · rw [if_pos hended] at h
    obtain ⟨job', hjob', hterminal⟩ := h.ends rfl
    exact ⟨Option.some.inj (hjob.symm.trans hjob') ▸ hterminal, hended⟩
  · exfalso
    obtain rfl := id_of_findJob hrow
    rw [if_neg hended, work, evaluate_read_bind (houtage (.external 0) (by simp)), hpath,
      ite_self] at h
    dsimp only at h
    have hrest : Writes (RowWrite.Spares row.id) (p.run d row.id) :=
      (writes_run p d row.id).mono fun _ => RowWrite.ActsOn.spares
    exact findJob_ne_of_running hrest hrow (houtage _ (by simp)) (h.others row.id row hne hrow)

theorem keepsToRow_processMaintenanceJob (bookId : Id) (hjob : findJob jobId s = some job)
    (h : ∀ e ∈ d.message.entityId,
      isTerminal job.status ∧ ∀ row ∈ findJob e s, row.status = .succeeded) :
    KeepsToRow (processMaintenanceJob bookId d) jobId s := by
  refine keepsToRow_of_unchanged hjob fun outage => ?_
  rw [processMaintenanceJob]
  cases hentity : d.message.entityId with
  | none => exact ⟨rfl, fun h => by cases h⟩
  | some e =>
      obtain ⟨hterminal, hsucceeded⟩ := h e hentity
      dsimp only
      cases houtage : outage (.query 2) with
      | some error =>
          rw [evaluate_bind, query, evaluate_read_of_outage houtage]
          exact ⟨rfl, fun h => by cases h⟩
      | none =>
          rw [query, evaluate_read_bind houtage]
          cases hrow : findJob e s with
          | none => exact ⟨rfl, fun _ => hterminal⟩
          | some row =>
              dsimp only
              rw [if_pos (hsucceeded row hrow)]
              exact ⟨rfl, fun _ => hterminal⟩

theorem succeeded_of_keptToRow_processMaintenanceJob {bookId : Id}
    (hjob : findJob jobId s = some job) (he : d.message.entityId = some e) (hne : e ≠ jobId)
    (houtage : ∀ l, l ≠ .readCancellationFlag → outage l = none)
    (h : KeptToRow jobId s ((processMaintenanceJob bookId d).evaluate outage s)) :
    isTerminal job.status ∧ ∀ row ∈ findJob e s, row.status = .succeeded := by
  rw [processMaintenanceJob, he] at h
  dsimp only at h
  rw [query, evaluate_read_bind (houtage (.query 2) (by simp))] at h
  have hidle : KeptToRow jobId s (.ok (), s) → isTerminal job.status := by
    intro h
    obtain ⟨job', hjob', hterminal⟩ := h.ends rfl
    exact Option.some.inj (hjob.symm.trans hjob') ▸ hterminal
  cases hrow : findJob e s with
  | none =>
      rw [hrow] at h
      exact ⟨hidle h, fun _ h => by cases h⟩
  | some row =>
      rw [hrow] at h
      dsimp only at h
      by_cases hsucceeded : row.status = .succeeded
      · rw [if_pos hsucceeded] at h
        refine ⟨hidle h, fun row' hrow' => ?_⟩
        exact Option.some.inj hrow' ▸ hsucceeded
      · exfalso
        obtain rfl := id_of_findJob hrow
        rw [if_neg hsucceeded] at h
        have hrest : Writes (RowWrite.Spares row.id) (purgeBook bookId row.id) :=
          writes_purgeBook rfl fun _ => trivial
        exact findJob_ne_of_running hrest hrow (houtage _ (by simp)) (h.others row.id row hne hrow)

/-! ### The Last Chapter of the Director -/

/-- The Director's last chapter has no open root job to close that is another one. -/
def RootSettled (rootJobId jobId : Id) (s : ReplayStore) : Prop :=
  rootJobId = jobId ∨ ∀ row, findJob rootJobId s = some row → hasEnded row.status

theorem rootSettled_iff {rootJobId : Id} (hjob : findJob jobId s = some job) :
    RootSettled rootJobId jobId s ↔
      ∀ row ∈ findJob rootJobId s, row.id = job.id ∨ hasEnded row.status := by
  have hid : job.id = jobId := id_of_findJob hjob
  constructor
  · rintro (rfl | hended) row hrow
    · exact .inl ((id_of_findJob hrow).trans hid.symm)
    · exact .inr (hended row hrow)
  · intro h
    by_cases hroot : rootJobId = jobId
    · exact .inl hroot
    refine .inr fun row hrow => (h row hrow).resolve_left fun hsame => hroot ?_
    exact (id_of_findJob hrow).symm.trans (hsame.trans hid)

/-- While that is so, the rows of all jobs but one stay as they are, and it stays so. -/
def WhileSettled (rootJobId jobId : Id) (s s' : ReplayStore) : Prop :=
  RootSettled rootJobId jobId s → RootSettled rootJobId jobId s' ∧ OnlyRow jobId s s'

instance (rootJobId jobId : Id) : IsPreorder ReplayStore (WhileSettled rootJobId jobId) where
  refl s h := ⟨h, refl_of (OnlyRow jobId) s⟩
  trans _ _ _ h₁ h₂ h := by
    obtain ⟨hsettled, honly⟩ := h₁ h
    obtain ⟨hsettled', honly'⟩ := h₂ hsettled
    exact ⟨hsettled', trans_of (OnlyRow jobId) honly honly'⟩

theorem whileSettled_job {rootJobId : Id} (status : JobStatus) (s : ReplayStore) :
    WhileSettled rootJobId jobId s (RowWrite.apply (.job jobId status) s) := by
  intro h
  have hon : (RowWrite.job jobId status).ActsOn jobId := rfl
  refine ⟨?_, onlyRow_apply hon s⟩
  by_cases hroot : rootJobId = jobId
  · exact .inl hroot
  refine .inr fun row hrow => ?_
  rw [findJob_job] at hrow
  obtain ⟨row₀, hrow₀, rfl⟩ := Option.map_eq_some_iff.mp hrow
  have hother : row₀.id ≠ jobId := id_of_findJob hrow₀ ▸ hroot
  rw [if_neg hother]
  exact h.resolve_left hroot row₀ hrow₀

theorem whileSettled_root {rootJobId : Id} (s : ReplayStore) :
    WhileSettled rootJobId jobId s (RowWrite.apply (.root rootJobId) s) := by
  intro h
  by_cases hroot : rootJobId = jobId
  · have hon : (RowWrite.root rootJobId).ActsOn jobId := hroot
    exact ⟨.inl hroot, onlyRow_apply hon s⟩
  -- the root has ended, so that the statement matches no row that is found
  have hsame : ∀ id, findJob id (RowWrite.apply (.root rootJobId) s) = findJob id s := by
    intro id
    rw [findJob_root]
    cases hrow : findJob id s with
    | none => rfl
    | some row =>
        rw [Option.map_some, if_neg]
        rintro ⟨hid, hopen⟩
        refine hopen (h.resolve_left hroot row ?_)
        rw [← hid, id_of_findJob hrow]
        exact hrow
  refine ⟨.inr fun row hrow => h.resolve_left hroot row (hsame rootJobId ▸ hrow),
    fun id row hrow => ⟨row, ?_, .inr rfl⟩⟩
  have hfound : findJob id (RowWrite.apply (.root rootJobId) s) = some row :=
    (hsame id).trans hrow
  exact hfound

theorem keepsToRow_withOpenJob_of_hasEnded {handler : JobRow → RowProg Unit}
    (hjob : findJob jobId s = some job) (hended : hasEnded job.status) :
    KeepsToRow (withOpenJob jobId handler) jobId s := by
  refine keepsToRow_of_unchanged hjob fun outage => ?_
  rw [withOpenJob]
  cases houtage : outage (.query 2) with
  | some error =>
      rw [evaluate_bind, query, evaluate_read_of_outage houtage]
      exact ⟨rfl, fun h => by cases h⟩
  | none =>
      rw [query, evaluate_read_bind houtage, hjob]
      dsimp only
      rw [if_pos hended]
      exact ⟨rfl, fun _ => isTerminal_of_hasEnded hended⟩

theorem keepsToRow_lastChapter {rootJobId : Option Id} (hjob : findJob d.message.jobId s = some job)
    (h : RootSettled (rootJobId.getD d.message.jobId) d.message.jobId s) :
    KeepsToRow (handleGenerateDirectorIr rootJobId [] d) d.message.jobId s := by
  have hwrites : Writes (fun write => (∃ status, write = .job d.message.jobId status) ∨
      write = .root (rootJobId.getD d.message.jobId)) (handleGenerateDirectorIr rootJobId [] d) :=
    writes_handleGenerateDirectorIr (fun status => .inl ⟨status, rfl⟩) (fun h => absurd rfl h)
      fun _ => .inr rfl
  refine keepsToRow_of_onlyRow (fun outage => ?_) hjob (concludes_handleGenerateDirectorIr _ _ d)
  refine (hwrites.related (R := WhileSettled (rootJobId.getD d.message.jobId) d.message.jobId)
    ?_ outage s h).2
  rintro write (⟨status, rfl⟩ | rfl) s
  · exact whileSettled_job status s
  · exact whileSettled_root s

theorem evaluate_callModel (houtage : outage (.external 2) = none) :
    (callModel d).evaluate outage s = (.ok (), s) := by
  have hcall : (callModel d).evaluate outage s = _ := evaluate_tryCatch
  rw [hcall, work, evaluate_read houtage]

theorem evaluate_write {writes : List RowWrite} (houtage : outage (.write writes) = none) :
    (write writes).evaluate outage s = (.ok (), applyWrites writes s) :=
  evaluate_access_eq_ok_iff.mpr ⟨houtage, rfl, rfl⟩

theorem rootSettled_of_keptToRow_lastChapter {rootJobId : Option Id}
    (hjob : findJob d.message.jobId s = some job) (hopen : ¬ hasEnded job.status)
    (houtage : ∀ l, l ≠ .readCancellationFlag → outage l = none)
    (h : KeptToRow d.message.jobId s ((handleGenerateDirectorIr rootJobId [] d).evaluate outage s)) :
    RootSettled (rootJobId.getD d.message.jobId) d.message.jobId s := by
  by_cases hroot : rootJobId.getD d.message.jobId = d.message.jobId
  · exact .inl hroot
  refine .inr fun row hrow => ?_
  by_contra hrowOpen
  rw [handleGenerateDirectorIr, withOpenJob, query,
    evaluate_read_bind (houtage (.query 2) (by simp)), hjob] at h
  dsimp only at h
  rw [if_neg hopen, work, evaluate_read_bind (houtage (.external 0) (by simp)),
    evaluate_bind_of_ok (evaluate_write (houtage _ (by simp))),
    evaluate_bind_of_ok (evaluate_callModel (houtage (.external 2) (by simp))), if_pos rfl, work,
    evaluate_read_bind (houtage (.external 3) (by simp)),
    evaluate_write (houtage _ (by simp))] at h
  have hother : row.id ≠ d.message.jobId := id_of_findJob hrow ▸ hroot
  have hclosed : findJob (rootJobId.getD d.message.jobId)
      (RowWrite.apply (.root (rootJobId.getD d.message.jobId))
        (RowWrite.apply (.job d.message.jobId .succeeded)
          (RowWrite.apply (.job d.message.jobId .running) s))) =
      some (row.withStatus .succeeded) := by
    rw [findJob_root, findJob_job, findJob_job, hrow]
    simp only [Option.map_some]
    rw [if_neg hother, if_neg hother, if_pos ⟨id_of_findJob hrow, hrowOpen⟩]
  have hkept : some (row.withStatus .succeeded) = some row :=
    hclosed.symm.trans (h.others _ row hroot hrow)
  have hwrites : row.statusWrites + 1 = row.statusWrites :=
    congrArg JobRow.statusWrites (Option.some.inj hkept)
  exact absurd hwrites (Nat.succ_ne_self _)

end replay
/-! ## The Claimed Behaviour -/

section claim

variable {m : Message} {s : ReplayStore} {job : JobRow} {gate : RowProg Bool}
  {halts : JobRow → ReplayStore → Prop}

theorem runsNewOnly_iff_of_gate {p : Delivery → RowProg Unit} {idle : Prop}
    (hgate : IsGate gate m.jobId halts) (hjob : findJob m.jobId s = some job)
    (hdeliver : ∀ d, d.message = m → deliver d = behind gate (p d))
    (henough : idle → ∀ d, d.message = m → KeepsToRow (p d) m.jobId s)
    (hneeded : ∀ d outage, d.message = m → d.path = .work →
      (∀ l, l ≠ .readCancellationFlag → outage l = none) →
      KeptToRow m.jobId s ((p d).evaluate outage s) → idle) :
    RunsNewOnly m s ↔ halts job s ∨ idle := by
  constructor
  · intro h
    by_cases hhalts : halts job s
    · exact .inl hhalts
    let d : Delivery := { message := m, attemptsMade := 0 }
    obtain ⟨outage, houtage, heval⟩ := exists_evaluate_behind hgate hjob hhalts (p d)
    have hkept : KeptToRow m.jobId s ((deliver d).evaluate outage s) := h d rfl outage
    rw [hdeliver d rfl, heval] at hkept
    exact .inr (hneeded d outage rfl rfl houtage hkept)
  · rintro h d rfl
    rw [hdeliver d rfl]
    refine keepsToRow_behind hgate hjob fun hhalts => ?_
    exact henough (h.resolve_left hhalts) d rfl

theorem runsNewOnly_of_gate {p : Delivery → RowProg Unit} (hgate : IsGate gate m.jobId halts)
    (hjob : findJob m.jobId s = some job)
    (hdeliver : ∀ d, d.message = m → deliver d = behind gate (p d))
    (hwrites : ∀ d, d.message = m → Writes (RowWrite.ActsOn m.jobId) (p d))
    (hends : ∀ d, d.message = m → Concludes m.jobId (p d)) : RunsNewOnly m s := by
  rintro d hd
  rw [hdeliver d hd]
  exact keepsToRow_behind hgate hjob fun _ => keepsToRow_of_writes (hwrites d hd) hjob (hends d hd)

theorem runsNewOnly_process_iff (p : Processor) (hjob : findJob m.jobId s = some job)
    (helsewhere : ∀ e ∈ m.entityId, e ≠ m.jobId)
    (hdeliver : ∀ d, d.message = m → deliver d = behind (haltIfCancelled m.jobId) (p.process d)) :
    RunsNewOnly m s ↔ job.Halts s ∨
      ∀ e ∈ m.entityId, ∀ row ∈ findJob e s, isTerminal job.status ∧ hasEnded row.status := by
  refine runsNewOnly_iff_of_gate (isGate_haltIfCancelled _) hjob hdeliver ?_ ?_
  · rintro hidle d rfl
    exact keepsToRow_process p hjob hidle
  · rintro d outage rfl hpath houtage hkept e he row hrow
    exact hasEnded_of_keptToRow_process hjob he (helsewhere e he) hpath hrow houtage hkept

theorem runsNewOnly_iff (hjob : findJob m.jobId s = some job)
    (helsewhere : ∀ e ∈ m.entityId, e ≠ m.jobId) : RunsNewOnly m s ↔ RunsItsRow job m s := by
  have hworker : IsGate (workerHaltIfCancelled m.jobId) m.jobId JobRow.WorkerHalts :=
    isGate_workerHaltIfCancelled m.jobId
  rw [RunsItsRow]
  cases hpayload : m.payload with
  | parseBook =>
      exact runsNewOnly_process_iff processIngestionJob hjob helsewhere
        (by rintro d rfl; rw [deliver, hpayload]; rfl)
  | assembleChapter =>
      exact runsNewOnly_process_iff processAssembleChapterJob hjob helsewhere
        (by rintro d rfl; rw [deliver, hpayload]; rfl)
  | assembleAudiobook =>
      exact runsNewOnly_process_iff processAssembleAudiobookJob hjob helsewhere
        (by rintro d rfl; rw [deliver, hpayload]; rfl)
  | encodeDeliveryFormat =>
      exact runsNewOnly_process_iff processEncodeDeliveryFormatJob hjob helsewhere
        (by rintro d rfl; rw [deliver, hpayload]; rfl)
  | purgeBook bookId =>
      refine runsNewOnly_iff_of_gate (p := processMaintenanceJob bookId)
        (isGate_haltIfCancelled _) hjob (by rintro d rfl; rw [deliver, hpayload]; rfl) ?_ ?_
      · rintro hidle d rfl
        exact keepsToRow_processMaintenanceJob bookId hjob hidle
      · rintro d outage rfl - houtage hkept e he
        exact succeeded_of_keptToRow_processMaintenanceJob hjob he (helsewhere e he) houtage hkept
  | analyzeScene rootJobId =>
      refine iff_of_true (runsNewOnly_of_gate (p := handleAnalyzeScene) hworker hjob ?_ ?_ ?_)
        trivial
      · rintro d rfl
        rw [deliver, hpayload]
        rfl
      · rintro d rfl
        exact writes_handleAnalyzeScene d
      · rintro d rfl
        exact concludes_handleAnalyzeScene d
  | generateDirectorIr rootJobId remaining =>
      have hdeliver : ∀ d : Delivery, d.message = m → deliver d =
          behind (workerHaltIfCancelled m.jobId)
            (handleGenerateDirectorIr rootJobId remaining d) := by
        rintro d rfl
        rw [deliver, hpayload]
        rfl
      cases remaining with
      | nil =>
          refine runsNewOnly_iff_of_gate hworker hjob hdeliver ?_ ?_
          · rintro (hended | hroot) d rfl
            · exact keepsToRow_withOpenJob_of_hasEnded hjob hended
            · exact keepsToRow_lastChapter hjob ((rootSettled_iff hjob).mpr hroot)
          · rintro d outage rfl - houtage hkept
            by_cases hended : hasEnded job.status
            · exact .inl hended
            · refine .inr ((rootSettled_iff hjob).mp ?_)
              exact rootSettled_of_keptToRow_lastChapter hjob hended houtage hkept
      | cons chapterId remaining =>
          refine iff_of_true (runsNewOnly_of_gate hworker hjob hdeliver ?_ ?_) trivial
          · rintro d rfl
            exact writes_handleGenerateDirectorIr (fun _ => rfl) (fun _ _ => trivial) nofun
          · rintro d rfl
            exact concludes_handleGenerateDirectorIr rootJobId _ d
  | reviseDirectorIr =>
      refine iff_of_true (runsNewOnly_of_gate (p := handleReviseDirectorIr) hworker hjob ?_ ?_ ?_)
        trivial
      · rintro d rfl
        rw [deliver, hpayload]
        rfl
      · rintro d rfl
        exact writes_handleReviseDirectorIr d
      · rintro d rfl
        exact concludes_handleReviseDirectorIr d
  | generateTtsChunk ttsJobId =>
      refine iff_of_true (runsNewOnly_of_gate (p := handleGenerateTtsChunk ttsJobId) hworker hjob
        ?_ ?_ ?_) trivial
      · rintro d rfl
        rw [deliver, hpayload]
        rfl
      · rintro d rfl
        exact writes_handleGenerateTtsChunk ttsJobId d
      · rintro d rfl
        exact concludes_handleGenerateTtsChunk ttsJobId d
  | generateVoicePreview previewId =>
      refine iff_of_true (runsNewOnly_of_gate (p := handleGenerateVoicePreview previewId) hworker
        hjob ?_ ?_ ?_) trivial
      · rintro d rfl
        rw [deliver, hpayload]
        rfl
      · rintro d rfl
        exact writes_handleGenerateVoicePreview previewId d
      · rintro d rfl
        exact concludes_handleGenerateVoicePreview previewId d

end claim

def lastDelivery (m : Message) : Delivery := { message := m, attemptsMade := 2 }

/-- A synthesis whose last attempt fails, and its replay. -/
def synthesisReplayed : List (Move ReplayRequest RowError) :=
  [.spawn (.submit 1 .generateTtsChunk), .proceed 0, .proceed 0,
    .spawn (.deliver (lastDelivery ⟨0, some 1, .generateTtsChunk 1⟩)),
    -- the gate, the job, the synthesis and the rows of the chunk
    .proceed 1, .proceed 1, .proceed 1, .proceed 1, .proceed 1,
    -- the job is marked as running, the synthesis fails, and so does the job
    .proceed 1, .refuse 1 .other, .proceed 1,
    .spawn (.replayJob 0), .proceed 2, .proceed 2, .proceed 2]

def replayedJob (queue : String) (m : Message) : JobRow where
  id := 2
  bookId := 1
  queue := queue
  dispatchEnvelope := some m
  causationId := some 0

/-- A chapter whose last assembly fails, and its replay. -/
def assemblyReplayed : List (Move ReplayRequest RowError) :=
  [.spawn (.submit 1 .assembleChapter), .proceed 0, .proceed 0,
    .spawn (.deliver (lastDelivery ⟨0, some 0, .assembleChapter⟩)),
    -- the gate, the job and the rows of the chapter
    .proceed 1, .proceed 1, .proceed 1, .proceed 1,
    -- the job is marked as running, the assembly fails, and so does the job
    .proceed 1, .refuse 1 .other, .proceed 1, .proceed 1,
    .spawn (.replayJob 0), .proceed 2, .proceed 2, .proceed 2]

def assemblyAgain : Delivery := { message := ⟨2, some 0, .assembleChapter⟩, attemptsMade := 0 }

/-- Whether it returns when nothing fails, and what it leaves of the job. -/
def assembledAgain (s : ReplayStore) : Bool × Option JobStatus :=
  let result := (deliver assemblyAgain).evaluate (fun _ => none) s
  (result.1.isOk, (findJob 2 result.2).map JobRow.status)

end AudioBook.Replay
