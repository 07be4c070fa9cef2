import AudioBook.Analysis.Deliveries

/-!
# Analysing Again

The job of the first chapter of an analysis has a key of its own run, but the jobs of the other
chapters have keys of the version, the chapter and the mode only. The index over these keys keeps
the rows of the runs that succeeded, so the chain of a second run stops where the first one
succeeded.

Main results:

- `exists_ranAgain_iff`: a run analyses all its chapters exactly when no live job holds the key of
  one after the first.
-/

namespace AudioBook

open Relational Concurrent

/-! ## Working Through the Queue -/

section queue

variable {modelVersionId : Id} {position : ℕ} {s : Store}

theorem workThrough_of_none (h : s.queue[position]? = none) (n : ℕ) :
    workThrough modelVersionId n position s = s := by
  cases n with
  | zero => rfl
  | succ n => rw [workThrough, h]

theorem workThrough_add (n n' : ℕ) :
    workThrough modelVersionId (n + n') position s =
      workThrough modelVersionId n' (position + n) (workThrough modelVersionId n position s) := by
  induction n generalizing position s with
  | zero => rw [Nat.zero_add, Nat.add_zero, workThrough]
  | succ n ih =>
    rw [Nat.succ_add, workThrough, workThrough]
    cases hm : s.queue[position]? with
    | none =>
      have hlater : s.queue[position + (n + 1)]? = none :=
        List.getElem?_eq_none ((List.getElem?_eq_none_iff.mp hm).trans (Nat.le_add_right _ _))
      exact (workThrough_of_none hlater n').symm
    | some m =>
      dsimp only
      rw [ih, Nat.add_right_comm, Nat.add_assoc]

end queue

/-! ## A Run -/

structure AnalysisRun where
  bookVersionId : Id
  mode : AnalysisMode
  rootJobId : Id

/-- A job that was not there in `s` has analysed the chapter. -/
def RanAgain (bookVersionId : Id) (mode : AnalysisMode) (s s' : Store) (chapterId : Id) : Prop :=
  ∃ job ∈ s'.processingJobs, job.id ∉ s.processingJobs.map ProcessingJob.id ∧
    job.status = .succeeded ∧
    (job.idempotencyKey = .analyzeScene bookVersionId chapterId mode ∨
      job.idempotencyKey = .analysisRun bookVersionId chapterId mode job.id)

instance (bookVersionId : Id) (mode : AnalysisMode) (s s' : Store) (chapterId : Id) :
    Decidable (RanAgain bookVersionId mode s s' chapterId) :=
  inferInstanceAs (Decidable (∃ job ∈ s'.processingJobs, _))

/-- No live job holds the key of the chapter. -/
def KeyFree (bookVersionId : Id) (mode : AnalysisMode) (s : Store) (chapterId : Id) : Prop :=
  ∀ job ∈ s.processingJobs,
    job.activeIdempotencyKey ≠ some (.analyzeScene bookVersionId chapterId mode)

/-- The keys that a job of a run may have, where the analyses of the chapters in `begun` were
created and the ones of the chapters in `done` have succeeded. -/
def KeyOfRun (begun done : List Id) : IdempotencyKey → Prop
  | .analyzeScene _ chapterId _ => chapterId ∈ begun
  | .analysisRun _ chapterId _ _ => chapterId ∈ begun
  | .storyBible _ chapterId _ => chapterId ∈ done
  | _ => False

theorem KeyOfRun.mono {begun begun' done done' : List Id} {key : IdempotencyKey}
    (h : KeyOfRun begun done key) (hbegun : begun ⊆ begun') (hdone : done ⊆ done') :
    KeyOfRun begun' done' key := by
  cases key <;> first | exact hbegun h | exact hdone h | exact h

/-- The chain of a run that began in `s₀` has come to the message `m`, the last one on the broker:
its job is the only one of the run that has not succeeded. -/
structure ChainAt (run : AnalysisRun) (s₀ s : Store) (position : ℕ) (m : Envelope)
    (begun done : List Id) : Prop where
  ok : Db.ProcessingJobsOk s.processingJobs
  fresh : IdsFresh s
  fresh₀ : IdsFresh s₀
  later : s₀.nextId ≤ s.nextId
  chapters : s.chapters = s₀.chapters
  bookVersions : s.bookVersions = s₀.bookVersions
  kept : ∀ job ∈ s₀.processingJobs, job ∈ s.processingJobs
  new : ∀ job ∈ s.processingJobs, job ∈ s₀.processingJobs ∨
    s₀.nextId ≤ job.id ∧ KeyOfRun begun done job.idempotencyKey
  done : ∀ chapterId ∈ done, RanAgain run.bookVersionId run.mode s₀ s chapterId
  root : run.rootJobId ∈ s.processingJobs.map ProcessingJob.id
  last : s.queue[position]? = some m
  length : s.queue.length = position + 1
  isNew : s₀.nextId ≤ m.jobId
  pending : ∃ job, PendingJob m s job

namespace ChainAt

variable {run : AnalysisRun} {s₀ s : Store} {position : ℕ} {m : Envelope} {begun done : List Id}

theorem not_ranAgain (h : ChainAt run s₀ s position m begun done) {chapterId : Id}
    (hnot : chapterId ∉ begun) : ¬ RanAgain run.bookVersionId run.mode s₀ s chapterId := by
  rintro ⟨job, hjob, hnew, -, hkey⟩
  rcases h.new job hjob with hold | ⟨-, hrun⟩
  · exact hnew (List.mem_map_of_mem hold)
  · rcases hkey with hkey | hkey
    · rw [hkey] at hrun
      exact hnot hrun
    · rw [hkey] at hrun
      exact hnot hrun

theorem keyFree_iff (h : ChainAt run s₀ s position m begun done) {chapterId : Id}
    (hnot : chapterId ∉ begun) :
    KeyFree run.bookVersionId run.mode s chapterId ↔
      KeyFree run.bookVersionId run.mode s₀ chapterId := by
  refine ⟨fun hfree job hjob => hfree job (h.kept job hjob), fun hfree job hjob hkey => ?_⟩
  rcases h.new job hjob with hold | ⟨-, hrun⟩
  · exact hfree job hold hkey
  · unfold ProcessingJob.activeIdempotencyKey at hkey
    split at hkey
    · cases hkey
    · rw [Option.some.inj hkey] at hrun
      exact hnot hrun

theorem bibleKey_free (h : ChainAt run s₀ s position m begun done) {storyBibleVersionId chapterId
    modelVersionId : Id} (hbible : s₀.nextId ≤ storyBibleVersionId) (hnot : chapterId ∉ done) :
    ∀ job ∈ s.processingJobs, job.activeIdempotencyKey ≠
      some (.storyBible storyBibleVersionId chapterId modelVersionId) := by
  intro job hjob hkey
  unfold ProcessingJob.activeIdempotencyKey at hkey
  split at hkey
  · cases hkey
  have hkey := Option.some.inj hkey
  rcases h.new job hjob with hold | ⟨-, hrun⟩
  · have hbelow := h.fresh₀.keys job hold
    rw [hkey] at hbelow
    exact absurd hbelow (Nat.not_lt.mpr hbible)
  · rw [hkey] at hrun
    exact hnot hrun

theorem next (h : ChainAt run s₀ s position m begun done) {child : ProcessingJob} {m' : Envelope}
    {ids : ℕ} {begun' done' : List Id} (hids : 0 < ids) (hchild : child.id = s.nextId + (ids - 1))
    (hparent : child.parentJobId = some run.rootJobId) (hstatus : child.status = .created)
    (hattempts : child.attemptCount = 0) (hrequested : child.cancellationRequested = false)
    (hmessage : m'.jobId = child.id)
    (hfree : ∀ job ∈ s.processingJobs, job.activeIdempotencyKey ≠ some child.idempotencyKey)
    (hbegun : begun ⊆ begun') (hsub : done ⊆ done')
    (hkey : KeyOfRun begun' done' child.idempotencyKey)
    (hbelow : child.idempotencyKey.Below (s.nextId + ids))
    (hdone : ∀ chapterId ∈ done', chapterId ∈ done ∨ ∀ job, findJob m.jobId s = some job →
      job.idempotencyKey = .analyzeScene run.bookVersionId chapterId run.mode ∨
        job.idempotencyKey = .analysisRun run.bookVersionId chapterId run.mode job.id) :
    ChainAt run s₀ (afterDelivery m child m' ids s) (position + 1) m' begun' done' := by
  obtain ⟨job, hjob⟩ := h.pending
  have hle : s.nextId ≤ child.id := hchild ▸ Nat.le_add_right _ _
  have hlt : child.id < s.nextId + ids := by
    rw [hchild]
    exact Nat.add_lt_add_left (Nat.sub_one_lt_of_lt hids) _
  have hgrows : s.nextId ≤ s.nextId + ids := Nat.le_add_right _ _
  have hjobId : job.id = m.jobId := by simpa using List.find?_some hjob.found
  have hjobMem : job ∈ s.processingJobs := List.mem_of_find?_eq_some hjob.found
  have hunique : ∀ job' ∈ s.processingJobs, job'.id = m.jobId → job' = job := fun job' hjob' hid =>
    List.inj_on_of_nodup_map h.ok.id hjob' hjobMem (hid.trans hjobId.symm)
  have hnotMem : child.id ∉ s.processingJobs.map ProcessingJob.id := by
    intro hmem
    obtain ⟨job', hjob', hid⟩ := List.mem_map.mp hmem
    exact absurd (h.fresh.jobs job' hjob') (Nat.not_lt.mpr (hid ▸ hle))
  have hnext : NextJob child s := by
    refine ⟨hnotMem, fun i hi => ?_, hstatus, hattempts⟩
    rw [hparent] at hi
    exact Option.mem_some_iff.mp hi ▸ h.root
  -- A row is an old one, the one that has just finished, or the next one.
  have hrows : ∀ job' ∈ finishJob m.jobId s.processingJobs ++ [child],
      job' ∈ s.processingJobs ∨ job' = finishRow job ∨ job' = child := by
    intro job' hjob'
    rcases List.mem_append.mp hjob' with hjob' | hjob'
    · rcases mem_updateWhere.mp hjob' with ⟨job₀, hjob₀, hid, rfl⟩ | ⟨hjob', -⟩
      · exact .inr (.inl (by rw [hunique job₀ hjob₀ (of_decide_eq_true hid)]))
      · exact .inl hjob'
    · exact .inr (.inr (List.mem_singleton.mp hjob'))
  have hstays : ∀ job' ∈ s.processingJobs, job'.id ≠ m.jobId →
      job' ∈ finishJob m.jobId s.processingJobs ++ [child] := fun job' hjob' hne =>
    List.mem_append_left _ (mem_updateWhere.mpr (.inr ⟨hjob', decide_eq_false hne⟩))
  refine ⟨processingJobsOk_afterLink h.ok hjob hnext hfree, ⟨?_, ?_, ?_, ?_⟩, h.fresh₀,
    h.later.trans hgrows, h.chapters, h.bookVersions, ?_, ?_, ?_, ?_, ?_, ?_, ?_, ?_⟩
  · intro job' hjob'
    rcases hrows job' hjob' with hjob' | rfl | rfl
    · exact (h.fresh.jobs job' hjob').trans_le hgrows
    · exact (h.fresh.jobs job hjobMem).trans_le hgrows
    · exact hlt
  · intro job' hjob'
    rcases hrows job' hjob' with hjob' | rfl | rfl
    · exact (h.fresh.keys job' hjob').mono hgrows
    · exact (h.fresh.keys job hjobMem).mono hgrows
    · exact hbelow
  · intro message hmem
    rcases List.mem_append.mp hmem with hmem | hmem
    · exact (h.fresh.queue message hmem).trans_le hgrows
    · rw [List.mem_singleton.mp hmem, hmessage]
      exact hlt
  · exact fun i hi => (h.fresh.flags i hi).trans_le hgrows
  · intro job' hjob'
    refine hstays job' (h.kept job' hjob') fun hid => ?_
    exact absurd (h.fresh₀.jobs job' hjob') (Nat.not_lt.mpr (hid ▸ h.isNew))
  · intro job' hjob'
    rcases hrows job' hjob' with hjob' | rfl | rfl
    · exact (h.new job' hjob').imp_right fun hnew => ⟨hnew.1, hnew.2.mono hbegun hsub⟩
    · -- The job of the message is new, so it is one of the run.
      rcases h.new job hjobMem with hold | hnew
      · exact absurd (h.fresh₀.jobs job hold) (Nat.not_lt.mpr (hjobId ▸ h.isNew))
      · exact .inr ⟨hnew.1, hnew.2.mono hbegun hsub⟩
    · exact .inr ⟨h.later.trans hle, hkey⟩
  · intro chapterId hchapter
    rcases hdone chapterId hchapter with hdone | hanalyzed
    · obtain ⟨job', hjob', hnew, hsucceeded, hkey'⟩ := h.done chapterId hdone
      refine ⟨job', hstays job' hjob' fun hid => ?_, hnew, hsucceeded, hkey'⟩
      rw [hunique job' hjob' hid, hjob.status] at hsucceeded
      cases hsucceeded
    · refine ⟨finishRow job, List.mem_append_left _ (mem_updateWhere.mpr
        (.inl ⟨job, hjobMem, decide_eq_true hjobId, rfl⟩)), fun hmem => ?_, rfl,
        hanalyzed job hjob.found⟩
      obtain ⟨job₀, hjob₀, hid⟩ := List.mem_map.mp hmem
      have hlt₀ := h.fresh₀.jobs job₀ hjob₀
      rw [hid] at hlt₀
      exact absurd hlt₀ (Nat.not_lt.mpr (hjobId ▸ h.isNew))
  · show run.rootJobId ∈ (finishJob m.jobId s.processingJobs ++ [child]).map ProcessingJob.id
    rw [List.map_append, map_id_finishJob]
    exact List.mem_append_left _ h.root
  · show (s.queue ++ [m'])[position + 1]? = some m'
    rw [← h.length, List.getElem?_concat_length]
  · show (s.queue ++ [m']).length = position + 1 + 1
    rw [List.length_append, h.length, List.length_singleton]
  · exact hmessage ▸ h.later.trans hle
  · refine ⟨child, ⟨?_, hstatus, hattempts, hrequested, fun hflag => ?_⟩⟩
    · show (finishJob m.jobId s.processingJobs ++ [child]).find? _ = _
      rw [List.find?_append, List.find?_eq_none.mpr, Option.none_or]
      · simp [hmessage]
      · intro job' hjob' hid
        refine hnotMem ?_
        rw [← hmessage, ← of_decide_eq_true hid, ← map_id_finishJob]
        exact List.mem_map_of_mem hjob'
    · rw [hmessage] at hflag
      exact absurd (h.fresh.flags child.id hflag) (Nat.not_lt.mpr hle)

end ChainAt

/-! ## From Chapter to Chapter -/

/-- A payload of a run is about a chapter, with the chapters of `rest` after it. -/
structure Concerns (run : AnalysisRun) (s₀ s : Store) (payload : AnalysisPayload) (chapterId : Id)
    (rest : List Id) : Prop where
  bookVersionId : payload.bookVersionId = run.bookVersionId
  analysisMode : payload.analysisMode = run.mode
  rootJobId : payload.rootJobId = run.rootJobId
  chapterId : payload.chapterId = chapterId
  remaining : payload.remainingChapterIds = rest
  storyBible : ∀ i ∈ payload.storyBibleVersionId, s₀.nextId ≤ i ∧ i < s.nextId

/-- The chain has come to the analysis of a chapter. -/
structure AtChapter (run : AnalysisRun) (s₀ s : Store) (position : ℕ) (m : Envelope)
    (payload : AnalysisPayload) (done : List Id) (chapterId : Id) (rest : List Id) : Prop where
  chain : ChainAt run s₀ s position m (done ++ [chapterId]) done
  message : m.payload = .analyzeScene payload
  concerns : Concerns run s₀ s payload chapterId rest
  key : ∀ job, findJob m.jobId s = some job →
    job.idempotencyKey = .analyzeScene run.bookVersionId chapterId run.mode ∨
      job.idempotencyKey = .analysisRun run.bookVersionId chapterId run.mode job.id

/-- The chain has come to the facts of the last chapter of `done`. -/
structure AtDelta (run : AnalysisRun) (s₀ s : Store) (position : ℕ) (m : Envelope)
    (payload : AnalysisPayload) (done : List Id) (chapterId : Id) (rest : List Id) : Prop where
  chain : ChainAt run s₀ s position m done done
  message : m.payload = .buildStoryBibleDelta payload
  concerns : Concerns run s₀ s payload chapterId rest

section steps

variable {run : AnalysisRun} {s₀ s : Store} {position : ℕ} {m : Envelope}
  {payload : AnalysisPayload} {done : List Id} {chapterId : Id} {rest : List Id}

theorem AtChapter.analyze (h : AtChapter run s₀ s position m payload done chapterId rest)
    (modelVersionId : Id) (hnot : chapterId ∉ done) (hchapter : (findChapter chapterId s₀).isSome)
    (hversion : (findBookVersion run.bookVersionId s₀).isSome) :
    ∃ m' payload', AtDelta run s₀ (redeliver modelVersionId m 1 3 s) (position + 1) m' payload'
      (done ++ [chapterId]) chapterId rest := by
  obtain ⟨job, hjob⟩ := h.chain.pending
  have hbible : s₀.nextId ≤ payload.storyBible s ∧ payload.storyBible s < s.nextId + 2 := by
    unfold AnalysisPayload.storyBible
    cases hpayload : payload.storyBibleVersionId with
    | none => exact ⟨h.chain.later, Nat.lt_add_of_pos_right (by decide)⟩
    | some i =>
      obtain ⟨hle, hlt⟩ := h.concerns.storyBible i hpayload
      exact ⟨hle, hlt.trans_le (Nat.le_add_right _ _)⟩
  have hfree : ∀ job ∈ s.processingJobs, job.activeIdempotencyKey ≠
      some (nextDeltaJob payload modelVersionId s).idempotencyKey := by
    refine h.chain.bibleKey_free hbible.1 ?_
    rw [h.concerns.chapterId]
    exact hnot
  have hdeliver : redeliver modelVersionId m 1 3 s = _ :=
    redeliver_analyzeScene h.message h.chain.ok h.chain.fresh hjob
      (by rw [h.concerns.chapterId, findChapter, h.chain.chapters]; exact hchapter)
      (by rw [h.concerns.bookVersionId, findBookVersion, h.chain.bookVersions]; exact hversion)
      (by rw [h.concerns.rootJobId]; exact h.chain.root) hfree
  rw [hdeliver]
  refine ⟨nextDelta payload s, { payload with
    storyBibleVersionId := some (payload.storyBible s) }, ?_, rfl, ?_⟩
  · refine h.chain.next (by decide) rfl ?_ rfl rfl rfl rfl hfree (List.Subset.refl _)
      (List.subset_append_left _ _) ?_ hbible.2 ?_
    · exact congrArg some h.concerns.rootJobId
    · show payload.chapterId ∈ done ++ [chapterId]
      rw [h.concerns.chapterId]
      exact List.mem_append_right _ (List.mem_singleton_self _)
    · intro chapterId' hchapterId'
      rcases List.mem_append.mp hchapterId' with hdone | hnew
      · exact .inl hdone
      · obtain rfl := List.mem_singleton.mp hnew
        exact .inr h.key
  · refine ⟨h.concerns.bookVersionId, h.concerns.analysisMode, h.concerns.rootJobId,
      h.concerns.chapterId, h.concerns.remaining, ?_⟩
    rintro i hi
    obtain rfl := Option.mem_some_iff.mp hi
    exact hbible

variable {nextChapterId : Id}

theorem AtDelta.integrate (h : AtDelta run s₀ s position m payload done chapterId
      (nextChapterId :: rest))
    (modelVersionId : Id) (hnot : nextChapterId ∉ done)
    (hchapter : (findChapter nextChapterId s₀).isSome)
    (hfree : KeyFree run.bookVersionId run.mode s₀ nextChapterId) :
    ∃ m' payload', AtChapter run s₀ (redeliver modelVersionId m 1 3 s) (position + 1) m' payload'
      done nextChapterId rest := by
  obtain ⟨job, hjob⟩ := h.chain.pending
  have hkey : (nextAnalyzeJob payload nextChapterId s).idempotencyKey =
      .analyzeScene run.bookVersionId nextChapterId run.mode := by
    rw [← h.concerns.bookVersionId, ← h.concerns.analysisMode]
    rfl
  have hfree' : ∀ job ∈ s.processingJobs, job.activeIdempotencyKey ≠
      some (nextAnalyzeJob payload nextChapterId s).idempotencyKey := by
    rw [hkey]
    exact (h.chain.keyFree_iff hnot).mpr hfree
  have hdeliver : redeliver modelVersionId m 1 3 s = _ :=
    redeliver_delta h.message h.concerns.remaining h.chain.ok h.chain.fresh hjob
      (by rw [findChapter, h.chain.chapters]; exact hchapter)
      (by rw [h.concerns.rootJobId]; exact h.chain.root) hfree'
  have hmem : nextChapterId ∈ done ++ [nextChapterId] :=
    List.mem_append_right _ (List.mem_singleton_self _)
  rw [hdeliver]
  have hchain : ChainAt run s₀ (afterDelivery m (nextAnalyzeJob payload nextChapterId s)
      (analyzeEnvelope s.nextId payload nextChapterId rest) 1 s) (position + 1)
      (analyzeEnvelope s.nextId payload nextChapterId rest) (done ++ [nextChapterId]) done :=
    h.chain.next (by decide) rfl (congrArg some h.concerns.rootJobId) rfl rfl rfl rfl hfree'
      (List.subset_append_left _ _) (List.Subset.refl _) hmem trivial fun _ hdone => .inl hdone
  refine ⟨_, { payload with
    chapterId := nextChapterId
    remainingChapterIds := rest }, hchain, rfl, ?_, fun job' hjob' => ?_⟩
  · refine ⟨h.concerns.bookVersionId, h.concerns.analysisMode, h.concerns.rootJobId, rfl, rfl, ?_⟩
    intro i hi
    obtain ⟨hle, hlt⟩ := h.concerns.storyBible i hi
    exact ⟨hle, hlt.trans_le (Nat.le_add_right _ _)⟩
  · -- The job that is found for the message is the new one.
    have hfound := (find?_eq_some_iff_of_nodup hchain.ok.id).mp hjob'
    have hchild : nextAnalyzeJob payload nextChapterId s ∈ finishJob m.jobId s.processingJobs ++
        [nextAnalyzeJob payload nextChapterId s] :=
      List.mem_append_right _ (List.mem_singleton_self _)
    rw [List.inj_on_of_nodup_map hchain.ok.id hfound.1 hchild hfound.2]
    exact .inl hkey

theorem AtDelta.integrate_of_held (h : AtDelta run s₀ s position m payload done chapterId
      (nextChapterId :: rest))
    (modelVersionId : Id) (hnot : nextChapterId ∉ done)
    (hchapter : (findChapter nextChapterId s₀).isSome)
    (hheld : ¬ KeyFree run.bookVersionId run.mode s₀ nextChapterId) :
    redeliver modelVersionId m 1 3 s = afterIds 3 s := by
  obtain ⟨job, hjob⟩ := h.chain.pending
  refine redeliver_delta_of_held h.message h.concerns.remaining h.chain.ok h.chain.fresh hjob
    (by rw [findChapter, h.chain.chapters]; exact hchapter)
    (by rw [h.concerns.rootJobId]; exact h.chain.root) ?_
  rw [h.concerns.bookVersionId, h.concerns.analysisMode]
  rw [← h.chain.keyFree_iff hnot, KeyFree] at hheld
  push Not at hheld
  exact hheld

theorem AtChapter.forall_ranAgain_iff
    (h : AtChapter run s₀ s position m payload done chapterId rest) (modelVersionId : Id)
    (hnodup : (done ++ chapterId :: rest).Nodup)
    (hchapters : ∀ i ∈ chapterId :: rest, (findChapter i s₀).isSome)
    (hversion : (findBookVersion run.bookVersionId s₀).isSome) :
    (∃ n, ∀ i ∈ done ++ chapterId :: rest, RanAgain run.bookVersionId run.mode s₀
      (workThrough modelVersionId n position s) i) ↔
      ∀ i ∈ rest, KeyFree run.bookVersionId run.mode s₀ i := by
  induction rest generalizing s position m payload done chapterId with
  | nil =>
    have hnot : chapterId ∉ done := fun hmem =>
      (List.nodup_cons.mp (List.nodup_middle.mp hnodup)).1 (List.mem_append_left _ hmem)
    obtain ⟨m', payload', hdelta⟩ :=
      h.analyze modelVersionId hnot (hchapters chapterId List.mem_cons_self) hversion
    refine iff_of_true ⟨1, fun i hi => ?_⟩ (by simp)
    rw [workThrough, h.chain.last]
    exact hdelta.chain.done i hi
  | cons nextChapterId rest ih =>
    have hnot : chapterId ∉ done := fun hmem =>
      (List.nodup_cons.mp (List.nodup_middle.mp hnodup)).1 (List.mem_append_left _ hmem)
    rw [List.append_cons] at hnodup ⊢
    have hnext : nextChapterId ∉ done ++ [chapterId] := fun hmem =>
      (List.nodup_cons.mp (List.nodup_middle.mp hnodup)).1 (List.mem_append_left _ hmem)
    obtain ⟨m', payload', hdelta⟩ :=
      h.analyze modelVersionId hnot (hchapters chapterId List.mem_cons_self) hversion
    have hchapters' : ∀ i ∈ nextChapterId :: rest, (findChapter i s₀).isSome := fun i hi =>
      hchapters i (List.mem_cons_of_mem _ hi)
    have hnextMem : nextChapterId ∈ done ++ [chapterId] ++ nextChapterId :: rest :=
      List.mem_append_right _ List.mem_cons_self
    -- Two messages lead from one chapter to the next.
    have htwo : ∀ n, workThrough modelVersionId (2 + n) position s =
        workThrough modelVersionId n (position + 2)
          (redeliver modelVersionId m' 1 3 (redeliver modelVersionId m 1 3 s)) := by
      have hboth : workThrough modelVersionId 2 position s =
          redeliver modelVersionId m' 1 3 (redeliver modelVersionId m 1 3 s) := by
        rw [workThrough, h.chain.last]
        dsimp only
        rw [workThrough, hdelta.chain.last]
        dsimp only
        rw [workThrough]
      exact fun n => by rw [workThrough_add, hboth]
    have hfew : ∀ n < 2, ¬ RanAgain run.bookVersionId run.mode s₀
        (workThrough modelVersionId n position s) nextChapterId := by
      intro n hn
      match n with
      | 0 => exact h.chain.not_ranAgain hnext
      | 1 =>
        rw [workThrough, h.chain.last]
        exact hdelta.chain.not_ranAgain hnext
    rw [List.forall_mem_cons]
    by_cases hfree : KeyFree run.bookVersionId run.mode s₀ nextChapterId
    · obtain ⟨m'', payload'', hchapter⟩ :=
        hdelta.integrate modelVersionId hnext (hchapters' _ List.mem_cons_self) hfree
      rw [and_iff_right hfree, ← ih hchapter hnodup hchapters']
      constructor
      · rintro ⟨n, hn⟩
        rcases Nat.lt_or_ge n 2 with hlt | hle
        · exact absurd (hn _ hnextMem) (hfew n hlt)
        · obtain ⟨n, rfl⟩ := Nat.exists_eq_add_of_le hle
          exact ⟨n, fun i hi => htwo n ▸ hn i hi⟩
      · rintro ⟨n, hn⟩
        exact ⟨2 + n, fun i hi => (htwo n).symm ▸ hn i hi⟩
    · refine iff_of_false ?_ fun hall => hfree hall.1
      rintro ⟨n, hn⟩
      rcases Nat.lt_or_ge n 2 with hlt | hle
      · exact hfew n hlt (hn _ hnextMem)
      · obtain ⟨n, rfl⟩ := Nat.exists_eq_add_of_le hle
        have hran := hn _ hnextMem
        rw [htwo, hdelta.integrate_of_held modelVersionId hnext
          (hchapters' _ List.mem_cons_self) hfree] at hran
        -- No message is left, and the rows are as they were.
        have hnone : (afterIds 3 (redeliver modelVersionId m 1 3 s)).queue[position + 2]? = none :=
          List.getElem?_eq_none hdelta.chain.length.le
        rw [workThrough_of_none hnone] at hran
        exact hdelta.chain.not_ranAgain hnext hran

end steps

/-! ## A Request -/

section request

variable {bookId bookVersionId : Id} {book : Book} {body : StartAnalysis} {s s₁ : Store}

def queuedRoot (bookId bookVersionId : Id) (mode : AnalysisMode) (firstChapter : Chapter)
    (chapters : List Chapter) (s : Store) : ProcessingJob :=
  { analysisRootJob s.nextId bookId bookVersionId mode firstChapter chapters with queued := true }

def rootMessage (bookId bookVersionId : Id) (mode : AnalysisMode) (firstChapter : Chapter)
    (chapters : List Chapter) (s : Store) : Envelope :=
  analysisRootEnvelope s.nextId bookId bookVersionId mode firstChapter chapters

def afterRequest (bookId bookVersionId : Id) (mode : AnalysisMode) (firstChapter : Chapter)
    (chapters : List Chapter) (s : Store) : Store :=
  { s with
    processingJobs := s.processingJobs ++
      [queuedRoot bookId bookVersionId mode firstChapter chapters s]
    queue := s.queue ++ [rootMessage bookId bookVersionId mode firstChapter chapters s]
    nextId := s.nextId + 1 }

theorem startAnalysis_eq_ok (hfresh : IdsFresh s) (hbook : findBook bookId s = some book)
    (hversion : book.currentBookVersionId = some bookVersionId)
    (h : (startAnalysis bookId body).evaluate (fun _ => none) s = (.ok (), s₁)) :
    (findBookVersion bookVersionId s).isSome ∧ ∃ firstChapter rest,
      chaptersToAnalyze bookVersionId body s = firstChapter :: rest ∧
      s₁ = afterRequest bookId bookVersionId body.mode firstChapter rest s ∧
      Db.ProcessingJobsOk s₁.processingJobs := by
  rw [startAnalysis, query, Prog.evaluate_read_bind rfl, hbook] at h
  simp only [hversion] at h
  rw [query, Prog.evaluate_read_bind rfl] at h
  split at h
  · cases h
  next hthere =>
  rw [not_or, Option.isNone_iff_eq_none, ← ne_eq, Option.ne_none_iff_isSome] at hthere
  refine ⟨hthere.1, ?_⟩
  rw [query, Prog.evaluate_read_bind rfl] at h
  split at h
  · cases h
  rw [query, Prog.evaluate_read_bind rfl] at h
  split at h
  · cases h
  split at h
  · cases h
  next firstChapter rest hchapters =>
  refine ⟨firstChapter, rest, hchapters, ?_⟩
  -- The id is handed out, and the three transactions commit.
  change (perform (.createJobs [analysisRootJob s.nextId bookId bookVersionId body.mode firstChapter
    rest]) >>= fun _ => enqueueProcessingJob (rootMessage bookId bookVersionId body.mode
      firstChapter rest s)).evaluate (fun _ => none) { s with nextId := s.nextId + 1 } = _ at h
  obtain ⟨_, s₂, hcreate, h⟩ := Prog.evaluate_bind_eq_ok_iff.mp h
  obtain ⟨_, s₃, henqueue, hmark⟩ := Prog.evaluate_bind_eq_ok_iff.mp h
  have hcreate := (Prog.evaluate_atomically_eq_ok_iff.mp hcreate).2
  have henqueue := (Prog.evaluate_atomically_eq_ok_iff.mp henqueue).2
  have hmark := (Prog.evaluate_atomically_eq_ok_iff.mp hmark).2
  obtain ⟨_, s₂', hinsert, hnil⟩ := Transaction.bind_eq_ok_iff.mp hcreate
  obtain ⟨-, rfl⟩ := (Table.insert_eq_ok_iff (ε := Fault) Db.processingJob).mp hinsert
  obtain ⟨-, rfl⟩ := Transaction.pure_eq_ok_iff.mp hnil
  obtain ⟨-, haccepts, rfl⟩ := updateJob_eq_ok_iff.mp hmark
  refine ⟨?_, Db.processingJob_accepts_iff.mp haccepts⟩
  -- The message is not on the broker yet.
  have hnew : ¬ (s.queue.any fun m => decide (m.jobId = s.nextId)) = true := by
    rw [List.any_eq_true]
    rintro ⟨m, hm, hid⟩
    exact absurd (hfresh.queue m hm) (of_decide_eq_true hid).ge.not_gt
  change Except.ok ((), if (s.queue.any fun m => decide (m.jobId = s.nextId)) = true then _ else _)
    = Except.ok ((), s₃) at henqueue
  rw [if_neg hnew] at henqueue
  cases henqueue
  have hrows : updateWhere (fun job => decide (job.id = s.nextId))
      (fun job => { job with queued := true })
      (s.processingJobs ++ [analysisRootJob s.nextId bookId bookVersionId body.mode firstChapter
        rest]) = s.processingJobs ++ [queuedRoot bookId bookVersionId body.mode firstChapter
          rest s] :=
    updateWhere_concat (fun job hjob => decide_eq_false (hfresh.jobs job hjob).ne)
      (decide_eq_true rfl)
  show { s with processingJobs := updateWhere _ _ _, queue := _, nextId := _ } = _
  rw [afterRequest, ← hrows]
  rfl

theorem atChapter_afterRequest {mode : AnalysisMode} {firstChapter : Chapter} {rest : List Chapter}
    (hfresh : IdsFresh s)
    (hok : Db.ProcessingJobsOk
      (afterRequest bookId bookVersionId mode firstChapter rest s).processingJobs) :
    ∃ m payload, AtChapter ⟨bookVersionId, mode, s.nextId⟩ s
      (afterRequest bookId bookVersionId mode firstChapter rest s) s.queue.length m payload []
      firstChapter.id (rest.map Chapter.id) := by
  set s₁ := afterRequest bookId bookVersionId mode firstChapter rest s
  set root := queuedRoot bookId bookVersionId mode firstChapter rest s
  have hrows : ∀ job ∈ s₁.processingJobs, job ∈ s.processingJobs ∨ job = root := fun job hjob =>
    (List.mem_append.mp hjob).imp_right List.mem_singleton.mp
  have hroot : root ∈ s₁.processingJobs := List.mem_append_right _ (List.mem_singleton_self _)
  have hfound : findJob s.nextId s₁ = some root :=
    (find?_eq_some_iff_of_nodup hok.id).mpr ⟨hroot, rfl⟩
  have hlt : s.nextId < s₁.nextId := Nat.lt_succ_self _
  refine ⟨rootMessage bookId bookVersionId mode firstChapter rest s, _, ⟨hok, ⟨?_, ?_, ?_, ?_⟩,
    hfresh, hlt.le, rfl, rfl, fun job hjob => List.mem_append_left _ hjob, ?_, by simp,
    List.mem_map_of_mem hroot, List.getElem?_concat_length, ?_, Nat.le_refl _, root,
    ⟨hfound, rfl, rfl, rfl, ?_⟩⟩, rfl, ⟨rfl, rfl, rfl, rfl, rfl, fun i hi => by cases hi⟩, ?_⟩
  · intro job hjob
    rcases hrows job hjob with hjob | rfl
    · exact (hfresh.jobs job hjob).trans hlt
    · exact hlt
  · intro job hjob
    rcases hrows job hjob with hjob | rfl
    · exact (hfresh.keys job hjob).mono hlt.le
    · exact hlt
  · intro m hm
    rcases List.mem_append.mp hm with hm | hm
    · exact (hfresh.queue m hm).trans hlt
    · rw [List.mem_singleton.mp hm]
      exact hlt
  · exact fun i hi => (hfresh.flags i hi).trans hlt
  · intro job hjob
    refine (hrows job hjob).imp_right ?_
    rintro rfl
    exact ⟨Nat.le_refl _, List.mem_singleton_self _⟩
  · exact List.length_append
  · exact fun hflag => absurd (hfresh.flags _ hflag) (Nat.lt_irrefl _)
  · intro job hjob
    have heq : some job = some root := hjob.symm.trans hfound
    cases heq
    exact .inr rfl

/-- An admitted request analyses all chapters that it asks for exactly when no live job holds the
key of one of them other than the first. -/
theorem exists_ranAgain_iff (modelVersionId : Id) (hfresh : IdsFresh s)
    (hchapters : Db.chapter.Holds s) (hbook : findBook bookId s = some book)
    (hversion : book.currentBookVersionId = some bookVersionId)
    (hadmitted : (startAnalysis bookId body).evaluate (fun _ => none) s = (.ok (), s₁)) :
    (∃ n, ∀ c ∈ chaptersToAnalyze bookVersionId body s, RanAgain bookVersionId body.mode s
      (workThrough modelVersionId n s.queue.length s₁) c.id) ↔
      ∀ c ∈ (chaptersToAnalyze bookVersionId body s).tail,
        KeyFree bookVersionId body.mode s c.id := by
  obtain ⟨hthere, firstChapter, rest, hrequested, rfl, hok⟩ :=
    startAnalysis_eq_ok hfresh hbook hversion hadmitted
  obtain ⟨m, payload, hat⟩ := atChapter_afterRequest hfresh hok
  -- The chapters that are asked for are rows of the table, each once.
  have hsublist : ∃ rows : List Chapter, rows.Perm (chaptersToAnalyze bookVersionId body s) ∧
      rows.Sublist s.chapters := by
    unfold chaptersToAnalyze chaptersOfVersion
    split
    · exact ⟨_, ((List.perm_insertionSort _ _).filter _).symm,
        List.filter_sublist.trans List.filter_sublist⟩
    · exact ⟨_, ((List.perm_insertionSort _ _).filter _).symm,
        List.filter_sublist.trans List.filter_sublist⟩
  obtain ⟨rows, hperm, hsub⟩ := hsublist
  rw [hrequested] at hperm ⊢
  have hnodup : ((firstChapter :: rest).map Chapter.id).Nodup := by
    refine (hperm.map Chapter.id).nodup_iff.mp ?_
    exact (Db.chapter_accepts_iff.mp hchapters).1.sublist (hsub.map _)
  have hfound : ∀ i ∈ firstChapter.id :: rest.map Chapter.id, (findChapter i s).isSome := by
    intro i hi
    obtain ⟨c, hc, rfl⟩ := List.mem_map.mp (show i ∈ (firstChapter :: rest).map Chapter.id from hi)
    rw [findChapter, List.find?_isSome]
    exact ⟨c, hsub.subset (hperm.mem_iff.mpr hc), decide_eq_true rfl⟩
  have hiff := hat.forall_ranAgain_iff modelVersionId hnodup hfound hthere
  rw [List.nil_append] at hiff
  rw [List.tail_cons]
  simpa only [← List.map_cons, List.forall_mem_map] using hiff

end request

/-! ## A Second Analysis -/

def bookAnalysis : StartAnalysis where
  scope := .book
  mode := .incremental

/-- The store after a request, and after the queue was worked through. -/
def requested (s : Store) : Store :=
  ((startAnalysis 1 bookAnalysis).evaluate (fun _ => none) s).2

/-- The book of two chapters, after it was analysed. -/
def analyzedBook : Store := workThrough 9 4 0 (requested twoChapterBook)

example : ∀ c ∈ chaptersToAnalyze 2 bookAnalysis twoChapterBook,
    RanAgain 2 .incremental twoChapterBook analyzedBook c.id := by decide +kernel

theorem startAnalysis_analyzedBook :
    (startAnalysis 1 bookAnalysis).evaluate (fun _ => none) analyzedBook =
      (.ok (), requested analyzedBook) := by
  have hok : ((startAnalysis 1 bookAnalysis).evaluate (fun _ => none) analyzedBook).1 = .ok () := by
    decide +kernel
  exact Prod.ext hok rfl

theorem idsFresh_analyzedBook : IdsFresh analyzedBook :=
  ⟨by decide +kernel, by decide +kernel, by decide +kernel, by decide +kernel⟩

/-- The same book is analysed once more. -/
theorem exists_ranAgain_analyzedBook :
    (∃ n, ∀ c ∈ chaptersToAnalyze 2 bookAnalysis analyzedBook, RanAgain 2 .incremental analyzedBook
      (workThrough 9 n analyzedBook.queue.length (requested analyzedBook)) c.id) ↔
      ∀ c ∈ (chaptersToAnalyze 2 bookAnalysis analyzedBook).tail,
        KeyFree 2 .incremental analyzedBook c.id := by
  have hbook : findBook 1 analyzedBook = some { id := 1, currentBookVersionId := some 2 } := rfl
  exact exists_ranAgain_iff 9 idsFresh_analyzedBook (by decide +kernel) hbook rfl
    startAnalysis_analyzedBook

/-- It is not so that a second analysis completes: the job of the second chapter is never created,
however many messages are delivered. -/
theorem not_forall_exists_ranAgain :
    ¬ ∀ (modelVersionId bookId bookVersionId : Id) (book : Book) (body : StartAnalysis)
      (s s₁ : Store), IdsFresh s → Db.chapter.Holds s → findBook bookId s = some book →
      book.currentBookVersionId = some bookVersionId →
      (startAnalysis bookId body).evaluate (fun _ => none) s = (.ok (), s₁) →
      ∃ n, ∀ c ∈ chaptersToAnalyze bookVersionId body s, RanAgain bookVersionId body.mode s
        (workThrough modelVersionId n s.queue.length s₁) c.id := by
  intro h
  obtain ⟨n, hn⟩ := h 9 1 2 { id := 1, currentBookVersionId := some 2 } bookAnalysis analyzedBook
    (requested analyzedBook) idsFresh_analyzedBook (by decide +kernel) rfl rfl
    startAnalysis_analyzedBook
  obtain ⟨c, hc, hid⟩ : ∃ c ∈ chaptersToAnalyze 2 bookAnalysis analyzedBook, c.id = 4 := by
    decide +kernel
  have hran := hn c hc
  rw [hid] at hran
  rcases Nat.lt_or_ge n 2 with hlt | hle
  · have hfew : ∀ n < 2, ¬ RanAgain 2 .incremental analyzedBook
        (workThrough 9 n analyzedBook.queue.length (requested analyzedBook)) 4 := by decide +kernel
    exact hfew n hlt hran
  · -- After two messages the queue is empty.
    obtain ⟨n, rfl⟩ := Nat.exists_eq_add_of_le hle
    rw [workThrough_add, workThrough_of_none (by decide +kernel)] at hran
    exact absurd hran (by decide +kernel)

end AudioBook
