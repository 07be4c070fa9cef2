import AudioBook.Pipeline.Changes

/-!
# One Chain at a Time

A run of the Director and an analysis are chains of jobs: a request creates the first one, and each
ends in the transaction that creates the next. Of one book, only one chain of a kind should be
active at a time. A request reads that no job of its kind is active before it creates its job, in a
transaction of its own, and a worker reads that its job is not over before it starts it.

- `OneChain`: the active jobs of one kind and one book belong to one chain.
- `InTurn`: an access finds what its program read.
- `oneLink_effect`: such an access keeps a single active job of a kind and a book.
-/

namespace AudioBook.Pipeline

open Relational Concurrent

/-! ## Chains -/

inductive ChainKind
  | analysis
  | director
  deriving DecidableEq

def chainKind? : JobType → Option ChainKind
  | .analyzeScene | .buildStoryBibleDelta => some .analysis
  | .generateDirectorIr => some .director
  | _ => none

def chainRoot (job : ProcessingJob) : Id := job.parentJobId.getD job.id

/-- Two jobs are links of chains of one kind, for one book. -/
def Rivals (job other : ProcessingJob) : Prop :=
  (chainKind? job.type).isSome ∧ chainKind? other.type = chainKind? job.type ∧
    other.bookId = job.bookId

instance (job other : ProcessingJob) : Decidable (Rivals job other) :=
  inferInstanceAs (Decidable (_ ∧ _ ∧ _))

theorem Rivals.symm {job other : ProcessingJob} (h : Rivals job other) : Rivals other job :=
  ⟨h.2.1 ▸ h.1, h.2.1.symm, h.2.2.symm⟩

theorem Rivals.trans {a b c : ProcessingJob} (hab : Rivals a b) (hbc : Rivals b c) : Rivals a c :=
  ⟨hab.1, hbc.2.1.trans hab.2.1, hbc.2.2.trans hab.2.2⟩

theorem RowStep.rivals {runs₁ runs₂ : List Id} {a a' b b' : ProcessingJob}
    (ha : RowStep runs₁ a a') (hb : RowStep runs₂ b b') (h : Rivals a' b') : Rivals a b := by
  obtain ⟨hkind, hsame, hbook⟩ := h
  rw [ha.type, hb.type] at hsame
  rw [ha.type] at hkind
  rw [ha.bookId, hb.bookId] at hbook
  exact ⟨hkind, hsame, hbook⟩

/-- The active jobs of one kind and one book belong to one chain. -/
def OneChain (s : Store) : Prop :=
  ∀ job ∈ s.processingJobs, ∀ other ∈ s.processingJobs, Rivals job other →
    job.status.IsActive → other.status.IsActive → chainRoot job = chainRoot other

instance (s : Store) : Decidable (OneChain s) :=
  inferInstanceAs (Decidable (∀ job ∈ s.processingJobs, ∀ other ∈ s.processingJobs, _))

/-! ## Accesses in Turn -/

/-- No job of the kind of a job and of its book is active. -/
def Idle (job : ProcessingJob) (s : Store) : Prop :=
  ∀ other ∈ s.processingJobs, Rivals job other → ¬ other.status.IsActive

instance (job : ProcessingJob) (s : Store) : Decidable (Idle job s) :=
  inferInstanceAs (Decidable (∀ other ∈ s.processingJobs, _))

/-- An access creates the next job of a chain while the job before it is active. -/
def Continues (a : PipelineAccess) (child : ProcessingJob) (s : Store) : Prop :=
  ∃ job ∈ s.processingJobs,
    a.parent? = some job.id ∧ Rivals child job ∧ job.status.IsActive

instance (a : PipelineAccess) (child : ProcessingJob) (s : Store) :
    Decidable (Continues a child s) :=
  inferInstanceAs (Decidable (∃ job ∈ s.processingJobs, _))

/-- What the program of an access read still holds: a request creates its job while no job of its
kind and book is active, a worker creates the next job while its own is active, and starts a job
that is still active. -/
structure InTurn (a : PipelineAccess) (s : Store) : Prop where
  creates : ∀ job ∈ a.footprint.creates, Idle job s ∨ Continues a job s
  apart : a.footprint.creates.Pairwise fun job other => ¬ Rivals job other
  runs : ∀ job ∈ s.processingJobs, job.id ∈ a.footprint.runs → job.status.IsActive ∨ Idle job s

instance (a : PipelineAccess) (s : Store) : Decidable (InTurn a s) :=
  decidable_of_iff ((∀ job ∈ a.footprint.creates, Idle job s ∨ Continues a job s) ∧
      (a.footprint.creates.Pairwise fun job other => ¬ Rivals job other) ∧
      ∀ job ∈ s.processingJobs, job.id ∈ a.footprint.runs → job.status.IsActive ∨ Idle job s)
    ⟨fun ⟨h₁, h₂, h₃⟩ => ⟨h₁, h₂, h₃⟩, fun ⟨h₁, h₂, h₃⟩ => ⟨h₁, h₂, h₃⟩⟩

/-! ## One Link -/

/-- Of one kind and one book, a single job is active. -/
structure OneLink (s : Store) : Prop where
  ids : (s.processingJobs.map ProcessingJob.id).Nodup
  link : ∀ job ∈ s.processingJobs, ∀ other ∈ s.processingJobs, Rivals job other →
    job.status.IsActive → other.status.IsActive → job.id = other.id

theorem OneLink.oneChain {s : Store} (h : OneLink s) : OneChain s := by
  intro job hjob other hother hrivals hactive hactive'
  have hid : job.id = other.id := h.link job hjob other hother hrivals hactive hactive'
  rw [List.inj_on_of_nodup_map h.ids hjob hother hid]

section step

variable {a : PipelineAccess} {s : Store}

theorem InTurn.active (hturn : InTurn a s) {job job' : ProcessingJob}
    (hjob : job ∈ s.processingJobs) (hstep : RowStep a.footprint.runs job job')
    (hactive : job'.status.IsActive) :
    job.status.IsActive ∨ job.id ∈ a.footprint.runs ∧ Idle job s := by
  rcases hstep.active hactive with hbefore | hruns
  · exact .inl hbefore
  · rcases hturn.runs job hjob hruns with hbefore | hidle
    · exact .inl hbefore
    · exact .inr ⟨hruns, hidle⟩

theorem OneLink.id_of_old (h : OneLink s) (hturn : InTurn a s) {job other job' other' : ProcessingJob}
    (hjob : job ∈ s.processingJobs) (hother : other ∈ s.processingJobs)
    (hstep : RowStep a.footprint.runs job job') (hstep' : RowStep a.footprint.runs other other')
    (hrivals : Rivals job other) (hactive : job'.status.IsActive)
    (hactive' : other'.status.IsActive) : job.id = other.id := by
  rcases hturn.active hjob hstep hactive, hturn.active hother hstep' hactive' with
    ⟨hbefore | ⟨hruns, hidle⟩, hbefore' | ⟨hruns', hidle'⟩⟩
  · exact h.link job hjob other hother hrivals hbefore hbefore'
  · exact absurd hbefore (hidle' job hjob hrivals.symm)
  · exact absurd hbefore' (hidle other hother hrivals)
  · exact (simple_footprint a).runs _ hruns _ hruns'

theorem OneLink.not_active_of_created (h : OneLink s) (hturn : InTurn a s)
    {job other other' : ProcessingJob} (hjob : job ∈ a.footprint.creates)
    (hother : other ∈ s.processingJobs) (hother' : other' ∈ (a.effect s).processingJobs)
    (hstep : RowStep a.footprint.runs other other') (hrivals : Rivals job other)
    (hwrites : a.effect s ≠ s) : ¬ other'.status.IsActive := by
  intro hactive'
  have hruns : a.footprint.runs = [] := ((simple_footprint a).creates job hjob).1
  have hbefore : other.status.IsActive := by
    rcases hstep.active hactive' with hbefore | hmem
    · exact hbefore
    · rw [hruns] at hmem
      exact absurd hmem List.not_mem_nil
  rcases hturn.creates job hjob with hidle | ⟨own, hown, hparent, hrivals', hactive⟩
  · exact hidle other hother hrivals hbefore
  · -- The job before is the only active one, and it is over.
    have hid : own.id = other.id :=
      h.link own hown other hother (hrivals'.symm.trans hrivals) hactive hbefore
    have hended : Ended own.id (a.effect s) := (ended_effect hparent s).resolve_left hwrites
    exact hended other' hother' (hstep.id.trans hid.symm) hactive'

theorem oneLink_effect (h : OneLink s) (hturn : InTurn a s) : OneLink (a.effect s) := by
  by_cases hwrites : a.effect s = s
  · rw [hwrites]
    exact h
  have hchange : Changes a.footprint s (a.effect s) := changes_effect a s
  refine ⟨hchange.ids h.ids, fun job' hjob' other' hother' hrivals' hactive hactive' => ?_⟩
  obtain ⟨job, hjob, hstep⟩ := hchange.jobs job' hjob'
  obtain ⟨other, hother, hstep'⟩ := hchange.jobs other' hother'
  have hrivals : Rivals job other := hstep.rivals hstep' hrivals'
  rw [hstep.id, hstep'.id]
  rcases List.mem_append.mp hjob, List.mem_append.mp hother with ⟨hold | hnew, hold' | hnew'⟩
  · exact h.id_of_old hturn hold hold' hstep hstep' hrivals hactive hactive'
  · exact absurd hactive
      (h.not_active_of_created hturn hnew' hold hjob' hstep hrivals.symm hwrites)
  · exact absurd hactive'
      (h.not_active_of_created hturn hnew hold' hother' hstep' hrivals hwrites)
  · -- Of the jobs that one access creates, no two are rivals.
    by_contra hne
    have hsymm : Std.Symm fun job other : ProcessingJob => ¬ Rivals job other :=
      ⟨fun _ _ hnot hrivals => hnot hrivals.symm⟩
    exact hturn.apart.forall hnew hnew' (fun heq => hne (congrArg ProcessingJob.id heq)) hrivals

end step

/-! ## Runs -/

/-- In every run in which the accesses find what their programs read, at most one Director chain
and at most one analysis chain is active for a book, also between two of its chapters. -/
theorem oneChain_of_inTurn (computeManifestHash : List (Id × Hash) → Hash)
    {c : Config Store PipelineAccess PipelineError}
    (hc : (pipelineSystem computeManifestHash).Reachable InTurn c) : OneChain c.store := by
  refine OneLink.oneChain (hc.invariant_of_always (always_program computeManifestHash) ?_ ?_)
  · intro s hs
    exact ⟨by rw [hs.jobs]; exact List.nodup_nil,
      fun job hjob => absurd (hs.jobs ▸ hjob) List.not_mem_nil⟩
  · rintro a w s (rfl | rfl) hturn h
    · exact h
    · exact oneLink_effect h hturn

/-! ## Two Requests -/

def activeChains (s : Store) : List (Id × Id) :=
  (s.processingJobs.filter fun job => decide job.status.IsActive).map fun job =>
    (job.id, chainRoot job)

/-- A user starts the Director, and a worker directs the first chapter. -/
def firstChapterDirected : List (Move PipelineRequest PipelineError) :=
  byItself 0 8 (.startDirector 1 { scope := .book }) ++
    byItself 1 12 (.deliver (plainDelivery directedBookMessage 1))

/-- Between the two chapters, the job of the second one continues the chain of the first. -/
theorem oneChain_firstChapterDirected :
    ∃ c, (pipelineSystem polynomialDigest).Reachable InTurn c ∧
      activeChains c.store = [(103, 100)] ∧ OneChain c.store := by
  have hplay : ((pipelineSystem polynomialDigest).playAll InTurn ⟨twoChapterBook, []⟩
      firstChapterDirected).map (fun c => activeChains c.store) = some [(103, 100)] := by
    decide +kernel
  obtain ⟨c, hrun, hchains⟩ := System.exists_run_of_playAll (f := activeChains) hplay
  have hreach : (pipelineSystem polynomialDigest).Reachable InTurn c :=
    ⟨twoChapterBook, nothingStarted_twoChapterBook, hrun⟩
  exact ⟨c, hreach, hchains, oneChain_of_inTurn polynomialDigest hreach⟩

/-- Two users start the Director, and both requests read the jobs before either creates its own. -/
def directedTwice : List (Move PipelineRequest PipelineError) :=
  byItself 0 3 (.startDirector 1 { scope := .book }) ++
    byItself 1 8 (.startDirector 1 { scope := .book }) ++ List.replicate 5 (.proceed 0)

/-- It is not so that in every run at most one chain of a kind is active for a book. -/
theorem not_forall_oneChain :
    ¬ ∀ (computeManifestHash : List (Id × Hash) → Hash) (c : Config Store PipelineAccess PipelineError),
      (pipelineSystem computeManifestHash).Reachable anyAccess c → OneChain c.store := by
  intro h
  have hplay : ((pipelineSystem polynomialDigest).playAll anyAccess ⟨twoChapterBook, []⟩
      directedTwice).map (fun c => decide (OneChain c.store)) = some false := by decide +kernel
  obtain ⟨c, hrun, htwo⟩ :=
    System.exists_run_of_playAll (f := fun s => decide (OneChain s)) hplay
  have hone : OneChain c.store :=
    h polynomialDigest c ⟨twoChapterBook, nothingStarted_twoChapterBook, hrun⟩
  exact absurd hone (of_decide_eq_false htwo)

end AudioBook.Pipeline
