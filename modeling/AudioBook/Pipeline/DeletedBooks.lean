import AudioBook.Pipeline.Changes

/-!
# Work on Deleted Books

A soft-deleted book should be at rest: it is deleted only when none of its jobs is active, and as
long as it is deleted no job is created for it and no message of its jobs is put on the queue.
`deleteBook` counts the jobs that are `QUEUED`, `RUNNING` or `RETRYING`; the other active statuses
are `CREATED` and `BLOCKED`. The requests that start a stage do not look at `deleted_at`.

- `Idleness`: what a step does for deleted books.
- `Attentive`: an access finds the book alive, or at rest.
- `resting_effect`: such an access leaves deleted books without active jobs.
-/

namespace AudioBook.Pipeline

open Relational Concurrent

/-! ## Deleted Books -/

/-- The book is soft-deleted. -/
def Deleted (bookId : Id) (s : Store) : Prop := (bookId, true) ∈ s.books.map deletion

instance (bookId : Id) (s : Store) : Decidable (Deleted bookId s) :=
  inferInstanceAs (Decidable (_ ∈ _))

/-- No job of the book is active, whichever its status. -/
def NoActiveJob (bookId : Id) (s : Store) : Prop :=
  ∀ job ∈ s.processingJobs, job.bookId = some bookId → ¬ job.status.IsActive

instance (bookId : Id) (s : Store) : Decidable (NoActiveJob bookId s) :=
  inferInstanceAs (Decidable (∀ job ∈ s.processingJobs, _))

def Resting (s : Store) : Prop := ∀ bookId, Deleted bookId s → NoActiveJob bookId s

/-- A step deletes a book only when none of its jobs is active, and creates and dispatches no job of
a book that is deleted. -/
structure Idleness (s s' : Store) : Prop where
  deletes : ∀ bookId, ¬ Deleted bookId s → Deleted bookId s' → NoActiveJob bookId s
  creates : ∀ bookId, Deleted bookId s → ∀ job' ∈ s'.processingJobs, job'.bookId = some bookId →
    ∃ job ∈ s.processingJobs, job.id = job'.id
  dispatches : ∀ bookId, Deleted bookId s → ∀ job ∈ s'.processingJobs, job.bookId = some bookId →
    ∀ m ∈ s'.queue, m.jobId = job.id → m ∈ s.queue

/-! ## Attentive Accesses -/

/-- The job is active, or its book is not deleted. -/
def Alive (job : ProcessingJob) (s : Store) : Prop :=
  job.status.IsActive ∨ ∀ bookId ∈ job.bookId, ¬ Deleted bookId s

instance (job : ProcessingJob) (s : Store) : Decidable (Alive job s) :=
  inferInstanceAs (Decidable (_ ∨ _))

/-- The access creates the job of a book while another job of the book is active, which it ends. -/
def GoesOn (a : PipelineAccess) (child : ProcessingJob) (s : Store) : Prop :=
  ∃ job ∈ s.processingJobs, a.parent? = some job.id ∧ job.bookId = child.bookId ∧ job.status.IsActive

instance (a : PipelineAccess) (child : ProcessingJob) (s : Store) : Decidable (GoesOn a child s) :=
  inferInstanceAs (Decidable (∃ job ∈ s.processingJobs, _))

/-- What `deleteBook` read still holds when it writes, and no job of the book is in one of the
active statuses that it does not count. -/
def Deletable (bookId : Id) (s : Store) : Prop :=
  jobsInTheWay bookId s = 0 ∧ ∀ job ∈ s.processingJobs,
    job.bookId = some bookId → job.status ∉ [.created, .blocked]

instance (bookId : Id) (s : Store) : Decidable (Deletable bookId s) :=
  inferInstanceAs (Decidable (_ ∧ _))

/-- An access meets the book of its jobs alive, or its own job active, and deletes only a book that
can be deleted. -/
structure Attentive (a : PipelineAccess) (s : Store) : Prop where
  deletes : ∀ set ∈ a.footprint.sets, set.2 = true → Deletable set.1 s
  creates : ∀ job ∈ a.footprint.creates,
    (∀ bookId ∈ job.bookId, ¬ Deleted bookId s) ∨ GoesOn a job s
  runs : ∀ job ∈ s.processingJobs, job.id ∈ a.footprint.runs → Alive job s
  sends : ∀ m ∈ a.footprint.sends, ∀ job ∈ s.processingJobs, job.id = m.jobId → Alive job s

instance (a : PipelineAccess) (s : Store) : Decidable (Attentive a s) :=
  decidable_of_iff ((∀ set ∈ a.footprint.sets, set.2 = true → Deletable set.1 s) ∧
      (∀ job ∈ a.footprint.creates,
        (∀ bookId ∈ job.bookId, ¬ Deleted bookId s) ∨ GoesOn a job s) ∧
      (∀ job ∈ s.processingJobs, job.id ∈ a.footprint.runs → Alive job s) ∧
      ∀ m ∈ a.footprint.sends, ∀ job ∈ s.processingJobs, job.id = m.jobId → Alive job s)
    ⟨fun ⟨h₁, h₂, h₃, h₄⟩ => ⟨h₁, h₂, h₃, h₄⟩, fun ⟨h₁, h₂, h₃, h₄⟩ => ⟨h₁, h₂, h₃, h₄⟩⟩

theorem Deletable.noActiveJob {bookId : Id} {s : Store} (h : Deletable bookId s) :
    NoActiveJob bookId s := by
  intro job hjob hbook hactive
  have hcounted : ¬ (job.bookId = some bookId ∧ job.status ∈ [.queued, .running, .retrying]) := by
    have hnone := List.countP_eq_zero.mp h.1 job hjob
    rwa [decide_eq_true_eq] at hnone
  have hother := h.2 job hjob hbook
  have hstatus : job.status ∉ [.queued, .running, .retrying] := fun hmem => hcounted ⟨hbook, hmem⟩
  revert hactive hother hstatus
  cases job.status <;> decide

section step

variable {a : PipelineAccess} {s : Store} {bookId : Id}

theorem Resting.not_active (h : Resting s) (hdeleted : Deleted bookId s) {job : ProcessingJob}
    (hjob : job ∈ s.processingJobs) (hbook : job.bookId = some bookId) : ¬ Alive job s := by
  rintro (hactive | halive)
  · exact h bookId hdeleted job hjob hbook hactive
  · exact halive bookId hbook hdeleted

theorem Resting.not_created (h : Resting s) (ha : Attentive a s) (hdeleted : Deleted bookId s)
    {job : ProcessingJob} (hjob : job ∈ a.footprint.creates) : job.bookId ≠ some bookId := by
  intro hbook
  rcases ha.creates job hjob with halive | ⟨own, hown, -, hsame, hactive⟩
  · exact halive bookId hbook hdeleted
  · exact h bookId hdeleted own hown (hsame.trans hbook) hactive

theorem Resting.old (h : Resting s) (ha : Attentive a s) (hdeleted : Deleted bookId s)
    {job' : ProcessingJob} (hjob' : job' ∈ (a.effect s).processingJobs)
    (hbook : job'.bookId = some bookId) :
    ∃ job ∈ s.processingJobs, RowStep a.footprint.runs job job' := by
  obtain ⟨job, hjob, hstep⟩ := (changes_effect a s).jobs job' hjob'
  rcases List.mem_append.mp hjob with hold | hnew
  · exact ⟨job, hold, hstep⟩
  · exact absurd (hstep.bookId ▸ hbook) (h.not_created ha hdeleted hnew)

theorem resting_effect (h : Resting s) (ha : Attentive a s) : Resting (a.effect s) := by
  intro bookId hdeleted job' hjob' hbook hactive
  obtain ⟨book, hbook', heq⟩ := List.mem_map.mp hdeleted
  have hfound : (bookId, true) ∈ s.books.map deletion ++ a.footprint.sets :=
    heq ▸ (changes_effect a s).books book hbook'
  rcases List.mem_append.mp hfound with hbefore | hset
  · -- The book was deleted before: its jobs are the old ones, and none of them is started.
    obtain ⟨job, hjob, hstep⟩ := h.old ha hbefore hjob' hbook
    have hbook₀ : job.bookId = some bookId := hstep.bookId ▸ hbook
    rcases hstep.active hactive with hwas | hruns
    · exact h bookId hbefore job hjob hbook₀ hwas
    · exact h.not_active hbefore hjob hbook₀ (ha.runs job hjob hruns)
  · -- It is deleted now: no job of it is active, and nothing else happens.
    have hnone : NoActiveJob bookId s := (ha.deletes _ hset rfl).noActiveJob
    obtain ⟨job, hjob, hstep⟩ := (changes_effect a s).jobs job' hjob'
    rcases List.mem_append.mp hjob with hold | hnew
    · have hruns : a.footprint.runs = [] := (simple_footprint a).sets _ hset
      rcases hstep.active hactive with hwas | hmem
      · exact hnone job hold (hstep.bookId ▸ hbook) hwas
      · rw [hruns] at hmem
        exact absurd hmem List.not_mem_nil
    · rw [((simple_footprint a).creates job hnew).2.2] at hset
      exact absurd hset List.not_mem_nil

theorem idleness_effect (h : Resting s) (ha : Attentive a s) : Idleness s (a.effect s) := by
  have hchange : Changes a.footprint s (a.effect s) := changes_effect a s
  refine ⟨fun bookId halive hdeleted => ?_, fun bookId hdeleted job' hjob' hbook => ?_,
    fun bookId hdeleted job' hjob' hbook m hm hid => ?_⟩
  · obtain ⟨book, hbook, heq⟩ := List.mem_map.mp hdeleted
    have hfound : (bookId, true) ∈ s.books.map deletion ++ a.footprint.sets :=
      heq ▸ hchange.books book hbook
    rcases List.mem_append.mp hfound with hbefore | hset
    · exact absurd hbefore halive
    · exact (ha.deletes _ hset rfl).noActiveJob
  · obtain ⟨job, hjob, hstep⟩ := h.old ha hdeleted hjob' hbook
    exact ⟨job, hjob, hstep.id.symm⟩
  · obtain ⟨job, hjob, hstep⟩ := h.old ha hdeleted hjob' hbook
    rcases List.mem_append.mp (hchange.queue m hm) with hbefore | hsent
    · exact hbefore
    · have halive : Alive job s := ha.sends m hsent job hjob (hstep.id.symm.trans hid.symm)
      exact absurd halive (h.not_active hdeleted hjob (hstep.bookId ▸ hbook))

end step

/-! ## Runs -/

theorem Idleness.refl (s : Store) : Idleness s s :=
  ⟨fun _ halive hdeleted => absurd hdeleted halive, fun _ _ job hjob _ => ⟨job, hjob, rfl⟩,
    fun _ _ _ _ _ _ hm _ => hm⟩

/-- Whether the book of two chapters is deleted, and whether one of its jobs is active. -/
def bookState (s : Store) : Bool × Bool := (decide (Deleted 1 s), decide (NoActiveJob 1 s))

/-- A user starts the Director; before the message of the job is sent, the book is to be deleted.
The job is still `CREATED`. -/
def deletedWhileCreated : List (Move PipelineRequest PipelineError) :=
  byItself 0 6 (.startDirector 1 { scope := .book }) ++ byItself 1 2 (.deleteBook 1)

end AudioBook.Pipeline
