import AudioBook.Assembly.Effects
import AudioBook.Assembly.FollowUp
import AudioBook.Concurrent.Runs
import AudioBook.Concurrent.Executions

/-!
# The Job of an Attempt

What one delivery does to the status of its job. Most parts of the processors write no status at
all and catch no exception, so an error in them changes nothing about the job; what does write
the status is one transaction, of which its label tells the new status.

Main results:

- `tracks_processAssembleChapterJob` and its siblings: the processors track every job.
-/

namespace AudioBook

open Relational Concurrent

/-! ## Open and Settled Jobs -/

/-- The job is there, with a status of a kind. -/
def HasStatus (jobId : Id) (Q : JobStatus → Prop) (s : Store) : Prop :=
  ∃ job, findJob jobId s = some job ∧ Q job.status

/-- The statuses whose jobs a redelivered message skips. -/
def JobStatus.IsSkipped (status : JobStatus) : Prop :=
  status = .succeeded ∨ status = .failed

instance (status : JobStatus) : Decidable status.IsSkipped :=
  inferInstanceAs (Decidable (_ ∨ _))

/-- A delivery for the job works on it. -/
def JobOpen (jobId : Id) (s : Store) : Prop :=
  HasStatus jobId (fun status => ¬ status.IsSkipped) s

/-- A delivery for the job skips it. -/
def JobSkipped (jobId : Id) (s : Store) : Prop :=
  HasStatus jobId JobStatus.IsSkipped s

theorem JobSkipped.not_open {jobId : Id} {s : Store} (h : JobSkipped jobId s) :
    ¬ JobOpen jobId s := by
  obtain ⟨job, hjob, hskipped⟩ := h
  rintro ⟨job', hjob', hopen⟩
  rw [hjob] at hjob'
  cases hjob'
  exact hopen hskipped

/-- An open job stays open and a settled one stays settled. -/
def LeavesJob (jobId : Id) (s s' : Store) : Prop :=
  (JobOpen jobId s → JobOpen jobId s') ∧ (JobSkipped jobId s → JobSkipped jobId s')

instance (jobId : Id) : IsPreorder Store (LeavesJob jobId) where
  refl _ := ⟨id, id⟩
  trans _ _ _ h₁ h₂ := ⟨h₂.1 ∘ h₁.1, h₂.2 ∘ h₁.2⟩

/-- A store where the status, if it is of a kind, stays so. -/
def KeepsStatus (jobId : Id) (Q : JobStatus → Prop) (s s' : Store) : Prop :=
  HasStatus jobId Q s → HasStatus jobId Q s'

instance (jobId : Id) (Q : JobStatus → Prop) : IsPreorder Store (KeepsStatus jobId Q) where
  refl _ := id
  trans _ _ _ h₁ h₂ := h₂ ∘ h₁

theorem tx_keepsStatus {a : Access} {jobId : Id} {Q : JobStatus → Prop}
    (h : ∀ w ∈ a.statusWrites, w.jobId = jobId → Q w.new) : a.tx.Within (KeepsStatus jobId Q) := by
  refine tx_jobs (fun s s' heq hq => ?_) (fun s jobs => ?_) fun id f hf hstatus => ?_
  · obtain ⟨job, hjob, hq⟩ := hq
    exact ⟨job, by rwa [findJob, heq], hq⟩
  · rintro ⟨job, hjob, hq⟩
    refine ⟨job, ?_, hq⟩
    rw [findJob, List.find?_append]
    rw [findJob] at hjob
    rw [hjob]
    rfl
  · refine updateJob_within fun s => ?_
    rintro ⟨job, hjob, hq⟩
    have hid : ∀ job, (f job).id = job.id := fun job => by rw [hf job]
    refine ⟨if job.id = id then f job else job, ?_, ?_⟩
    · rw [findJob, find?_updateWhere hid]
      rw [findJob] at hjob
      rw [hjob]
      simp
    · have hjobId := List.find?_some hjob
      have hjobId : job.id = jobId := of_decide_eq_true hjobId
      split
      · next heq =>
        rcases hstatus job with hsame | ⟨w, hw, hwid, hnew⟩
        · rwa [hsame]
        · rw [hnew]
          exact h w hw (hwid.trans (heq.symm.trans hjobId))
      · exact hq

/-! ## Accesses and the Job -/

/-- The access made the job `SUCCEEDED` or `FAILED`. -/
def Completed (jobId : Id) (x : AccessEvent) : Prop :=
  x.TookEffect ∧ Prog.Commits x.label.tx x.store ∧
    ∃ w ∈ x.label.statusWrites, w.jobId = jobId ∧ w.new.IsSkipped

/-- The access runs the transaction of its label and writes no status. -/
def Access.Silent (a : Access) (w : Store → Store) : Prop :=
  a.statusWrites = [] ∧ w = Prog.commit a.tx

/-- The access runs the transaction of its label and completes no job. -/
def Access.Unfinished (a : Access) (w : Store → Store) : Prop :=
  (∀ wr ∈ a.statusWrites, ¬ wr.new.IsSkipped) ∧ w = Prog.commit a.tx

/-- The access runs the transaction of its label and reopens no job. -/
def Access.Finishing (a : Access) (w : Store → Store) : Prop :=
  (∀ wr ∈ a.statusWrites, wr.new.IsSkipped) ∧ w = Prog.commit a.tx

theorem Access.Silent.unfinished (a : Access) (w : Store → Store) (h : a.Silent w) :
    a.Unfinished w :=
  ⟨by simp [h.1], h.2⟩

theorem Access.Silent.finishing (a : Access) (w : Store → Store) (h : a.Silent w) :
    a.Finishing w :=
  ⟨by simp [h.1], h.2⟩

theorem commit_related {R : Store → Store → Prop} [IsPreorder Store R] {a : Access}
    (h : a.tx.Within R) (s : Store) : R s (Prog.commit a.tx s) := by
  cases ht : a.tx s with
  | ok p =>
    rw [Prog.commit_of_ok ht]
    exact h s p.1 p.2 ht
  | error e =>
    rw [Prog.commit_of_error ht]
    exact refl_of R s

theorem hasStatus_of_updateJob {jobId : Id} {f : ProcessingJob → ProcessingJob} {s s' : Store}
    {u : Unit} {Q : JobStatus → Prop} (h : updateJob jobId f s = .ok (u, s'))
    (hid : ∀ job, (f job).id = job.id) (hf : ∀ job, Q (f job).status) : HasStatus jobId Q s' := by
  obtain ⟨hfound, -, rfl⟩ := updateJob_eq_ok_iff.mp h
  obtain ⟨job, hjob⟩ := Option.isSome_iff_exists.mp hfound
  rw [findJob] at hjob
  have hjobId := List.find?_some hjob
  refine ⟨f job, ?_, hf job⟩
  rw [findJob, find?_updateWhere hid, hjob]
  simp [of_decide_eq_true hjobId]

theorem settled_of_tx {a : Access} {jobId : Id} {s s' : Store} {u : Unit}
    (h : a.tx s = .ok (u, s')) (hw : ∃ w ∈ a.statusWrites, w.jobId = jobId ∧ w.new.IsSkipped) :
    JobSkipped jobId s' := by
  obtain ⟨w, hw, rfl, hskipped⟩ := hw
  cases a <;> simp only [Access.statusWrites, List.not_mem_nil, List.mem_singleton] at hw
  case cancelJobs jobs =>
    obtain ⟨p, hp, rfl⟩ := List.mem_map.mp hw
    simp [JobStatus.IsSkipped] at hskipped
  all_goals subst hw
  case halt | markRunning => simp [JobStatus.IsSkipped] at hskipped
  case markSucceeded id seen => exact hasStatus_of_updateJob h (fun _ => rfl) fun _ => .inl rfl
  case markFailed id seen errorCode =>
    exact hasStatus_of_updateJob h (fun _ => rfl) fun _ => .inr rfl
  case persistChapterAudio id audio =>
    obtain ⟨_, s₁, -, h⟩ := Transaction.bind_eq_ok_iff.mp h
    obtain ⟨_, s₂, -, h⟩ := Transaction.bind_eq_ok_iff.mp h
    exact hasStatus_of_updateJob h (fun _ => rfl) fun _ => .inl rfl
  case persistAudiobook id audiobook =>
    obtain ⟨_, s₁, -, h⟩ := Transaction.bind_eq_ok_iff.mp h
    obtain ⟨_, s₂, -, h⟩ := Transaction.bind_eq_ok_iff.mp h
    exact hasStatus_of_updateJob h (fun _ => rfl) fun _ => .inl rfl
  case failEncode id seen errorCode audiobookId format existing newId failAudiobook =>
    obtain ⟨_, s₁, h₁, h⟩ := Transaction.bind_eq_ok_iff.mp h
    obtain ⟨_, s₂, h₂, h⟩ := Transaction.bind_eq_ok_iff.mp h
    obtain ⟨-, rfl⟩ := failRendition_eq_ok h₂
    have hsettled : JobSkipped id s₁ := hasStatus_of_updateJob h₁ (fun _ => rfl) fun _ => .inr rfl
    cases failAudiobook with
    | true =>
      obtain ⟨-, rfl⟩ := (Table.update_eq_ok_iff (ε := Fault) _).mp h
      exact hsettled
    | false =>
      cases h
      exact hsettled

/-! ## Programs That Write No Status -/

section silent

/-- An access whose exception nobody catches. -/
abbrev Silent {α : Type} (p : Service α) : Prop :=
  p.Straight AccessOk Access.Silent

theorem silent_read {α : Type} {a : Access} (ha : a.tx = pure ()) (hw : a.statusWrites = [])
    (f : Store → α) : Silent (Prog.read a f) := by
  refine Prog.straight_read ⟨hw, ?_⟩ fun s => ⟨rfl, ?_⟩
  · rw [ha]
    rfl
  · change Prog.Commits a.tx s
    rw [ha]
    exact ⟨(), s, rfl⟩

theorem silent_query {α : Type} (f : Store → α) : Silent (query f) :=
  silent_read rfl rfl f

theorem silent_external : Silent external :=
  silent_read rfl rfl _

theorem silent_freshId : Silent freshId :=
  ⟨⟨rfl, rfl⟩, fun e => ⟨e, rfl⟩, fun s => ⟨trivial, .inl ⟨rfl, (), { s with nextId := s.nextId + 1 }, rfl⟩⟩⟩

theorem silent_perform {a : Access} (h : a.statusWrites = []) : Silent (perform a) :=
  Prog.straight_atomically ⟨h, rfl⟩ fun _ hcommits => ⟨rfl, hcommits⟩

theorem silent_enqueueProcessingJob (envelope : Envelope) :
    Silent (enqueueProcessingJob envelope) :=
  Prog.straight_bind (silent_perform rfl) fun _ => silent_perform rfl

theorem silent_checkAudiobookReadiness (bookId : Id) :
    Silent (checkAudiobookReadiness bookId) := by
  refine Prog.straight_bind (silent_query _) fun book => ?_
  split
  · trivial
  · refine Prog.straight_bind (silent_query _) fun total => ?_
    split
    · trivial
    · exact Prog.straight_bind (silent_query _) fun _ => trivial

theorem silent_maybeTriggerAudiobookFanIn (job : ProcessingJob) :
    Silent (maybeTriggerAudiobookFanIn job) := by
  rw [maybeTriggerAudiobookFanIn]
  split
  · split
    · trivial
    · refine Prog.straight_bind (silent_checkAudiobookReadiness _) fun readiness => ?_
      split
      · refine Prog.straight_bind (silent_query _) fun inFlight => ?_
        split
        · trivial
        · exact Prog.straight_bind silent_freshId fun _ =>
            Prog.straight_bind (silent_perform rfl) fun _ => silent_enqueueProcessingJob _
      · trivial
  · trivial

theorem silent_enqueueEncodeJobs (job : ProcessingJob) (audiobookId : Id)
    (formats : List DeliveryFormat) : Silent (enqueueEncodeJobs job audiobookId formats) := by
  induction formats with
  | nil => trivial
  | cons format formats ih =>
    exact Prog.straight_bind silent_freshId fun _ =>
      Prog.straight_bind (silent_perform rfl) fun _ =>
        Prog.straight_bind (silent_enqueueProcessingJob _) fun _ => ih

variable (audiobookId : Id)

theorem silent_missingDeliveryFormats (chapterCount : ℕ) (formats : List DeliveryFormat) :
    Silent (missingDeliveryFormats audiobookId chapterCount formats) := by
  induction formats with
  | nil => trivial
  | cons format formats ih =>
    exact Prog.straight_bind (silent_query _) fun _ => Prog.straight_bind ih fun _ => trivial

theorem silent_upsertRendition (format : DeliveryFormat) (chapterId : Option Id) :
    Silent (upsertRendition audiobookId format chapterId) := by
  refine Prog.straight_bind (silent_query _) fun existing => ?_
  split
  · exact silent_perform rfl
  · exact Prog.straight_bind silent_freshId fun _ => silent_perform rfl

theorem silent_encodeSingleFileFormat (format : DeliveryFormat) :
    Silent (encodeSingleFileFormat audiobookId format) :=
  Prog.straight_bind silent_external fun _ => silent_upsertRendition _ _ _

theorem silent_encodeMp3PerChapter (chapters : List AudiobookChapter) :
    Silent (encodeMp3PerChapter audiobookId chapters) := by
  induction chapters with
  | nil => trivial
  | cons chapter chapters ih =>
    refine Prog.straight_bind (silent_query _) fun existing => ?_
    split
    · exact Prog.straight_bind silent_external fun _ =>
        Prog.straight_bind (silent_upsertRendition _ _ _) fun _ => ih
    · exact ih

theorem silent_allFormatsFullyReady (chapterCount : ℕ) (formats : List DeliveryFormat) :
    Silent (allFormatsFullyReady audiobookId chapterCount formats) := by
  induction formats with
  | nil => trivial
  | cons format formats ih =>
    exact Prog.straight_bind (silent_query _) fun _ => Prog.straight_bind ih fun _ => trivial

theorem silent_maybePublishAudiobook (audiobook : Audiobook) :
    Silent (maybePublishAudiobook audiobook) := by
  rw [maybePublishAudiobook]
  split
  · trivial
  refine Prog.straight_bind (silent_read rfl rfl _) fun requested => ?_
  split
  · trivial
  refine Prog.straight_bind (silent_allFormatsFullyReady _ _ _) fun ready => ?_
  split
  · trivial
  refine Prog.straight_bind (silent_query _) fun _ =>
    Prog.straight_bind (silent_query _) fun current => ?_
  split
  · trivial
  · split
    · trivial
    · exact silent_perform rfl

end silent

/-! ## Programs That Track a Job -/

section tracks

variable {others : Store → Store → Prop} (hrefl : ∀ s, others s s) {jobId : Id}
  (hothers : ∀ s s', others s s' → LeavesJob jobId s s')

variable (others jobId) in
/-- Started on an open job, the program leaves it open if none of its accesses completed it, and
settled otherwise. -/
def Tracks {α : Type} (p : Service α) : Prop :=
  ∀ s es r s', p.Runs others s es r s' → JobOpen jobId s →
    JobOpen jobId s' ∧ (∀ y ∈ es, ¬ Completed jobId y) ∨
      JobSkipped jobId s' ∧ ∃ y ∈ es, Completed jobId y

variable (others jobId) in
/-- Started on a settled job, the program leaves it settled. -/
def Stays {α : Type} (p : Service α) : Prop :=
  ∀ s es r s', p.Runs others s es r s' → JobSkipped jobId s → JobSkipped jobId s'

variable {α β : Type}

private theorem tracks_append {q : Service β} (hq : Tracks others jobId q)
    (hstays : Stays others jobId q) {s₁ s' : Store} {es₁ es₂ : List AccessEvent}
    {r : Ending Fault β}
    (h₁ : JobOpen jobId s₁ ∧ (∀ y ∈ es₁, ¬ Completed jobId y) ∨
      JobSkipped jobId s₁ ∧ ∃ y ∈ es₁, Completed jobId y)
    (h₂ : q.Runs others s₁ es₂ r s') :
    JobOpen jobId s' ∧ (∀ y ∈ es₁ ++ es₂, ¬ Completed jobId y) ∨
      JobSkipped jobId s' ∧ ∃ y ∈ es₁ ++ es₂, Completed jobId y := by
  rcases h₁ with ⟨hopen, hnone⟩ | ⟨hsettled, y, hy, hcompleted⟩
  · rcases hq _ _ _ _ h₂ hopen with ⟨hopen', hnone'⟩ | ⟨hsettled, y, hy, hcompleted⟩
    · exact .inl ⟨hopen', List.forall_mem_append.mpr ⟨hnone, hnone'⟩⟩
    · exact .inr ⟨hsettled, y, List.mem_append_right _ hy, hcompleted⟩
  · exact .inr ⟨hstays _ _ _ _ h₂ hsettled, y, List.mem_append_left _ hy, hcompleted⟩

include hrefl

variable {p : Service α} {f : α → Service β}

theorem tracks_bind (hp : Tracks others jobId p) (hf : ∀ a, Tracks others jobId (f a))
    (hstays : ∀ a, Stays others jobId (f a)) : Tracks others jobId (p >>= f) := by
  intro s es r s' hrun hopen
  rcases Prog.runs_bind hrefl hrun with ⟨a, es₁, es₂, s₁, rfl, h₁, h₂⟩ | ⟨e, rfl, h₁⟩ | ⟨rfl, h₁⟩
  · exact tracks_append (hf a) (hstays a) (hp _ _ _ _ h₁ hopen) h₂
  · exact hp _ _ _ _ h₁ hopen
  · exact hp _ _ _ _ h₁ hopen

theorem tracks_tryCatch {handler : Fault → Service α} (hp : Tracks others jobId p)
    (hh : ∀ e, Tracks others jobId (handler e)) (hstays : ∀ e, Stays others jobId (handler e)) :
    Tracks others jobId (tryCatchThe Fault p handler) := by
  intro s es r s' hrun hopen
  rcases Prog.runs_tryCatch hrefl hrun with
    ⟨e, es₁, es₂, s₁, rfl, h₁, h₂⟩ | ⟨a, rfl, h₁⟩ | ⟨rfl, h₁⟩
  · exact tracks_append (hh e) (hstays e) (hp _ _ _ _ h₁ hopen) h₂
  · exact hp _ _ _ _ h₁ hopen
  · exact hp _ _ _ _ h₁ hopen

include hothers

omit hrefl in
theorem stays_of_finishing (hp : p.Always Access.Finishing) : Stays others jobId p := by
  intro s es r s' hrun
  refine hrun.related (R := KeepsStatus jobId JobStatus.IsSkipped) (fun s s' h => (hothers s s' h).2)
    (hp.mono fun a w h s => ?_)
  obtain ⟨hw, rfl⟩ := h
  exact commit_related (tx_keepsStatus fun wr hwr _ => hw wr hwr) s

omit hrefl in
theorem tracks_of_unfinished (hp : p.Always Access.Unfinished) : Tracks others jobId p := by
  intro s es r s' hrun hopen
  refine .inl ⟨?_, fun y hy => ?_⟩
  · refine hrun.related (R := KeepsStatus jobId fun status => ¬ status.IsSkipped)
      (fun s s' h => (hothers s s' h).1) (hp.mono fun a w h s => ?_) hopen
    obtain ⟨hw, rfl⟩ := h
    exact commit_related (tx_keepsStatus fun wr hwr _ => hw wr hwr) s
  · obtain ⟨w, hw, -⟩ := hp.of_trace hrun.trace y hy
    rintro ⟨-, -, wr, hwr, -, hskipped⟩
    exact hw wr hwr hskipped

omit hrefl in
theorem tracks_perform (a : Access) : Tracks others jobId (perform a) := by
  intro s es r s' hrun hopen
  rcases Prog.runs_atomically hrun with ⟨rfl, h⟩ | ⟨x, rfl, rfl, h₁, h₂⟩
  · exact .inl ⟨(hothers _ _ h).1 hopen, by simp⟩
  have hx := (hothers _ _ h₁).1 hopen
  by_cases hcompleted : Completed jobId x
  · obtain ⟨htook, ⟨u, s₂, htx⟩, hw⟩ := hcompleted
    refine .inr ⟨(hothers _ _ h₂).2 ?_, x, by simp, htook, ⟨u, s₂, htx⟩, hw⟩
    rw [Event.after_of_effect htook htx]
    exact settled_of_tx htx hw
  · refine .inl ⟨(hothers _ _ h₂).1 ?_, by simpa using hcompleted⟩
    by_cases hcommits : x.TookEffect ∧ Prog.Commits x.label.tx x.store
    · obtain ⟨htook, u, s₂, htx⟩ := hcommits
      rw [Event.after_of_effect htook htx]
      refine tx_keepsStatus (Q := fun status => ¬ status.IsSkipped) (fun w hw hid hskipped => ?_)
        _ _ _ htx hx
      exact hcompleted ⟨htook, ⟨u, s₂, htx⟩, w, hw, hid, hskipped⟩
    · rwa [Event.after_of_no_effect hcommits]

theorem tracks_bind_of_unfinished (hp : p.Always Access.Unfinished)
    (hf : ∀ a, Tracks others jobId (f a)) : Tracks others jobId (p >>= f) := by
  have hp' := tracks_of_unfinished hothers hp
  intro s es r s' hrun hopen
  rcases Prog.runs_bind hrefl hrun with ⟨a, es₁, es₂, s₁, rfl, h₁, h₂⟩ | ⟨e, rfl, h₁⟩ | ⟨rfl, h₁⟩
  · have hnone : ∀ y ∈ es₁, ¬ Completed jobId y := by
      rintro y hy ⟨-, -, wr, hwr, -, hskipped⟩
      obtain ⟨w, hw, -⟩ := hp.of_trace h₁.trace y hy
      exact hw wr hwr hskipped
    have hopen₁ : JobOpen jobId s₁ := by
      rcases hp' _ _ _ _ h₁ hopen with ⟨hopen₁, -⟩ | ⟨-, y, hy, hcompleted⟩
      · exact hopen₁
      · exact absurd hcompleted (hnone y hy)
    rcases hf a _ _ _ _ h₂ hopen₁ with ⟨hopen', hnone'⟩ | ⟨hsettled, y, hy, hcompleted⟩
    · exact .inl ⟨hopen', List.forall_mem_append.mpr ⟨hnone, hnone'⟩⟩
    · exact .inr ⟨hsettled, y, List.mem_append_right _ hy, hcompleted⟩
  · exact hp' _ _ _ _ h₁ hopen
  · exact hp' _ _ _ _ h₁ hopen

theorem tracks_bind_of_silent (hp : Silent p) (hf : ∀ a, Tracks others jobId (f a)) :
    Tracks others jobId (p >>= f) :=
  tracks_bind_of_unfinished hrefl hothers (hp.always.mono Access.Silent.unfinished) hf

theorem tracks_bind_silent (hp : Tracks others jobId p) (hf : ∀ a, Silent (f a)) :
    Tracks others jobId (p >>= f) :=
  tracks_bind hrefl hp
    (fun a => tracks_of_unfinished hothers ((hf a).always.mono Access.Silent.unfinished))
    fun a => stays_of_finishing hothers ((hf a).always.mono Access.Silent.finishing)

/-! ## The Processors -/

theorem tracks_query_bind {f : Store → α} {k : α → Service β}
    (hk : ∀ a, Tracks others jobId (k a)) : Tracks others jobId (query f >>= k) :=
  tracks_bind_of_silent hrefl hothers (silent_query f) hk

omit hrefl in
theorem tracks_pure (a : α) : Tracks others jobId (pure a : Service α) :=
  tracks_of_unfinished hothers trivial

omit hrefl in
theorem tracks_throw (e : Fault) : Tracks others jobId (throw e : Service α) :=
  tracks_of_unfinished hothers trivial

theorem tracks_recordFailure (id : Id) (settled : List JobStatus) (errorCode : ErrorCode) :
    Tracks others jobId (recordFailure id settled errorCode) := by
  refine tracks_query_bind hrefl hothers fun found => ?_
  split
  · exact tracks_pure hothers _
  · split
    · exact tracks_pure hothers _
    · exact tracks_perform hothers _

omit hrefl hothers in
theorem finishing_recordFailure (id : Id) (settled : List JobStatus) (errorCode : ErrorCode) :
    (recordFailure id settled errorCode).Always Access.Finishing := by
  refine Prog.always_bind ((silent_query _).always.mono Access.Silent.finishing) fun found => ?_
  split
  · trivial
  · split
    · trivial
    · exact Prog.always_atomically ⟨by simp [Access.statusWrites, JobStatus.IsSkipped], rfl⟩

omit hrefl hothers in
theorem unfinished_markRunning (id : Id) (seen : JobStatus) :
    (perform (.markRunning id seen)).Always Access.Unfinished :=
  Prog.always_atomically ⟨by simp [Access.statusWrites, JobStatus.IsSkipped], rfl⟩

theorem tracks_handler {p : Service Unit} (hp : Tracks others jobId p)
    (hfinishing : p.Always Access.Finishing) (e : Fault) :
    Tracks others jobId (p >>= fun _ => (throw e : Service Unit)) ∧
      Stays others jobId (p >>= fun _ => (throw e : Service Unit)) :=
  ⟨tracks_bind_silent hrefl hothers hp fun _ => trivial,
    stays_of_finishing hothers (Prog.always_bind hfinishing fun _ => trivial)⟩

variable (computeManifestHash : List (Id × Hash) → Hash)

theorem tracks_processAssembleChapterJob (chapterId : Id) (d : Delivery) :
    Tracks others jobId (processAssembleChapterJob computeManifestHash chapterId d) := by
  have hq {α β : Type} := @tracks_query_bind others hrefl jobId hothers α β
  have hs {α β : Type} := @tracks_bind_of_silent others hrefl jobId hothers α β
  have hrecord := tracks_recordFailure hrefl hothers
  rw [processAssembleChapterJob]
  split
  · exact tracks_throw hothers _
  refine hq fun found => ?_
  split
  · exact tracks_throw hothers _
  next job =>
  split
  · exact tracks_pure hothers _
  split
  · exact tracks_throw hothers _
  refine hq fun chapter => ?_
  split
  · exact tracks_throw hothers _
  refine hq fun chunks => ?_
  split
  · split
    · exact tracks_bind_silent hrefl hothers (hrecord _ _ _) fun _ => trivial
    refine hq fun existing => ?_
    split
    · exact tracks_bind_silent hrefl hothers (tracks_perform hothers _) fun _ =>
        Prog.straight_bind (silent_maybeTriggerAudiobookFanIn _) fun _ => trivial
    refine tracks_bind_of_unfinished hrefl hothers (unfinished_markRunning _ _) fun _ => ?_
    have hhandler : ∀ err, Tracks others jobId (handleChapterAssemblyFailure job err d) ∧
        (handleChapterAssemblyFailure job err d).Always Access.Finishing := fun err => by
      rw [handleChapterAssemblyFailure]
      split
      · exact ⟨tracks_pure hothers _, trivial⟩
      · exact ⟨hrecord _ _ _, finishing_recordFailure _ _ _⟩
    refine tracks_tryCatch hrefl ?_
      (fun err => (tracks_handler hrefl hothers (hhandler err).1 (hhandler err).2 err).1)
      fun err => (tracks_handler hrefl hothers (hhandler err).1 (hhandler err).2 err).2
    refine hs silent_external fun _ => hq fun _ => hs silent_external fun _ =>
      hs silent_freshId fun _ => ?_
    exact tracks_bind_silent hrefl hothers (tracks_perform hothers _) fun _ =>
      silent_maybeTriggerAudiobookFanIn _
  · exact hrecord _ _ _

theorem tracks_assembleAudiobook (job : ProcessingJob) (bookId bookVersionId : Id)
    (chapters : List OrderedChapterAudio) (primaryFormat : DeliveryFormat)
    (deliveryFormats : List DeliveryFormat) (chapterManifestHash : Hash) :
    Tracks others jobId (assembleAudiobook job bookId bookVersionId chapters primaryFormat
      deliveryFormats chapterManifestHash) := by
  have hq {α β : Type} := @tracks_query_bind others hrefl jobId hothers α β
  have hs {α β : Type} := @tracks_bind_of_silent others hrefl jobId hothers α β
  refine hs silent_external fun _ => hq fun bookVersion => ?_
  split
  · exact tracks_throw hothers _
  refine hq fun hasChunk => ?_
  split
  · exact tracks_throw hothers _
  refine hq fun _ => hs silent_external fun _ => hs silent_freshId fun _ => ?_
  exact tracks_bind_silent hrefl hothers (tracks_perform hothers _) fun _ =>
    silent_enqueueEncodeJobs _ _ _

theorem tracks_resumeOrAssembleAudiobook (job : ProcessingJob) (bookId bookVersionId : Id)
    (chapters : List OrderedChapterAudio) (primaryFormat : DeliveryFormat)
    (deliveryFormats : List DeliveryFormat) :
    Tracks others jobId (resumeOrAssembleAudiobook computeManifestHash job bookId bookVersionId
      chapters primaryFormat deliveryFormats) := by
  have hq {α β : Type} := @tracks_query_bind others hrefl jobId hothers α β
  have hs {α β : Type} := @tracks_bind_of_silent others hrefl jobId hothers α β
  refine hq fun existing => ?_
  split
  · exact hs (silent_missingDeliveryFormats _ _ _) fun _ =>
      tracks_bind_silent hrefl hothers (tracks_perform hothers _) fun _ =>
        silent_enqueueEncodeJobs _ _ _
  refine tracks_bind_of_unfinished hrefl hothers (unfinished_markRunning _ _) fun _ => ?_
  have hhandler := fun err => tracks_handler hrefl hothers
    (tracks_recordFailure hrefl hothers job.id [.failed, .succeeded]
      (errorCodeOf err .audiobookAssemblyFailed)) (finishing_recordFailure _ _ _) err
  exact tracks_tryCatch hrefl (tracks_assembleAudiobook hrefl hothers _ _ _ _ _ _ _)
    (fun err => (hhandler err).1) fun err => (hhandler err).2

theorem tracks_processAssembleAudiobookJob (deliveryFormats : List DeliveryFormat) (d : Delivery) :
    Tracks others jobId (processAssembleAudiobookJob computeManifestHash deliveryFormats d) := by
  have hq {α β : Type} := @tracks_query_bind others hrefl jobId hothers α β
  have hrecord := tracks_recordFailure hrefl hothers
  rw [processAssembleAudiobookJob]
  split
  · exact tracks_throw hothers _
  refine hq fun found => ?_
  split
  · exact tracks_throw hothers _
  split
  · exact tracks_pure hothers _
  split
  · refine hq fun book => ?_
    split
    · exact tracks_throw hothers _
    refine tracks_bind_of_silent hrefl hothers (silent_checkAudiobookReadiness _) fun readiness => ?_
    split
    · refine hq fun chapters => ?_
      split
      · exact hrecord _ _ _
      · exact tracks_throw hothers _
      · split
        · exact tracks_bind_silent hrefl hothers (hrecord _ _ _) fun _ => trivial
        · exact tracks_resumeOrAssembleAudiobook hrefl hothers _ _ _ _ _ _ _
    · exact hrecord _ _ _
  · exact tracks_throw hothers _

theorem tracks_processEncodeDeliveryFormatJob (audiobookId : Id) (format : DeliveryFormat)
    (d : Delivery) :
    Tracks others jobId (processEncodeDeliveryFormatJob audiobookId format d) := by
  have hq {α β : Type} := @tracks_query_bind others hrefl jobId hothers α β
  have hs {α β : Type} := @tracks_bind_of_silent others hrefl jobId hothers α β
  rw [processEncodeDeliveryFormatJob]
  split
  · exact tracks_throw hothers _
  refine hq fun found => ?_
  split
  · exact tracks_throw hothers _
  next job =>
  split
  · exact tracks_pure hothers _
  refine hq fun audiobook => ?_
  split
  · exact tracks_throw hothers _
  next audiobook =>
  refine hq fun ready => ?_
  split
  · exact tracks_bind_silent hrefl hothers (tracks_perform hothers _) fun _ =>
      Prog.straight_bind (silent_maybePublishAudiobook _) fun _ => trivial
  refine tracks_bind_of_unfinished hrefl hothers (unfinished_markRunning _ _) fun _ => ?_
  have hhandler : ∀ err, Tracks others jobId (handleEncodeFailure job audiobook format err d) ∧
      (handleEncodeFailure job audiobook format err d).Always Access.Finishing := fun err => by
    have hf {α : Type} {p : Service α} (h : Silent p) : p.Always Access.Finishing :=
      h.always.mono Access.Silent.finishing
    rw [handleEncodeFailure]
    split
    · exact ⟨tracks_pure hothers _, trivial⟩
    refine ⟨hq fun current => ?_, Prog.always_bind (hf (silent_query _)) fun current => ?_⟩
    · split
      · exact tracks_pure hothers _
      · split
        · exact tracks_pure hothers _
        · exact hq fun _ => hs silent_freshId fun _ => hq fun _ => tracks_perform hothers _
    · split
      · trivial
      · split
        · trivial
        · exact Prog.always_bind (hf (silent_query _)) fun _ =>
            Prog.always_bind (hf silent_freshId) fun _ =>
              Prog.always_bind (hf (silent_query _)) fun _ =>
                Prog.always_atomically ⟨by simp [Access.statusWrites, JobStatus.IsSkipped], rfl⟩
  refine tracks_tryCatch hrefl ?_
    (fun err => (tracks_handler hrefl hothers (hhandler err).1 (hhandler err).2 err).1)
    fun err => (tracks_handler hrefl hothers (hhandler err).1 (hhandler err).2 err).2
  refine hs silent_external fun _ => ?_
  split
  · exact hs (silent_encodeMp3PerChapter _ _) fun _ =>
      tracks_bind_silent hrefl hothers (tracks_perform hothers _) fun _ =>
        silent_maybePublishAudiobook _
  · exact hs (silent_encodeSingleFileFormat _ _) fun _ =>
      tracks_bind_silent hrefl hothers (tracks_perform hothers _) fun _ =>
        silent_maybePublishAudiobook _

end tracks

end AudioBook
