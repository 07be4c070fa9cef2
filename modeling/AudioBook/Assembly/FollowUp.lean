import AudioBook.Assembly.Steps
import AudioBook.Concurrent.Retry

/-!
# The Follow-Up of an Artifact

Whether the step that follows a stored artifact can get lost. A processor stores a chapter's
audio or an audiobook in the transaction that makes its job `SUCCEEDED`, and triggers the
audiobook or creates the encode jobs afterwards. A redelivered message of a job that is
`SUCCEEDED` is skipped, so nothing catches up on what a crash in between left out.

Main results:

- `nothingLost_of_unharmed`: in unharmed deliveries every success is followed up.
-/

namespace AudioBook

open Concurrent

/-- An access that some program of a service made. -/
abbrev AccessEvent := Event Store Access Fault

/-- The access was acknowledged and its transaction committed. -/
def AccessOk (x : AccessEvent) : Prop :=
  x.fate = .done ∧ Prog.Commits x.label.tx x.store

/-- The access made a job `SUCCEEDED`, whether or not the program learned of it. -/
def MadeSuccess (x : AccessEvent) : Prop :=
  x.label.MarksSuccess ∧ x.TookEffect ∧ Prog.Commits x.label.tx x.store

instance (x : AccessEvent) : Decidable (AccessOk x) :=
  inferInstanceAs (Decidable (_ ∧ _))

instance (a : Access) : Decidable a.MarksSuccess := by
  cases a <;> unfold Access.MarksSuccess <;> infer_instance

instance (x : AccessEvent) : Decidable (MadeSuccess x) :=
  inferInstanceAs (Decidable (_ ∧ _ ∧ _))

/-! ## What Counts as Followed Up -/

/-- An execution contains a complete execution of a program. -/
def Performs (q : Service Unit) (es : List AccessEvent) : Prop :=
  ∃ es₁ mid es₂, es = es₁ ++ mid ++ es₂ ∧ q.Trace mid (.returned ())

/-- The job of a message, as an access of the execution met it. -/
def JobRead (m : Envelope) (job : ProcessingJob) (es : List AccessEvent) : Prop :=
  ∃ x ∈ es, ∃ i, m.entityId = some i ∧ findJob i x.store = some job

/-- The encode job of an audiobook in a format was created, and its message put on the broker. -/
def EncodeJobCreated (job : ProcessingJob) (audiobookId : Id) (format : DeliveryFormat)
    (es : List AccessEvent) : Prop :=
  ∃ i, (∃ x ∈ es, AccessOk x ∧ x.label = .createJobs [encodeJob i job audiobookId format]) ∧
    ∃ x ∈ es, AccessOk x ∧ x.label = .enqueue (encodeEnvelope i audiobookId format)

/-- The audiobook was found ready in a format, which needs no encode job. -/
def FoundReady (audiobookId : Id) (format : DeliveryFormat) (es : List AccessEvent) : Prop :=
  ∃ x ∈ es, ∃ chapterCount, isDeliveryFormatReady audiobookId format chapterCount x.store = true

/-- What follows the success of an `assemble_audiobook` job: every requested format of the new
audiobook gets its encode job, or every format of the one found unchanged that was not ready. -/
def EncodesFollow (job : ProcessingJob) (deliveryFormats : List DeliveryFormat)
    (pre : List AccessEvent) (x : AccessEvent) (post : List AccessEvent) : Prop :=
  match x.label with
  | .persistAudiobook _ audiobook =>
      ∀ format ∈ deliveryFormats, EncodeJobCreated job audiobook.id format post
  | _ => ∃ i, ∀ format ∈ deliveryFormats,
      EncodeJobCreated job i format post ∨ FoundReady i format pre

/-- The follow-up of the success `x` of a message was performed in `post`; what came before the
success in its delivery is `pre`. -/
def FollowedUp (m : Envelope) (pre : List AccessEvent) (x : AccessEvent)
    (post : List AccessEvent) : Prop :=
  match m.payload with
  | .assembleChapter _ =>
      ∃ job, JobRead m job pre ∧ Performs (maybeTriggerAudiobookFanIn job) post
  | .assembleAudiobook _ deliveryFormats =>
      ∃ job, JobRead m job pre ∧ EncodesFollow job deliveryFormats pre x post
  | _ => True

/-! ## Deliveries of One Message -/

/-- One delivery of a message, as it went. -/
abbrev AssemblyAttempt := Attempt Delivery Store Access Fault Unit

/-- The deliveries of a message, one after the other from a store, where `others` says what the
store can become while the worker does not access it. -/
abbrev Redelivered (computeManifestHash : List (Id × Hash) → Hash)
    (others : Store → Store → Prop) (m : Envelope) : Store → List AssemblyAttempt → Prop :=
  Retried (deliver computeManifestHash) others fun d => d.envelope = m

/-- Every success is followed up, in the delivery it happened in or in a later one. -/
abbrev NothingLost (m : Envelope) (attempts : List AssemblyAttempt) : Prop :=
  NeverLost MadeSuccess (FollowedUp m) attempts

/-! ## Programs That Raise Only When an Access Fails -/

section quiet

theorem AccessOk.done {x : AccessEvent} (h : AccessOk x) : x.fate = .done := h.1

theorem AccessOk.commits {a : Access} {x : AccessEvent} (hlabel : x.label = a) (h : AccessOk x) :
    x.fate = .done ∧ Prog.Commits a.tx x.store :=
  ⟨h.1, hlabel ▸ h.2⟩

theorem quiet_query {α : Type} (f : Store → α) : (query f).Quiet AccessOk :=
  Prog.quiet_read (fun _ h => h.done) _ f

theorem quiet_perform (a : Access) : (perform a).Quiet AccessOk :=
  Prog.quiet_atomically fun _ hlabel h => h.commits hlabel

theorem quiet_freshId : freshId.Quiet AccessOk := by
  intro es r h hok e
  cases h with
  | crash => simp
  | access s fate h =>
    have hdone : fate = .done := (hok _ List.mem_cons_self).done
    subst hdone
    change Prog.Trace (.ret s.nextId) _ r at h
    cases h
    simp

theorem quiet_enqueueProcessingJob (envelope : Envelope) :
    (enqueueProcessingJob envelope).Quiet AccessOk :=
  Prog.quiet_bind (quiet_perform _) fun _ => quiet_perform _

theorem quiet_checkAudiobookReadiness (bookId : Id) :
    (checkAudiobookReadiness bookId).Quiet AccessOk := by
  refine Prog.quiet_bind (quiet_query _) fun book => ?_
  split
  · exact Prog.quiet_pure _
  · refine Prog.quiet_bind (quiet_query _) fun total => ?_
    split
    · exact Prog.quiet_pure _
    · exact Prog.quiet_bind (quiet_query _) fun _ => Prog.quiet_pure _

theorem quiet_maybeTriggerAudiobookFanIn (job : ProcessingJob) :
    (maybeTriggerAudiobookFanIn job).Quiet AccessOk := by
  rw [maybeTriggerAudiobookFanIn]
  split
  · split
    · exact Prog.quiet_pure _
    · refine Prog.quiet_bind (quiet_checkAudiobookReadiness _) fun readiness => ?_
      split
      · refine Prog.quiet_bind (quiet_query _) fun inFlight => ?_
        split
        · exact Prog.quiet_pure _
        · refine Prog.quiet_bind quiet_freshId fun newJobId => ?_
          exact Prog.quiet_bind (quiet_perform _) fun _ => quiet_enqueueProcessingJob _
      · exact Prog.quiet_pure _
  · exact Prog.quiet_pure _

theorem quiet_enqueueEncodeJobs (job : ProcessingJob) (audiobookId : Id)
    (formats : List DeliveryFormat) :
    (enqueueEncodeJobs job audiobookId formats).Quiet AccessOk := by
  induction formats with
  | nil => exact Prog.quiet_pure _
  | cons format formats ih =>
    refine Prog.quiet_bind quiet_freshId fun encodeJobId => ?_
    refine Prog.quiet_bind (quiet_perform _) fun _ => ?_
    exact Prog.quiet_bind (quiet_enqueueProcessingJob _) fun _ => ih

end quiet

/-! ## What Executions Contain -/

section traces

variable {es : List AccessEvent}

theorem exists_of_perform {a : Access} {u : Unit} (h : (perform a).Trace es (.returned u)) :
    ∃ x, es = [x] ∧ x.label = a := by
  rcases Prog.trace_atomically h with ⟨-, hcrash⟩ | ⟨s, fate, rfl, -⟩
  · cases hcrash
  · exact ⟨_, rfl, rfl⟩

theorem exists_of_query {α : Type} {f : Store → α} {a : α}
    (h : (query f).Trace es (.returned a)) : ∃ x, es = [x] ∧ x.label = .query ∧ a = f x.store := by
  rcases Prog.trace_read h with ⟨-, hcrash⟩ | ⟨s, fate, rfl, hreturn, -⟩
  · cases hcrash
  · exact ⟨_, rfl, rfl, (hreturn a rfl).2⟩

theorem encodeJobs_created {job : ProcessingJob} {audiobookId : Id} {formats : List DeliveryFormat}
    {u : Unit} (h : (enqueueEncodeJobs job audiobookId formats).Trace es (.returned u))
    (hok : ∀ y ∈ es, AccessOk y) :
    ∀ format ∈ formats, EncodeJobCreated job audiobookId format es := by
  induction formats generalizing es with
  | nil => simp
  | cons format formats ih =>
    obtain ⟨i, es₁, es₂, rfl, -, h⟩ := Prog.trace_bind_returned h
    obtain ⟨_, es₃, es₄, rfl, hcreate, h⟩ := Prog.trace_bind_returned h
    obtain ⟨_, es₅, es₆, rfl, henqueue, hrest⟩ := Prog.trace_bind_returned h
    obtain ⟨_, es₇, es₈, rfl, hmessage, -⟩ := Prog.trace_bind_returned henqueue
    obtain ⟨x, rfl, hx⟩ := exists_of_perform hcreate
    obtain ⟨y, rfl, hy⟩ := exists_of_perform hmessage
    intro format' hformat'
    rcases List.mem_cons.mp hformat' with rfl | hformat'
    · exact ⟨i, ⟨x, by simp, hok x (by simp), hx⟩, y, by simp, hok y (by simp), hy⟩
    · obtain ⟨j, ⟨x', hx', hx''⟩, y', hy', hy''⟩ :=
        ih hrest (fun z hz => hok z (by simp [hz])) format' hformat'
      exact ⟨j, ⟨x', by simp [hx'], hx''⟩, y', by simp [hy'], hy''⟩

theorem foundReady_of_not_missing {audiobookId : Id} {chapterCount : ℕ}
    {formats missing : List DeliveryFormat}
    (h : (missingDeliveryFormats audiobookId chapterCount formats).Trace es (.returned missing)) :
    ∀ format ∈ formats, format ∈ missing ∨ FoundReady audiobookId format es := by
  induction formats generalizing es missing with
  | nil => simp
  | cons format formats ih =>
    obtain ⟨ready, es₁, es₂, rfl, hquery, h⟩ := Prog.trace_bind_returned h
    obtain ⟨rest, es₃, es₄, rfl, hrest, h⟩ := Prog.trace_bind_returned h
    obtain ⟨x, rfl, -, rfl⟩ := exists_of_query hquery
    have hmissing : missing = if isDeliveryFormatReady audiobookId format chapterCount x.store
        then rest else format :: rest := by
      cases h
      rfl
    intro format' hformat'
    rcases List.mem_cons.mp hformat' with rfl | hformat'
    · cases hready : isDeliveryFormatReady audiobookId format' chapterCount x.store with
      | true => exact .inr ⟨x, by simp, chapterCount, hready⟩
      | false => exact .inl (by simp [hmissing, hready])
    · rcases ih hrest format' hformat' with hmem | ⟨y, hy, hready⟩
      · left
        rw [hmissing]
        split
        · exact hmem
        · exact List.mem_cons_of_mem _ hmem
      · exact .inr ⟨y, by simp [hy], hready⟩

end traces

/-! ## Following Up Is Kept by More Accesses -/

section mono

variable {es₁ es₂ pre post : List AccessEvent} {x : AccessEvent} {job : ProcessingJob}

theorem Performs.mono {q : Service Unit} (h : Performs q post) : Performs q (post ++ es₂) := by
  obtain ⟨a, mid, b, rfl, hq⟩ := h
  exact ⟨a, mid, b ++ es₂, by simp, hq⟩

theorem JobRead.mono {m : Envelope} (h : JobRead m job pre) : JobRead m job (es₁ ++ pre) := by
  obtain ⟨y, hy, hread⟩ := h
  exact ⟨y, List.mem_append_right _ hy, hread⟩

theorem EncodeJobCreated.mono {i : Id} {format : DeliveryFormat}
    (h : EncodeJobCreated job i format post) : EncodeJobCreated job i format (post ++ es₂) := by
  obtain ⟨j, ⟨y, hy, hcreate⟩, z, hz, hmessage⟩ := h
  exact ⟨j, ⟨y, List.mem_append_left _ hy, hcreate⟩, z, List.mem_append_left _ hz, hmessage⟩

theorem FoundReady.mono {i : Id} {format : DeliveryFormat} (h : FoundReady i format pre) :
    FoundReady i format (es₁ ++ pre) := by
  obtain ⟨y, hy, hready⟩ := h
  exact ⟨y, List.mem_append_right _ hy, hready⟩

theorem EncodesFollow.mono {formats : List DeliveryFormat} (h : EncodesFollow job formats pre x post) :
    EncodesFollow job formats (es₁ ++ pre) x (post ++ es₂) := by
  unfold EncodesFollow at h ⊢
  split
  · next heq =>
    simp only [heq] at h
    exact fun format hformat => (h format hformat).mono
  · next hne =>
    have h' : ∃ i, ∀ format ∈ formats,
        EncodeJobCreated job i format post ∨ FoundReady i format pre := by
      split at h
      · next heq => exact absurd heq (hne _ _)
      · exact h
    obtain ⟨i, hi⟩ := h'
    exact ⟨i, fun format hformat =>
      (hi format hformat).imp EncodeJobCreated.mono FoundReady.mono⟩

theorem FollowedUp.mono {m : Envelope} (h : FollowedUp m pre x post) :
    FollowedUp m (es₁ ++ pre) x (post ++ es₂) := by
  unfold FollowedUp at h ⊢
  split at h
  · obtain ⟨job, hread, hperforms⟩ := h
    exact ⟨job, hread.mono, hperforms.mono⟩
  · obtain ⟨job, hread, hfollow⟩ := h
    exact ⟨job, hread.mono, hfollow.mono⟩
  · trivial

end mono

/-! ## The Processors Follow Up -/

section settles

variable {done : List AccessEvent → AccessEvent → List AccessEvent → Prop}

theorem not_madeSuccess_of_plain (a : Access) (w : Store → Store) (h : a.Plain w) (x : AccessEvent)
    (hlabel : x.label = a) : ¬ MadeSuccess x := by
  rintro ⟨hmarks, -⟩
  exact h.1 (hlabel ▸ hmarks)

theorem settles_of_plain {α : Type} {p : Service α}
    (h : p.Always fun a _ => ∀ x : AccessEvent, x.label = a → ¬ MadeSuccess x) :
    p.Settles MadeSuccess AccessOk done :=
  Prog.settles_of_always h

theorem performs_of_trace {q : Service Unit} {es : List AccessEvent}
    (h : q.Trace es (.returned ())) : Performs q es :=
  ⟨[], es, [], by simp, h⟩

theorem settles_perform_fanIn (a : Access) (job : ProcessingJob) :
    (perform a >>= fun _ => maybeTriggerAudiobookFanIn job).Settles MadeSuccess AccessOk
      fun _ _ post => Performs (maybeTriggerAudiobookFanIn job) post := by
  apply Prog.settles_atomically_bind_of_quiet
  · exact fun x hlabel h => h.commits hlabel
  · exact fun _ => always_maybeTriggerAudiobookFanIn not_madeSuccess_of_plain job
  · exact fun _ => quiet_maybeTriggerAudiobookFanIn job
  · exact fun x es _ b _ htrace _ => performs_of_trace htrace

section chapter

variable {job : ProcessingJob}

theorem settles_assembleChapter (chapterId : Id) (chunks : List OrderedChunk)
    (chunkManifestHash : Hash) (directorVersion : ℕ) (d : Delivery) :
    (assembleChapter job chapterId chunks chunkManifestHash directorVersion d).Settles MadeSuccess
      AccessOk fun _ _ post => Performs (maybeTriggerAudiobookFanIn job) post := by
  have hP := not_madeSuccess_of_plain
  refine Prog.settles_bind Performs.mono (settles_of_plain (always_external hP)) fun _ => ?_
  refine Prog.settles_bind Performs.mono (settles_of_plain (always_query hP _)) fun _ => ?_
  refine Prog.settles_bind Performs.mono (settles_of_plain (always_external hP)) fun _ => ?_
  refine Prog.settles_bind Performs.mono (settles_of_plain (always_freshId hP)) fun _ => ?_
  exact settles_perform_fanIn _ job

theorem settles_processAssembleChapterJob (computeManifestHash : List (Id × Hash) → Hash)
    (chapterId : Id) (d : Delivery) :
    (processAssembleChapterJob computeManifestHash chapterId d).Settles MadeSuccess AccessOk
      fun pre _ post => ∃ job, JobRead d.envelope job pre ∧
        Performs (maybeTriggerAudiobookFanIn job) post := by
  have hP := not_madeSuccess_of_plain
  rw [processAssembleChapterJob]
  split
  · exact Prog.settles_throw _
  next processingJobId hid =>
  -- The job that the fan-in is about is the one that this query returned.
  refine Prog.settles_bind_of_trace (fun found _ _ post => ∃ job, found = some job ∧
    Performs (maybeTriggerAudiobookFanIn job) post) (always_query hP _) ?_ ?_
  · rintro (_ | job)
    · exact Prog.settles_throw _
    simp only [Option.some.injEq, exists_eq_left']
    split
    · exact Prog.settles_pure _
    next hjob =>
    have hseen : job.status ∉ [.succeeded, .failed] := by simpa using hjob
    split
    · exact Prog.settles_throw _
    refine Prog.settles_bind Performs.mono (settles_of_plain (always_query hP _)) fun chapter => ?_
    split
    · exact Prog.settles_throw _
    refine Prog.settles_bind Performs.mono (settles_of_plain (always_query hP _)) fun chunks => ?_
    split
    · split
      · refine settles_of_plain (Prog.always_bind ?_ fun _ => trivial)
        exact always_recordFailure hP (by simp) _ _
      refine Prog.settles_bind Performs.mono (settles_of_plain (always_query hP _)) fun existing => ?_
      split
      · -- The audio is there already: the job is made `SUCCEEDED` and the fan-in checked.
        rw [← Prog.bind_assoc]
        exact Prog.settles_bind Performs.mono (settles_perform_fanIn _ job) fun _ => Prog.settles_pure _
      refine Prog.settles_bind Performs.mono (settles_of_plain ?_) fun _ => ?_
      · exact always_perform hP not_false not_false hseen
      refine Prog.settles_tryCatch Performs.mono (settles_assembleChapter _ _ _ _ d) fun err => ?_
      refine Prog.settles_bind Performs.mono (settles_of_plain ?_) fun _ => Prog.settles_throw _
      rw [handleChapterAssemblyFailure]
      split
      · trivial
      · exact always_recordFailure hP (by simp) _ _
    · exact settles_of_plain (always_recordFailure hP (by simp) _ _)
  · rintro found es₁ pre x post hquery ⟨job, rfl, hperforms⟩
    obtain ⟨y, rfl, -, hfound⟩ := exists_of_query hquery
    exact ⟨job, ⟨y, by simp, processingJobId, hid, hfound.symm⟩, hperforms⟩

end chapter

section audiobook

variable {job : ProcessingJob}

theorem settles_perform_encodes (a : Access) (audiobookId : Id) (formats : List DeliveryFormat) :
    (perform a >>= fun _ => enqueueEncodeJobs job audiobookId formats).Settles MadeSuccess AccessOk
      fun _ x post => x.label = a ∧ ∀ format ∈ formats,
        EncodeJobCreated job audiobookId format post := by
  apply Prog.settles_atomically_bind_of_quiet
  · exact fun x hlabel h => h.commits hlabel
  · exact fun _ => always_enqueueEncodeJobs not_madeSuccess_of_plain _ _ _
  · exact fun _ => quiet_enqueueEncodeJobs _ _ _
  · exact fun x es _ b hlabel htrace hok => ⟨hlabel, encodeJobs_created htrace hok⟩

theorem settles_assembleAudiobook (bookId bookVersionId : Id) (chapters : List OrderedChapterAudio)
    (primaryFormat : DeliveryFormat) (deliveryFormats : List DeliveryFormat)
    (chapterManifestHash : Hash) :
    (assembleAudiobook job bookId bookVersionId chapters primaryFormat deliveryFormats
      chapterManifestHash).Settles MadeSuccess AccessOk (EncodesFollow job deliveryFormats) := by
  have hP := not_madeSuccess_of_plain
  refine Prog.settles_bind EncodesFollow.mono (settles_of_plain (always_external hP)) fun _ => ?_
  refine Prog.settles_bind EncodesFollow.mono (settles_of_plain (always_query hP _)) fun _ => ?_
  split
  · exact Prog.settles_throw _
  refine Prog.settles_bind EncodesFollow.mono (settles_of_plain (always_query hP _)) fun hasChunk => ?_
  split
  · exact Prog.settles_throw _
  refine Prog.settles_bind EncodesFollow.mono (settles_of_plain (always_query hP _)) fun _ => ?_
  refine Prog.settles_bind EncodesFollow.mono (settles_of_plain (always_external hP)) fun _ => ?_
  refine Prog.settles_bind EncodesFollow.mono (settles_of_plain (always_freshId hP)) fun _ => ?_
  refine (settles_perform_encodes _ _ deliveryFormats).mono fun pre x post h => ?_
  rw [EncodesFollow, h.1]
  exact h.2

theorem settles_resumeOrAssembleAudiobook (computeManifestHash : List (Id × Hash) → Hash)
    (hseen : job.status ∉ [.succeeded, .failed]) (bookId bookVersionId : Id)
    (chapters : List OrderedChapterAudio) (primaryFormat : DeliveryFormat)
    (deliveryFormats : List DeliveryFormat) :
    (resumeOrAssembleAudiobook computeManifestHash job bookId bookVersionId chapters primaryFormat
      deliveryFormats).Settles MadeSuccess AccessOk (EncodesFollow job deliveryFormats) := by
  have hP := not_madeSuccess_of_plain
  refine Prog.settles_bind EncodesFollow.mono (settles_of_plain (always_query hP _)) fun existing => ?_
  split
  · -- A format without an encode job is one that was found ready.
    next existing =>
    refine Prog.settles_bind_of_trace (fun missing _ x post =>
      x.label = .markSucceeded job.id job.status ∧
        ∀ format ∈ missing, EncodeJobCreated job existing.id format post)
      (always_missingDeliveryFormats hP _ _ _) (fun missing => settles_perform_encodes _ _ missing) ?_
    rintro missing es₁ pre x post htrace ⟨hlabel, hcreated⟩
    rw [EncodesFollow, hlabel]
    refine ⟨existing.id, fun format hformat => ?_⟩
    rcases foundReady_of_not_missing htrace format hformat with hmissing | ⟨y, hy, hready⟩
    · exact .inl (hcreated format hmissing)
    · exact .inr ⟨y, List.mem_append_left _ hy, hready⟩
  · refine Prog.settles_bind EncodesFollow.mono (settles_of_plain ?_) fun _ => ?_
    · exact always_perform hP not_false not_false hseen
    refine Prog.settles_tryCatch EncodesFollow.mono (settles_assembleAudiobook _ _ _ _ _ _) fun err => ?_
    refine settles_of_plain (Prog.always_bind ?_ fun _ => trivial)
    exact always_recordFailure hP (by simp) _ _

theorem settles_processAssembleAudiobookJob (computeManifestHash : List (Id × Hash) → Hash)
    (deliveryFormats : List DeliveryFormat) (d : Delivery) :
    (processAssembleAudiobookJob computeManifestHash deliveryFormats d).Settles MadeSuccess AccessOk
      fun pre x post => ∃ job, JobRead d.envelope job pre ∧
        EncodesFollow job deliveryFormats pre x post := by
  have hP := not_madeSuccess_of_plain
  rw [processAssembleAudiobookJob]
  split
  · exact Prog.settles_throw _
  next processingJobId hid =>
  refine Prog.settles_bind_of_trace (fun found pre x post => ∃ job, found = some job ∧
    EncodesFollow job deliveryFormats pre x post) (always_query hP _) ?_ ?_
  · rintro (_ | job)
    · exact Prog.settles_throw _
    simp only [Option.some.injEq, exists_eq_left']
    split
    · exact Prog.settles_pure _
    next hjob =>
    have hseen : job.status ∉ [.succeeded, .failed] := by simpa using hjob
    split
    · refine Prog.settles_bind EncodesFollow.mono (settles_of_plain (always_query hP _)) fun book => ?_
      split
      · exact Prog.settles_throw _
      refine Prog.settles_bind EncodesFollow.mono
        (settles_of_plain (always_checkAudiobookReadiness hP _)) fun readiness => ?_
      split
      · refine Prog.settles_bind EncodesFollow.mono (settles_of_plain (always_query hP _)) fun chapters => ?_
        split
        · exact settles_of_plain (always_recordFailure hP (by simp) _ _)
        · exact Prog.settles_throw _
        · split
          · refine settles_of_plain (Prog.always_bind ?_ fun _ => trivial)
            exact always_recordFailure hP (by simp) _ _
          · exact settles_resumeOrAssembleAudiobook computeManifestHash hseen _ _ _ _ _
      · exact settles_of_plain (always_recordFailure hP (by simp) _ _)
    · exact Prog.settles_throw _
  · rintro found es₁ pre x post hquery ⟨job, rfl, hfollow⟩
    obtain ⟨y, rfl, -, hfound⟩ := exists_of_query hquery
    exact ⟨job, ⟨y, by simp, processingJobId, hid, hfound.symm⟩, by
      simpa using @EncodesFollow.mono [y] [] pre post x job deliveryFormats hfollow⟩

end audiobook

theorem settles_deliver (computeManifestHash : List (Id × Hash) → Hash) (d : Delivery) :
    (deliver computeManifestHash d).Settles MadeSuccess AccessOk (FollowedUp d.envelope) := by
  have hP := not_madeSuccess_of_plain
  refine Prog.settles_bind FollowedUp.mono (settles_of_plain (always_haltIfCancelled hP _)) fun halted => ?_
  split
  · exact Prog.settles_pure _
  split
  · next chapterId hpayload =>
    refine (settles_processAssembleChapterJob _ _ d).mono fun pre x post h => ?_
    rw [FollowedUp, hpayload]
    exact h
  · next bookId deliveryFormats hpayload =>
    refine (settles_processAssembleAudiobookJob _ _ d).mono fun pre x post h => ?_
    rw [FollowedUp, hpayload]
    exact h
  · next audiobookId format hpayload =>
    -- Nothing is owed to an encode job.
    intro es r _ _ pre x post _ _ _
    rw [FollowedUp, hpayload]
    trivial
  · exact Prog.settles_throw _

end settles

/-- If nothing fails from the success of the job on, in every delivery of a message in which the
job succeeds, every success is followed up. -/
theorem nothingLost_of_unharmed {computeManifestHash : List (Id × Hash) → Hash}
    {others : Store → Store → Prop} {m : Envelope} {s : Store} {attempts : List AssemblyAttempt}
    (h : Redelivered computeManifestHash others m s attempts)
    (hunharmed : ∀ attempt ∈ attempts, attempt.Unharmed MadeSuccess AccessOk) :
    NothingLost m attempts := by
  apply Retried.neverLost_of_unharmed h
  · rintro d rfl
    exact settles_deliver computeManifestHash d
  · exact hunharmed

/-! ## A Lost Follow-Up -/

theorem fanIn_trace_shape {job : ProcessingJob} {bookId : Id} (hbook : job.bookId = some bookId)
    (hscope : job.scope.bind JobScope.scope = some .audiobook) {es : List AccessEvent}
    (h : (maybeTriggerAudiobookFanIn job).Trace es (.returned ())) :
    ∃ x rest, es = x :: rest ∧ x.label = .query ∧
      ((findBook bookId x.store).bind Book.currentBookVersionId = none ∨
        ∃ y rest', rest = y :: rest' ∧ y.label = .query) := by
  obtain ⟨scope, hjob, hasked⟩ := Option.bind_eq_some_iff.mp hscope
  rw [maybeTriggerAudiobookFanIn, hbook, hjob] at h
  simp only [hasked, ne_eq, not_true_eq_false, if_false] at h
  obtain ⟨readiness, es₁, es₂, rfl, hready, -⟩ := Prog.trace_bind_returned h
  obtain ⟨book, es₃, es₄, rfl, hquery, hrest⟩ := Prog.trace_bind_returned hready
  obtain ⟨x, rfl, hlabel, rfl⟩ := exists_of_query hquery
  refine ⟨x, es₄ ++ es₂, by simp, hlabel, ?_⟩
  split at hrest
  · next hnone => exact .inl hnone
  · obtain ⟨total, es₅, es₆, rfl, htotal, -⟩ := Prog.trace_bind_returned hrest
    obtain ⟨y, rfl, hlabel', -⟩ := exists_of_query htotal
    exact .inr ⟨y, es₆ ++ es₂, by simp, hlabel'⟩

/-- The small book, after a user asked for its audiobook. -/
def requestedBook : Store :=
  ((startAssembly polynomialDigest 1 { scope := .audiobook, deliveryFormats := [.m4b] }).evaluate
    (fun _ => none) narratedBook).2

/-- A delivery in which the worker makes `n` accesses and then crashes, unless it is done. -/
def deliveryOf (d : Delivery) (s : Store) (n : ℕ) : AssemblyAttempt × Store :=
  let run := (deliver polynomialDigest d).execute s (List.replicate n .done)
  (⟨d, run.1, run.2.1⟩, run.2.2)

theorem runs_deliveryOf (d : Delivery) (s : Store) (n : ℕ) :
    (deliver polynomialDigest d).Runs Eq s (deliveryOf d s n).1.events (deliveryOf d s n).1.ending
      (deliveryOf d s n).2 :=
  Prog.runs_execute (fun _ => rfl) _ s _

/-- The first delivery of the chapter's message, and how many accesses it makes. -/
def firstChapterDelivery (n : ℕ) : AssemblyAttempt × Store :=
  deliveryOf ⟨chapterEnvelope 100 3, 0, 77⟩ requestedBook n

/-- The second delivery, after a first one of `n` accesses. -/
def secondChapterDelivery (n : ℕ) : AssemblyAttempt × Store :=
  deliveryOf ⟨chapterEnvelope 100 3, 1, 77⟩ (firstChapterDelivery n).2 20

theorem redelivered_twice (n : ℕ) :
    Redelivered polynomialDigest Eq (chapterEnvelope 100 3) requestedBook
      [(firstChapterDelivery n).1, (secondChapterDelivery n).1] :=
  .cons rfl (runs_deliveryOf _ _ _) (.cons rfl (runs_deliveryOf _ _ _) (.nil _))

/-- Nothing goes wrong: the chapter is assembled, and its message delivered once more. -/
theorem nothingLost_of_unharmed_uneventful :
    NothingLost (chapterEnvelope 100 3) [(firstChapterDelivery 20).1, (secondChapterDelivery 20).1] := by
  refine nothingLost_of_unharmed (redelivered_twice 20) ?_
  have h : ∀ attempt ∈ [(firstChapterDelivery 20).1, (secondChapterDelivery 20).1],
      (∀ y ∈ attempt.events, AccessOk y) ∧ attempt.ending ≠ .crashed := by decide +kernel
  exact fun attempt hattempt => Attempt.Faultless.unharmed (h attempt hattempt)

/-- The job that a message names asked for the audiobook of a book. -/
def AskedForAudiobook (m : Envelope) (bookId : Id) (s : Store) : Prop :=
  ∀ i ∈ m.entityId, ∀ job ∈ findJob i s,
    job.bookId = some bookId ∧ job.scope.bind JobScope.scope = some .audiobook

instance (m : Envelope) (bookId : Id) (s : Store) : Decidable (AskedForAudiobook m bookId s) :=
  inferInstanceAs (Decidable (∀ i ∈ _, ∀ job ∈ _, _ ∧ _))

instance (a : Access) : Decidable (a = .query) := by
  cases a
  case query => exact isTrue rfl
  all_goals exact isFalse (by rintro ⟨⟩)

theorem not_performs_fanIn_of_skipped {job : ProcessingJob} {bookId : Id}
    (hbook : job.bookId = some bookId)
    (hscope : job.scope.bind JobScope.scope = some .audiobook) {x y z : AccessEvent}
    (hversion : ∀ w ∈ [x, y, z], (findBook bookId w.store).bind Book.currentBookVersionId ≠ none)
    (hlabel : y.label ≠ .query) : ¬ Performs (maybeTriggerAudiobookFanIn job) [x, y, z] := by
  rintro ⟨es₁, mid, es₂, heq, htrace⟩
  obtain ⟨a, rest, rfl, ha, hnone | ⟨b, rest', rfl, hb⟩⟩ := fanIn_trace_shape hbook hscope htrace
  · refine hversion a ?_ hnone
    rw [heq]
    simp
  · -- The two queries would be the first two of the three accesses, or the last two.
    rcases es₁ with _ | ⟨c, _ | ⟨c', es₁⟩⟩
    · simp only [List.nil_append, List.cons_append, List.cons.injEq] at heq
      exact hlabel (heq.2.1 ▸ hb)
    · simp only [List.nil_append, List.cons_append, List.cons.injEq] at heq
      exact hlabel (heq.2.1 ▸ ha)
    · have hlength := congrArg List.length heq
      simp only [List.length_cons, List.length_append, List.length_nil] at hlength
      omega

/-- The worker crashes right after the chapter's audio was stored; the message is delivered
again, nothing fails this time, and the fan-in was never checked. -/
theorem not_forall_nothingLost :
    ¬ ∀ (computeManifestHash : List (Id × Hash) → Hash) (others : Store → Store → Prop)
        (m : Envelope) (s : Store) (attempts : List AssemblyAttempt) (last : AssemblyAttempt),
        Redelivered computeManifestHash others m s (attempts ++ [last]) →
        last.Faultless AccessOk → NothingLost m (attempts ++ [last]) := by
  intro hclaim
  have hfaultless : (∀ y ∈ (secondChapterDelivery 12).1.events, AccessOk y) ∧
      (secondChapterDelivery 12).1.ending ≠ .crashed := by decide +kernel
  have hlost := hclaim _ _ _ _ [(firstChapterDelivery 12).1] _ (redelivered_twice 12) hfaultless
  -- The first delivery ends with the success of the job.
  have hlast : ∀ x ∈ (firstChapterDelivery 12).1.events.drop 11, MadeSuccess x := by decide +kernel
  obtain ⟨x, hx⟩ : ∃ x, (firstChapterDelivery 12).1.events.drop 11 = [x] :=
    List.length_eq_one_iff.mp (by decide +kernel)
  have hsplit : (firstChapterDelivery 12).1.events
      = (firstChapterDelivery 12).1.events.take 11 ++ [x] := by
    rw [← hx, List.take_append_drop]
  have hasked : ∀ y ∈ (firstChapterDelivery 12).1.events.take 11,
      AskedForAudiobook (chapterEnvelope 100 3) 1 y.store := by decide +kernel
  -- The second one makes three accesses, of which the middle one asks the cache.
  obtain ⟨a, b, c, hskipped⟩ : ∃ a b c, (secondChapterDelivery 12).1.events = [a, b, c] :=
    List.length_eq_three.mp (by decide +kernel)
  have hversion : ∀ y ∈ (secondChapterDelivery 12).1.events,
      (findBook 1 y.store).bind Book.currentBookVersionId ≠ none := by decide +kernel
  have hlabel : ∀ y ∈ ((secondChapterDelivery 12).1.events.drop 1).take 1, y.label ≠ .query := by
    decide +kernel
  rcases hlost _ [(secondChapterDelivery 12).1] (List.suffix_refl _) _ x [] hsplit
    (hlast x (by simp [hx])) with ⟨job, ⟨y, hy, i, hi, hjob⟩, hperforms⟩ |
      ⟨attempt, hattempt, job, ⟨y, hy, i, hi, hjob⟩, hperforms⟩
  · obtain ⟨hbook, hscope⟩ := hasked y hy i hi job hjob
    obtain ⟨es₁, mid, es₂, heq, htrace⟩ := hperforms
    obtain ⟨z, rest, rfl, -⟩ := fanIn_trace_shape hbook hscope htrace
    simp at heq
  · obtain ⟨hbook, hscope⟩ := hasked y hy i hi job hjob
    obtain rfl := List.mem_singleton.mp hattempt
    rw [hskipped] at hperforms hversion hlabel
    exact not_performs_fanIn_of_skipped hbook hscope hversion (hlabel b (by simp)) hperforms

end AudioBook
