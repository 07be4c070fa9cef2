import AudioBook.Assembly.System
import AudioBook.Concurrent.Contract

/-!
# What a Step Can Do

Every access of every program of the assembly system runs the transaction of its label, and the
data in the label has passed the checks that the program makes before the access. Most accesses
are right whatever the store holds by then. Two rely on a row that the program read before: an
overwritten rendition must be the one that was looked up, and a published audiobook the one that
was encoded. Invariants of the system are derived from these facts, without unfolding a program
again.

Main results:

- `AssemblyRules.respects`: the system respects a contract whose rules hold.
-/

namespace AudioBook

open Relational Concurrent

/-- What the program that makes an access has checked about its label. -/
def Access.Checked : Access → Prop
  | cancelJobs jobs => ∀ p ∈ jobs, ¬ p.2.IsTerminal
  | halt _ seen => seen ≠ .cancelled
  | markRunning _ seen => seen ∉ [.succeeded, .failed]
  | markSucceeded _ seen => seen ∉ [.succeeded, .failed]
  | markFailed _ seen _ => seen ≠ .failed
  | failEncode _ seen _ _ _ _ _ _ => seen ≠ .failed
  | createJobs jobs => ∀ job ∈ jobs, job.status = .created
  | persistAudiobook jobId audiobook => audiobook.status = .assembling ∧
      audiobook.jobId = some jobId ∧ 0 < audiobook.chapterCount
  | _ => True

/-- The transaction writes to a row that the program read before. -/
def Access.NeedsRow : Access → Prop
  | updateRendition _ _ => True
  | publish _ _ => True
  | _ => False

/-- The access runs the transaction of its label or leaves the store alone, and its label is
checked. -/
def Access.Sound (a : Access) (w : Store → Store) : Prop :=
  a.Checked ∧ (w = id ∨ w = Prog.commit a.tx)

/-- The transaction makes a processor's job `SUCCEEDED`. -/
def Access.MarksSuccess : Access → Prop
  | markSucceeded _ _ => True
  | persistChapterAudio _ _ => True
  | persistAudiobook _ _ => True
  | _ => False

/-- A sound access that relies on no row read before. -/
def Access.Routine (a : Access) (w : Store → Store) : Prop :=
  ¬ a.NeedsRow ∧ a.Sound w

/-- A routine access that makes no job `SUCCEEDED`. -/
def Access.Plain (a : Access) (w : Store → Store) : Prop :=
  ¬ a.MarksSuccess ∧ a.Routine w

/-! ## Single Accesses -/

section plain

variable {P : Access → (Store → Store) → Prop} (hP : ∀ a w, a.Plain w → P a w)

include hP

theorem always_query {α : Type} (f : Store → α) : (query f).Always P :=
  Prog.always_read (hP _ _ ⟨not_false, not_false, trivial, .inl rfl⟩)

theorem always_readCancellationFlag (jobId : Id) : (readCancellationFlag jobId).Always P :=
  Prog.always_read (hP _ _ ⟨not_false, not_false, trivial, .inl rfl⟩)

theorem always_external : external.Always P :=
  Prog.always_read (hP _ _ ⟨not_false, not_false, trivial, .inl rfl⟩)

theorem always_freshId : freshId.Always P :=
  ⟨hP _ _ ⟨not_false, not_false, trivial, .inr rfl⟩, fun _ => trivial, fun _ => trivial⟩

theorem always_perform {a : Access} (hmarks : ¬ a.MarksSuccess) (hrow : ¬ a.NeedsRow)
    (h : a.Checked) : (perform a).Always P :=
  Prog.always_atomically (hP _ _ ⟨hmarks, hrow, h, .inr rfl⟩)

theorem always_enqueueProcessingJob (envelope : Envelope) :
    (enqueueProcessingJob envelope).Always P :=
  Prog.always_bind (always_perform hP not_false not_false trivial) fun _ =>
    always_perform hP not_false not_false trivial

/-! ## Cancellation -/

theorem always_propagateCancellation (jobs : List (Id × JobStatus)) :
    (propagateCancellation jobs).Always P := by
  induction jobs with
  | nil => trivial
  | cons p jobs ih =>
    rw [propagateCancellation]
    have hflag : (tryCatch (perform (.setCancellationFlag p.1)) fun _ => pure () :
        Service Unit).Always P :=
      Prog.always_tryCatch (always_perform hP not_false not_false trivial) fun _ => trivial
    split
    · refine Prog.always_bind ?_ fun _ => Prog.always_bind hflag fun _ => ih
      exact Prog.always_tryCatch (always_perform hP not_false not_false trivial) fun _ => trivial
    · exact Prog.always_bind hflag fun _ => ih

theorem always_cancelJob (jobId : Id) : (cancelJob jobId).Always P := by
  refine Prog.always_bind (always_query hP _) fun found => ?_
  split
  · trivial
  · next job =>
    split
    · trivial
    · next hjob =>
      refine Prog.always_read_bind (hP _ _ ⟨not_false, not_false, trivial, .inl rfl⟩) fun s => ?_
      refine Prog.always_bind (always_perform hP not_false not_false ?_) fun _ =>
        Prog.always_bind (always_propagateCancellation hP _) fun _ =>
          Prog.always_bind (always_external hP) fun _ =>
            Prog.always_bind (always_query hP _) fun _ => trivial
      intro p hp
      rcases List.mem_append.mp hp with hp | hp
      · obtain ⟨child, hchild, rfl⟩ := List.mem_map.mp hp
        exact (of_decide_eq_true (List.mem_filter.mp hchild).2).2
      · obtain rfl := List.mem_singleton.mp hp
        exact hjob

theorem always_haltIfCancelled (jobId : Id) : (haltIfCancelled jobId).Always P := by
  refine Prog.always_bind (always_query hP _) fun found => ?_
  split
  · trivial
  · next job =>
    split
    · trivial
    · next hjob =>
      refine Prog.always_bind ?_ fun requested => ?_
      · exact Prog.always_tryCatch (always_readCancellationFlag hP _) fun _ => trivial
      · split
        · exact Prog.always_bind (always_perform hP not_false not_false hjob) fun _ => trivial
        · trivial

/-! ## The Processors -/

theorem always_recordFailure {settled : List JobStatus} (hsettled : .failed ∈ settled)
    (jobId : Id) (errorCode : ErrorCode) :
    (recordFailure jobId settled errorCode).Always P := by
  refine Prog.always_bind (always_query hP _) fun found => ?_
  split
  · trivial
  · next current =>
    split
    · trivial
    · next hcurrent =>
      exact always_perform hP not_false not_false fun hfailed => hcurrent (hfailed ▸ hsettled)

theorem always_checkAudiobookReadiness (bookId : Id) :
    (checkAudiobookReadiness bookId).Always P := by
  refine Prog.always_bind (always_query hP _) fun book => ?_
  split
  · trivial
  · refine Prog.always_bind (always_query hP _) fun total => ?_
    split
    · trivial
    · exact Prog.always_bind (always_query hP _) fun _ => trivial

variable (job : ProcessingJob)

theorem always_maybeTriggerAudiobookFanIn : (maybeTriggerAudiobookFanIn job).Always P := by
  rw [maybeTriggerAudiobookFanIn]
  split
  · split
    · trivial
    · refine Prog.always_bind (always_checkAudiobookReadiness hP _) fun readiness => ?_
      split
      · refine Prog.always_bind (always_query hP _) fun inFlight => ?_
        split
        · trivial
        · refine Prog.always_bind (always_freshId hP) fun newJobId =>
            Prog.always_bind (always_perform hP not_false not_false ?_) fun _ => always_enqueueProcessingJob hP _
          simp [Access.Checked, fanInJob]
      · trivial
  · trivial

theorem always_enqueueEncodeJobs (audiobookId : Id) (formats : List DeliveryFormat) :
    (enqueueEncodeJobs job audiobookId formats).Always P := by
  induction formats with
  | nil => trivial
  | cons format formats ih =>
    refine Prog.always_bind (always_freshId hP) fun encodeJobId =>
      Prog.always_bind (always_perform hP not_false not_false ?_) fun _ =>
        Prog.always_bind (always_enqueueProcessingJob hP _) fun _ => ih
    simp [Access.Checked, encodeJob]

theorem always_missingDeliveryFormats (audiobookId : Id) (chapterCount : ℕ)
    (formats : List DeliveryFormat) :
    (missingDeliveryFormats audiobookId chapterCount formats).Always P := by
  induction formats with
  | nil => trivial
  | cons format formats ih =>
    exact Prog.always_bind (always_query hP _) fun _ => Prog.always_bind ih fun _ => trivial

theorem always_allFormatsFullyReady (audiobookId : Id) (chapterCount : ℕ)
    (formats : List DeliveryFormat) :
    (allFormatsFullyReady audiobookId chapterCount formats).Always P := by
  induction formats with
  | nil => trivial
  | cons format formats ih =>
    exact Prog.always_bind (always_query hP _) fun _ => Prog.always_bind ih fun _ => trivial

theorem always_handleEncodeFailure (audiobook : Audiobook) (format : DeliveryFormat) (err : Fault)
    (d : Delivery) : (handleEncodeFailure job audiobook format err d).Always P := by
  rw [handleEncodeFailure]
  split
  · trivial
  refine Prog.always_bind (always_query hP _) fun current => ?_
  split
  · trivial
  · split
    · trivial
    · next hcurrent =>
      exact Prog.always_bind (always_query hP _) fun _ => Prog.always_bind (always_freshId hP) fun _ =>
        Prog.always_bind (always_query hP _) fun _ => always_perform hP not_false not_false hcurrent

/-! ## The API and the Sweeper -/

theorem always_freshIdsFor {α : Type} (as : List α) : (freshIdsFor as).Always P := by
  induction as with
  | nil => trivial
  | cons a as ih =>
    exact Prog.always_bind (always_freshId hP) fun _ => Prog.always_bind ih fun _ => trivial

theorem always_enqueueAll (envelopes : List Envelope) :
    (enqueueAll envelopes).Always P := by
  induction envelopes with
  | nil => trivial
  | cons envelope envelopes ih =>
    refine Prog.always_bind ?_ fun failure => Prog.always_bind ih fun _ => ?_
    · exact Prog.always_tryCatch
        (Prog.always_bind (always_enqueueProcessingJob hP _) fun _ => trivial) fun _ => trivial
    · split <;> trivial

theorem always_maybeEnqueueAssembleAudiobook (computeManifestHash : List (Id × Hash) → Hash)
    (book : Book) (chapterIds : List Id) (deliveryFormats : List DeliveryFormat) (force : Bool) :
    (maybeEnqueueAssembleAudiobook computeManifestHash book chapterIds deliveryFormats force).Always
      P := by
  rw [maybeEnqueueAssembleAudiobook]
  split
  · trivial
  refine Prog.always_bind (always_query hP _) fun _ => Prog.always_bind (always_query hP _) fun _ => ?_
  split
  · trivial
  have hcreate : ∀ bookVersionId manifestHash, (do
      let jobId ← freshId
      perform (.createJobs [audiobookJob jobId book.id bookVersionId manifestHash
        (deliveryFormats.headD .m4b) deliveryFormats])
      enqueueProcessingJob (audiobookEnvelope jobId book.id deliveryFormats) : Service Unit).Always
        P := fun bookVersionId manifestHash =>
    Prog.always_bind (always_freshId hP) fun _ =>
      Prog.always_bind (always_perform hP not_false not_false (by simp [Access.Checked, audiobookJob])) fun _ =>
        always_enqueueProcessingJob hP _
  split
  · refine Prog.always_bind (always_query hP _) fun _ => ?_
    split
    · trivial
    · exact hcreate _ _
  · exact hcreate _ _

theorem always_createChapterJobs (bookId : Id) (body : StartAssembly)
    (toAssemble : List (Id × Hash)) :
    (createChapterJobs bookId body toAssemble).Always P := by
  refine Prog.always_bind (always_freshIdsFor hP _) fun withIds =>
    Prog.always_bind (always_perform hP not_false not_false ?_) fun _ => always_enqueueAll hP _
  intro job hjob
  obtain ⟨p, -, rfl⟩ := List.mem_map.mp hjob
  rfl

theorem always_startAssembly (computeManifestHash : List (Id × Hash) → Hash) (bookId : Id)
    (body : StartAssembly) :
    (startAssembly computeManifestHash bookId body).Always P := by
  refine Prog.always_bind (always_query hP _) fun found => ?_
  split
  · trivial
  refine Prog.always_bind ?_ fun chapters => ?_
  · rw [resolveTargetChapters]
    split
    · split
      · trivial
      · exact always_query hP _
    · trivial
    · exact always_query hP _
  split
  · trivial
  refine Prog.always_bind (always_query hP _) fun targets => ?_
  split
  · trivial
  refine Prog.always_bind (always_query hP _) fun toAssemble => ?_
  split
  · split
    · exact always_maybeEnqueueAssembleAudiobook hP _ _ _ _ _
    · trivial
  · exact always_createChapterJobs hP _ _ _

theorem always_pollOnce : pollOnce.Always P := by
  refine Prog.always_bind (always_query hP _) fun envelopes => ?_
  induction envelopes with
  | nil => trivial
  | cons envelope envelopes ih =>
    refine Prog.always_bind ?_ fun _ => ih
    exact Prog.always_tryCatch (always_enqueueProcessingJob hP _) fun _ => trivial

end plain

/-! ## Processors That Store an Artifact -/

section routine

variable {P : Access → (Store → Store) → Prop} (hR : ∀ a w, a.Routine w → P a w)

include hR

theorem always_perform_routine {a : Access} (hrow : ¬ a.NeedsRow) (h : a.Checked) :
    (perform a).Always P :=
  Prog.always_atomically (hR _ _ ⟨hrow, h, .inr rfl⟩)

variable (computeManifestHash : List (Id × Hash) → Hash)

theorem always_processAssembleChapterJob (chapterId : Id) (d : Delivery) :
    (processAssembleChapterJob computeManifestHash chapterId d).Always P := by
  have hP : ∀ a w, a.Plain w → P a w := fun a w h => hR a w h.2
  rw [processAssembleChapterJob]
  split
  · trivial
  refine Prog.always_bind (always_query hP _) fun found => ?_
  split
  · trivial
  next job =>
  split
  · trivial
  next hjob =>
  have hseen : job.status ∉ [.succeeded, .failed] := by simpa using hjob
  split
  · trivial
  refine Prog.always_bind (always_query hP _) fun chapter => ?_
  split
  · trivial
  refine Prog.always_bind (always_query hP _) fun chunks => ?_
  split
  · split
    · exact Prog.always_bind (always_recordFailure hP (by simp) _ _) fun _ => trivial
    refine Prog.always_bind (always_query hP _) fun existing => ?_
    split
    · exact Prog.always_bind (always_perform_routine hR not_false hseen) fun _ =>
        Prog.always_bind (always_maybeTriggerAudiobookFanIn hP _) fun _ => trivial
    refine Prog.always_bind (always_perform hP not_false not_false hseen) fun _ =>
      Prog.always_tryCatch ?_ fun err => ?_
    · exact Prog.always_bind (always_external hP) fun _ => Prog.always_bind (always_query hP _) fun _ =>
        Prog.always_bind (always_external hP) fun _ => Prog.always_bind (always_freshId hP) fun _ =>
          Prog.always_bind (always_perform_routine hR not_false trivial) fun _ =>
            always_maybeTriggerAudiobookFanIn hP _
    · refine Prog.always_bind ?_ fun _ => trivial
      rw [handleChapterAssemblyFailure]
      split
      · trivial
      · exact always_recordFailure hP (by simp) _ _
  · exact always_recordFailure hP (by simp) _ _

theorem always_resumeOrAssembleAudiobook (job : ProcessingJob)
    (hseen : job.status ∉ [.succeeded, .failed]) (bookId bookVersionId : Id)
    {chapters : List OrderedChapterAudio} (hchapters : chapters ≠ [])
    (primaryFormat : DeliveryFormat) (deliveryFormats : List DeliveryFormat) :
    (resumeOrAssembleAudiobook computeManifestHash job bookId bookVersionId chapters primaryFormat
      deliveryFormats).Always P := by
  have hP : ∀ a w, a.Plain w → P a w := fun a w h => hR a w h.2
  refine Prog.always_bind (always_query hP _) fun existing => ?_
  split
  · exact Prog.always_bind (always_missingDeliveryFormats hP _ _ _) fun _ =>
      Prog.always_bind (always_perform_routine hR not_false hseen) fun _ => always_enqueueEncodeJobs hP _ _ _
  refine Prog.always_bind (always_perform hP not_false not_false hseen) fun _ =>
    Prog.always_tryCatch ?_ fun err => ?_
  · refine Prog.always_bind (always_external hP) fun _ => Prog.always_bind (always_query hP _) fun _ => ?_
    split
    · trivial
    refine Prog.always_bind (always_query hP _) fun hasChunk => ?_
    split
    · trivial
    refine Prog.always_bind (always_query hP _) fun _ => Prog.always_bind (always_external hP) fun _ =>
      Prog.always_bind (always_freshId hP) fun _ =>
      Prog.always_bind (always_perform_routine hR not_false ?_) fun _ =>
        always_enqueueEncodeJobs hP _ _ _
    exact ⟨rfl, rfl, List.length_pos_iff.mpr hchapters⟩
  · exact Prog.always_bind (always_recordFailure hP (by simp) _ _) fun _ => trivial

theorem always_processAssembleAudiobookJob (deliveryFormats : List DeliveryFormat) (d : Delivery) :
    (processAssembleAudiobookJob computeManifestHash deliveryFormats d).Always P := by
  have hP : ∀ a w, a.Plain w → P a w := fun a w h => hR a w h.2
  rw [processAssembleAudiobookJob]
  split
  · trivial
  refine Prog.always_bind (always_query hP _) fun found => ?_
  split
  · trivial
  next job =>
  split
  · trivial
  next hjob =>
  split
  · refine Prog.always_bind (always_query hP _) fun book => ?_
    split
    · trivial
    refine Prog.always_bind (always_checkAudiobookReadiness hP _) fun readiness => ?_
    split
    · refine Prog.always_bind (always_query hP _) fun chapters => ?_
      split
      · exact always_recordFailure hP (by simp) _ _
      · trivial
      · split
        · exact Prog.always_bind (always_recordFailure hP (by simp) _ _) fun _ => trivial
        · exact always_resumeOrAssembleAudiobook hR _ _ (by simpa using hjob) _ _ (by simp) _ _
    · exact always_recordFailure hP (by simp) _ _
  · trivial

end routine

/-! ## Renditions and Publication -/

/-- A sound access that publishes nothing. -/
def Access.Unpublishing (a : Access) (w : Store → Store) : Prop :=
  a.Sound w ∧ ∀ audiobookId bookId, a ≠ .publish audiobookId bookId

theorem unpublishing_of_routine (a : Access) (w : Store → Store) (h : a.Routine w) :
    a.Unpublishing w :=
  ⟨h.2, fun _ _ ha => h.1 (ha ▸ trivial)⟩

theorem always_upsertRendition (audiobookId : Id) (format : DeliveryFormat)
    (chapterId : Option Id) :
    (upsertRendition audiobookId format chapterId).Always Access.Unpublishing := by
  have hP : ∀ (a : Access) w, a.Plain w → a.Unpublishing w := fun a w h => unpublishing_of_routine a w h.2
  refine Prog.always_bind (always_query hP _) fun existing => ?_
  split
  · exact Prog.always_atomically ⟨⟨trivial, .inr rfl⟩, by simp⟩
  · exact Prog.always_bind (always_freshId hP) fun _ => always_perform hP not_false not_false trivial

theorem always_maybePublishAudiobook (audiobook : Audiobook) :
    (maybePublishAudiobook audiobook).Always Access.Sound := by
  have hP : ∀ (a : Access) w, a.Plain w → a.Sound w := fun a w h => h.2.2
  rw [maybePublishAudiobook]
  split
  · trivial
  refine Prog.always_bind (Prog.always_read ⟨trivial, .inl rfl⟩) fun requested => ?_
  split
  · trivial
  refine Prog.always_bind (always_allFormatsFullyReady hP _ _ _) fun ready => ?_
  split
  · trivial
  refine Prog.always_bind (always_query hP _) fun _ =>
    Prog.always_bind (always_query hP _) fun current => ?_
  split
  · trivial
  · split
    · trivial
    · exact Prog.always_atomically ⟨trivial, .inr rfl⟩

/-! ## The Rules of a Contract -/

/-- What a contract asks of the steps of the assembly system: the programs keep the facts `I`
and what is `Known` about an audiobook that was read, and with them the contract. -/
structure AssemblyRules (K : Contract Store Access) (I : Store → Prop)
    (Known : Audiobook → Store → Prop) : Prop where
  stable : K.Stable I
  stableKnown : ∀ audiobook, K.Stable (Known audiobook)
  /-- What is known about an audiobook holds when it is read. -/
  known : ∀ {audiobookId audiobook s}, I s → findAudiobook audiobookId s = some audiobook →
    Known audiobook s
  /-- Accesses that rely on no row keep the contract. -/
  routine : ∀ a w, a.Routine w → K.Allows a w
  upsert : ∀ audiobookId format chapterId s, I s →
    K.Safe (upsertRendition audiobookId format chapterId) s
  /-- Publishing an audiobook that was read keeps the contract. -/
  publish : ∀ audiobook s, I s → Known audiobook s → K.Safe (maybePublishAudiobook audiobook) s

namespace AssemblyRules

variable {K : Contract Store Access} {I : Store → Prop} {Known : Audiobook → Store → Prop}

theorem plain (h : AssemblyRules K I Known) (a : Access) (w : Store → Store) (hw : a.Plain w) :
    K.Allows a w :=
  h.routine a w hw.2

theorem safe_perform (h : AssemblyRules K I Known) {a : Access} (hrow : ¬ a.NeedsRow)
    (ha : a.Checked) (s : Store) : K.Safe (perform a) s :=
  Contract.safe_of_always (always_perform_routine h.routine hrow ha)

theorem safe_encodeMp3PerChapter (h : AssemblyRules K I Known) (audiobookId : Id)
    (chapters : List AudiobookChapter) {s : Store} (hs : I s) :
    K.Safe (encodeMp3PerChapter audiobookId chapters) s := by
  induction chapters generalizing s with
  | nil => exact Contract.safe_pure
  | cons chapter chapters ih =>
    refine Contract.safe_bind h.stable hs (Contract.safe_of_always (always_query h.plain _))
      fun existing s₁ hs₁ => ?_
    split
    · refine Contract.safe_bind h.stable hs₁ (Contract.safe_of_always (always_external h.plain))
        fun _ s₂ hs₂ => ?_
      exact Contract.safe_bind h.stable hs₂ (h.upsert _ _ _ s₂ hs₂) fun _ s₃ hs₃ => ih hs₃
    · exact ih hs₁

theorem safe_encodeDeliveryFormat (h : AssemblyRules K I Known) (job : ProcessingJob)
    (audiobook : Audiobook) (format : DeliveryFormat) {s : Store}
    (hs : I s ∧ Known audiobook s) : K.Safe (encodeDeliveryFormat job audiobook format) s := by
  have hstable := h.stable.and (h.stableKnown audiobook)
  have hfinish : ∀ s', I s' ∧ Known audiobook s' → K.Safe (do
      perform (.markSucceeded job.id .running)
      maybePublishAudiobook audiobook : Service Unit) s' := fun s' hs' =>
    Contract.safe_bind hstable hs'
      (h.safe_perform (a := .markSucceeded job.id .running) not_false (by simp [Access.Checked]) s')
      fun _ s'' hs'' => h.publish audiobook s'' hs''.1 hs''.2
  refine Contract.safe_bind hstable hs (Contract.safe_of_always (always_external h.plain)) fun _ s₁ hs₁ => ?_
  split
  · exact Contract.safe_bind hstable hs₁ (h.safe_encodeMp3PerChapter _ _ hs₁.1)
      fun _ s₂ hs₂ => hfinish s₂ hs₂
  · refine Contract.safe_bind hstable hs₁ ?_ fun _ s₂ hs₂ => hfinish s₂ hs₂
    exact Contract.safe_bind h.stable hs₁.1 (Contract.safe_of_always (always_external h.plain))
      fun _ s₂ hs₂ => h.upsert _ _ _ s₂ hs₂

theorem safe_processEncodeDeliveryFormatJob (h : AssemblyRules K I Known) (audiobookId : Id)
    (format : DeliveryFormat) (d : Delivery) {s : Store} (hs : I s) :
    K.Safe (processEncodeDeliveryFormatJob audiobookId format d) s := by
  rw [processEncodeDeliveryFormatJob]
  split
  · exact Contract.safe_throw
  refine Contract.safe_bind h.stable hs (Contract.safe_of_always (always_query h.plain _))
    fun found s₁ hs₁ => ?_
  split
  · exact Contract.safe_throw
  next job =>
  split
  · exact Contract.safe_pure
  next hjob =>
  have hseen : job.status ∉ [.succeeded, .failed] := by simpa using hjob
  -- What is known about the audiobook holds in the store it is read from, and stays.
  refine Contract.safe_bind_of_wp (Contract.wp_read (fun _ _ _ => trivial) fun s₂ hev _ => ?_)
  have hs₂ : I s₂ := h.stable s₁ s₂ hev hs₁
  split
  · exact Contract.safe_throw
  next audiobook hfound =>
  have hstable := h.stable.and (h.stableKnown audiobook)
  have hknown : I s₂ ∧ Known audiobook s₂ := ⟨hs₂, h.known hs₂ hfound⟩
  refine Contract.safe_bind hstable hknown (Contract.safe_of_always (always_query h.plain _))
    fun ready s₃ hs₃ => ?_
  have hmark : ∀ s', K.Safe (perform (.markSucceeded job.id job.status)) s' := fun s' =>
    h.safe_perform (a := .markSucceeded job.id job.status) not_false hseen s'
  split
  · refine Contract.safe_bind hstable hs₃ (hmark s₃) fun _ s₄ hs₄ => ?_
    exact Contract.safe_bind h.stable hs₄.1 (h.publish audiobook s₄ hs₄.1 hs₄.2)
      fun _ _ _ => Contract.safe_pure
  refine Contract.safe_bind hstable hs₃
    (h.safe_perform (a := .markRunning job.id job.status) not_false hseen s₃) fun _ s₄ hs₄ => ?_
  refine Contract.safe_tryCatch h.stable hs₄.1
    (h.safe_encodeDeliveryFormat job audiobook format hs₄) fun err s₅ hs₅ => ?_
  exact Contract.safe_bind h.stable hs₅
    (Contract.safe_of_always (always_handleEncodeFailure h.plain _ _ _ _ _)) fun _ _ _ => Contract.safe_throw

theorem safe_deliver (h : AssemblyRules K I Known) (computeManifestHash : List (Id × Hash) → Hash)
    (d : Delivery) {s : Store} (hs : I s) : K.Safe (deliver computeManifestHash d) s := by
  refine Contract.safe_bind h.stable hs (Contract.safe_of_always (always_haltIfCancelled h.plain _))
    fun halted s₁ hs₁ => ?_
  split
  · exact Contract.safe_pure
  split
  · exact Contract.safe_of_always (always_processAssembleChapterJob h.routine _ _ _)
  · exact Contract.safe_of_always (always_processAssembleAudiobookJob h.routine _ _ _)
  · exact h.safe_processEncodeDeliveryFormatJob _ _ _ hs₁
  · exact Contract.safe_throw

theorem respects (h : AssemblyRules K I Known) (hinit : ∀ s, NothingAssembled s → I s)
    (computeManifestHash : List (Id × Hash) → Hash) :
    (assemblySystem computeManifestHash).Respects K := by
  intro s₀ s i hs₀ hev _
  cases i with
  | startAssembly bookId body => exact Contract.safe_of_always (always_startAssembly h.plain _ _ _)
  | cancelJob jobId => exact Contract.safe_of_always (always_cancelJob h.plain _)
  | deliver d => exact h.safe_deliver _ d (h.stable s₀ s hev (hinit s₀ hs₀))
  | pollOnce => exact Contract.safe_of_always (always_pollOnce h.plain)
  | insertChunks chunks => exact h.safe_perform (a := .insertChunks chunks) not_false trivial s
  | insertAudioChunk new => exact h.safe_perform (a := .insertAudioChunk new) not_false trivial s

end AssemblyRules

theorem respects_of_sound {K : Contract Store Access} (h : ∀ a w, a.Sound w → K.Allows a w)
    (computeManifestHash : List (Id × Hash) → Hash) :
    (assemblySystem computeManifestHash).Respects K := by
  have hrules : AssemblyRules K (fun _ => True) fun _ _ => True := {
    stable := fun _ _ _ _ => trivial
    stableKnown := fun _ _ _ _ _ => trivial
    known := fun _ _ => trivial
    routine := fun a w hw => h a w hw.2
    upsert := fun _ _ _ s _ => Contract.safe_of_always
      ((always_upsertRendition _ _ _).mono fun a w hw => h a w hw.1)
    publish := fun _ s _ _ => Contract.safe_of_always ((always_maybePublishAudiobook _).mono h) }
  exact hrules.respects (fun _ _ => trivial) computeManifestHash

end AudioBook
