import AudioBook.Assembly.Attempts

/-!
# Retries After an Error

The broker delivers a message again when its delivery raised and was not the last one. Whether
the work is done again is decided by the status of the job: a delivery skips a job that is
`SUCCEEDED` or `FAILED`. So an attempt that is not the last one must leave its job open when an
access fails. The processors of chapters and of encodes leave it alone then, unless the job was
completed before the error. The processor of audiobooks records every error of its `try` block as
`FAILED`, whichever attempt it is.

Main results:

- `jobOpen_after_error_iff`: after an error on an attempt that is not the last one, the job is
  open exactly when the error came early.
-/

namespace AudioBook

open Relational Concurrent

/-! ## The Processor of a Message -/

section processors

variable (computeManifestHash : List (Id × Hash) → Hash)

/-- What the worker does with a message that the cancellation gate lets through. -/
def processAssemblyJob (d : Delivery) : Service Unit :=
  match d.envelope.payload with
  | .assembleChapter chapterId => processAssembleChapterJob computeManifestHash chapterId d
  | .assembleAudiobook _ deliveryFormats =>
      processAssembleAudiobookJob computeManifestHash deliveryFormats d
  | .encodeDeliveryFormat audiobookId format =>
      processEncodeDeliveryFormatJob audiobookId format d
  | _ => throw .uncoded

end processors

/-! ## Processors That Catch No Error -/

section uncaught

/-- A program that catches no error, whose accesses run the transactions of their labels. -/
abbrev Uncaught {α : Type} (p : Service α) : Prop :=
  p.Straight AccessOk fun a w => w = Prog.commit a.tx

variable {α : Type}

theorem uncaught_of_silent {p : Service α} (hp : Silent p) : Uncaught p :=
  hp.mono fun _ _ h => h.2

theorem uncaught_query (f : Store → α) : Uncaught (query f) :=
  uncaught_of_silent (silent_query f)

theorem uncaught_perform (a : Access) : Uncaught (perform a) :=
  Prog.straight_atomically rfl fun _ hcommits => ⟨rfl, hcommits⟩

theorem uncaught_recordFailure (jobId : Id) (settled : List JobStatus) (errorCode : ErrorCode) :
    Uncaught (recordFailure jobId settled errorCode) := by
  refine Prog.straight_bind (uncaught_query _) fun found => ?_
  split
  · trivial
  · split
    · trivial
    · exact uncaught_perform _

theorem uncaught_processAssembleChapterJob (computeManifestHash : List (Id × Hash) → Hash)
    (chapterId : Id) {d : Delivery} (hfinal : ¬ d.isFinalAttempt) :
    Uncaught (processAssembleChapterJob computeManifestHash chapterId d) := by
  rw [processAssembleChapterJob]
  split
  · trivial
  refine Prog.straight_bind (uncaught_query _) fun found => ?_
  split
  · trivial
  next job =>
  split
  · trivial
  split
  · trivial
  refine Prog.straight_bind (uncaught_query _) fun chapter => ?_
  split
  · trivial
  refine Prog.straight_bind (uncaught_query _) fun chunks => ?_
  split
  · split
    · exact Prog.straight_bind (uncaught_recordFailure _ _ _) fun _ => trivial
    refine Prog.straight_bind (uncaught_query _) fun existing => ?_
    split
    · exact Prog.straight_bind (uncaught_perform _) fun _ =>
        Prog.straight_bind (uncaught_of_silent (silent_maybeTriggerAudiobookFanIn _)) fun _ => trivial
    refine Prog.straight_bind (uncaught_perform _) fun _ => Prog.straight_rethrow ?_ fun err => ?_
    · refine Prog.straight_bind (uncaught_of_silent silent_external) fun _ =>
        Prog.straight_bind (uncaught_query _) fun _ =>
          Prog.straight_bind (uncaught_of_silent silent_external) fun _ =>
            Prog.straight_bind (uncaught_of_silent silent_freshId) fun _ => ?_
      exact Prog.straight_bind (uncaught_perform _) fun _ =>
        uncaught_of_silent (silent_maybeTriggerAudiobookFanIn _)
    · refine ⟨err, ?_⟩
      rw [handleChapterAssemblyFailure, if_pos hfinal]
      rfl
  · exact uncaught_recordFailure _ _ _

theorem uncaught_encodeDeliveryFormat (job : ProcessingJob) (audiobook : Audiobook)
    (format : DeliveryFormat) : Uncaught (encodeDeliveryFormat job audiobook format) := by
  have hdone : ∀ u : Unit, Uncaught (perform (.markSucceeded job.id .running) >>= fun _ =>
      maybePublishAudiobook audiobook) := fun _ =>
    Prog.straight_bind (uncaught_perform _) fun _ =>
      uncaught_of_silent (silent_maybePublishAudiobook _)
  refine Prog.straight_bind (uncaught_of_silent silent_external) fun _ => ?_
  split
  · exact Prog.straight_bind (uncaught_of_silent (silent_encodeMp3PerChapter _ _)) hdone
  · exact Prog.straight_bind (uncaught_of_silent (silent_encodeSingleFileFormat _ _)) hdone

theorem uncaught_processEncodeDeliveryFormatJob (audiobookId : Id) (format : DeliveryFormat)
    {d : Delivery} (hfinal : ¬ d.isFinalAttempt) :
    Uncaught (processEncodeDeliveryFormatJob audiobookId format d) := by
  rw [processEncodeDeliveryFormatJob]
  split
  · trivial
  refine Prog.straight_bind (uncaught_query _) fun found => ?_
  split
  · trivial
  next job =>
  split
  · trivial
  refine Prog.straight_bind (uncaught_query _) fun audiobook => ?_
  split
  · trivial
  refine Prog.straight_bind (uncaught_query _) fun ready => ?_
  split
  · exact Prog.straight_bind (uncaught_perform _) fun _ =>
      Prog.straight_bind (uncaught_of_silent (silent_maybePublishAudiobook _)) fun _ => trivial
  refine Prog.straight_bind (uncaught_perform _) fun _ =>
    Prog.straight_rethrow (uncaught_encodeDeliveryFormat _ _ _) fun err => ⟨err, ?_⟩
  rw [handleEncodeFailure, if_pos hfinal]
  rfl

theorem uncaught_assembleAudiobook (job : ProcessingJob) (bookId bookVersionId : Id)
    (chapters : List OrderedChapterAudio) (primaryFormat : DeliveryFormat)
    (deliveryFormats : List DeliveryFormat) (chapterManifestHash : Hash) :
    Uncaught (assembleAudiobook job bookId bookVersionId chapters primaryFormat deliveryFormats
      chapterManifestHash) := by
  have hexternal := uncaught_of_silent silent_external
  refine Prog.straight_bind hexternal fun _ => Prog.straight_bind (uncaught_query _) fun _ => ?_
  split
  · trivial
  refine Prog.straight_bind (uncaught_query _) fun hasChunk => ?_
  split
  · trivial
  exact Prog.straight_bind (uncaught_query _) fun _ => Prog.straight_bind hexternal fun _ =>
    Prog.straight_bind (uncaught_of_silent silent_freshId) fun _ =>
      Prog.straight_bind (uncaught_perform _) fun _ =>
        uncaught_of_silent (silent_enqueueEncodeJobs _ _ _)

end uncaught

/-! ## The Processor That Records Every Error -/

/-- The access marked the job of an attempt as running. -/
def MarkedRunning (x : AccessEvent) : Prop :=
  ∃ jobId seen, x.label = .markRunning jobId seen

section recorded

variable {others : Store → Store → Prop} (hrefl : ∀ s, others s s) {jobId : Id}
  (hothers : ∀ s s', others s s' → LeavesJob jobId s s')

variable (others jobId) in
/-- Started on an open job, an error of the program is its last access, or it comes after the job
was marked as running and is followed by the record of the failure, unless that fails, too. -/
def RecordsErrors {α : Type} (p : Service α) : Prop :=
  ∀ s es r s', p.Runs others s es r s' → r ≠ .crashed → JobOpen jobId s →
    ∀ pre x post, es = pre ++ x :: post → (∀ y ∈ pre, AccessOk y) → ¬ AccessOk x →
      post = [] ∨ (∃ y ∈ pre, MarkedRunning y) ∧
        ((∀ y ∈ post, AccessOk y) → ∃ y ∈ es, Completed jobId y)

variable {α β : Type}

theorem recordsErrors_of_uncaught {p : Service α} (hp : Uncaught p) :
    RecordsErrors others jobId p := by
  rintro s es r s' hrun - - pre x post rfl - hx
  exact .inl (hp.eq_nil_of_trace hrun.trace hx).1

private theorem split_of_uncaught {p : Service α} (hp : Uncaught p) {a : α}
    {es₁ es₂ pre post : List AccessEvent} {x : AccessEvent}
    (h₁ : p.Trace es₁ (.returned a)) (heq : es₁ ++ es₂ = pre ++ x :: post) (hx : ¬ AccessOk x) :
    ∃ pre₂, pre = es₁ ++ pre₂ ∧ es₂ = pre₂ ++ x :: post := by
  rcases List.append_eq_append_iff.mp heq with ⟨mid, rfl, heq₂⟩ | ⟨mid, heq₁, hpost⟩
  · exact ⟨mid, rfl, heq₂⟩
  · cases mid with
    | nil =>
      rw [List.append_nil] at heq₁
      exact ⟨[], by simp [heq₁], by simpa using hpost.symm⟩
    | cons y mid =>
      obtain ⟨rfl, rfl⟩ := List.cons.inj hpost
      exact absurd (hp.ok_of_returned h₁ x (by simp [heq₁])) hx

include hrefl hothers

theorem recordsErrors_bind {p : Service α} {f : α → Service β} (hp : Silent p)
    (hf : ∀ s es a s', p.Runs others s es (.returned a) s' → RecordsErrors others jobId (f a)) :
    RecordsErrors others jobId (p >>= f) := by
  rintro s es r s' hrun hr hopen pre x post rfl hpre hx
  rcases Prog.runs_bind hrefl hrun with ⟨a, es₁, es₂, s₁, heq, h₁, h₂⟩ | ⟨e, rfl, h₁⟩ | ⟨rfl, -⟩
  · obtain ⟨pre₂, rfl, rfl⟩ := split_of_uncaught (uncaught_of_silent hp) h₁.trace heq.symm hx
    have hopen₁ : JobOpen jobId s₁ := by
      rcases tracks_of_unfinished hothers (hp.always.mono Access.Silent.unfinished) _ _ _ _ h₁ hopen
        with ⟨hopen₁, -⟩ | ⟨-, y, hy, hcompleted⟩
      · exact hopen₁
      · obtain ⟨w, ⟨hnone, -⟩⟩ := hp.always.of_trace h₁.trace y hy
        obtain ⟨-, -, wr, hwr, -⟩ := hcompleted
        simp [hnone] at hwr
    rcases hf _ _ _ _ h₁ _ _ _ _ h₂ hr hopen₁ pre₂ x post rfl
      (fun y hy => hpre y (List.mem_append_right _ hy)) hx with hpost | ⟨⟨y, hy, hmarked⟩, hrecord⟩
    · exact .inl hpost
    · refine .inr ⟨⟨y, List.mem_append_right _ hy, hmarked⟩, fun hok => ?_⟩
      obtain ⟨z, hz, hcompleted⟩ := hrecord hok
      rw [List.append_assoc]
      exact ⟨z, List.mem_append_right _ hz, hcompleted⟩
  · exact .inl (hp.eq_nil_of_trace h₁.trace hx).1
  · exact absurd rfl hr

theorem recordFailure_completes {settled : List JobStatus}
    (hsettled : ∀ status ∈ settled, status.IsSkipped) {errorCode : ErrorCode} {err : Fault}
    {s s' : Store} {es : List AccessEvent} {r : Ending Fault Unit}
    (hrun : (recordFailure jobId settled errorCode >>= fun _ => throw err).Runs others s es r s')
    (hr : r ≠ .crashed) (hopen : JobOpen jobId s) (hok : ∀ y ∈ es, AccessOk y) :
    ∃ y ∈ es, Completed jobId y := by
  rw [recordFailure, Prog.bind_assoc] at hrun
  rcases Prog.runs_bind hrefl hrun with ⟨found, es₁, es₂, s₁, rfl, h₁, h₂⟩ | ⟨e, rfl, h₁⟩ | ⟨rfl, -⟩
  · obtain ⟨s₀, rfl, hs₀, hs₁, rfl⟩ := Prog.runs_read_returned h₁
    obtain ⟨current, hcurrent, hstatus⟩ := (hothers _ _ hs₀).1 hopen
    have hnot : current.status ∉ settled := fun hmem => hstatus (hsettled _ hmem)
    simp only [hcurrent, if_neg hnot] at h₂
    rcases Prog.runs_bind hrefl h₂ with ⟨u, es₃, es₄, s₂, rfl, h₃, -⟩ | ⟨e, rfl, h₃⟩ | ⟨rfl, -⟩
    · obtain ⟨s₃, s₄, rfl, -, htx, -⟩ := Prog.runs_atomically_returned h₃
      refine ⟨_, List.mem_append_right _ (List.mem_append_left _ (List.mem_singleton_self _)), nofun,
        ⟨u, s₄, htx⟩, ⟨jobId, current.status, .failed⟩, List.mem_singleton_self _, rfl, .inr rfl⟩
    · refine absurd rfl (quiet_perform _ _ _ h₃.trace (fun y hy => hok y ?_) e)
      exact List.mem_append_right _ hy
    · exact absurd rfl hr
  · exact absurd rfl (quiet_query _ _ _ h₁.trace hok e)
  · exact absurd rfl hr

theorem recordsErrors_try {seen : JobStatus} {body : Service Unit} (hbody : Uncaught body)
    (htracks : Tracks others jobId body) {settled : List JobStatus}
    (hsettled : ∀ status ∈ settled, status.IsSkipped) (errorCode : Fault → ErrorCode) :
    RecordsErrors others jobId (perform (.markRunning jobId seen) >>= fun _ =>
      tryCatchThe Fault body fun err =>
        recordFailure jobId settled (errorCode err) >>= fun _ => throw err) := by
  rintro s es r s' hrun hr hopen pre x post rfl hpre hx
  rcases Prog.runs_bind hrefl hrun with ⟨u, es₁, es₂, s₁, heq, h₁, h₂⟩ | ⟨e, rfl, h₁⟩ | ⟨rfl, -⟩
  · obtain ⟨pre₂, rfl, rfl⟩ := split_of_uncaught (uncaught_perform _) h₁.trace heq.symm hx
    obtain ⟨s₀, s₂, rfl, hs₀, htx, hs₁⟩ := Prog.runs_atomically_returned h₁
    have hopen₁ : JobOpen jobId s₁ := by
      refine (hothers _ _ hs₁).1 (tx_keepsStatus (fun w hw _ => ?_) _ _ _ htx
        ((hothers _ _ hs₀).1 hopen))
      obtain rfl := List.mem_singleton.mp hw
      nofun
    have hmarked : ∃ y ∈ [(⟨.markRunning jobId seen, s₀, .done⟩ : AccessEvent)] ++ pre₂,
        MarkedRunning y := ⟨_, List.mem_append_left _ (List.mem_singleton_self _), jobId, seen, rfl⟩
    rcases Prog.runs_tryCatch hrefl h₂ with
      ⟨e, es₃, es₄, s₃, heq₂, h₃, h₄⟩ | ⟨a, rfl, h₃⟩ | ⟨rfl, -⟩
    · have hhandler : ∀ pre₄, es₄ = pre₄ ++ x :: post → post = [] := fun pre₄ heq₄ => by
        have hstraight : Uncaught (recordFailure jobId settled (errorCode e) >>= fun _ =>
            (throw e : Service Unit)) :=
          Prog.straight_bind (uncaught_recordFailure _ _ _) fun _ => trivial
        exact (hstraight.eq_nil_of_trace (heq₄ ▸ h₄.trace) hx).1
      rcases List.append_eq_append_iff.mp heq₂ with ⟨mid, rfl, heq₃⟩ | ⟨mid, rfl, heq₄⟩
      · cases mid with
        | nil => exact .inl (hhandler [] (by simpa using heq₃.symm))
        | cons y mid =>
          obtain ⟨rfl, rfl⟩ := List.cons.inj heq₃
          -- The access that fails is the last one of the body, and the handler follows.
          refine .inr ⟨hmarked, fun hok => ?_⟩
          rcases htracks _ _ _ _ h₃ hopen₁ with ⟨hopen₃, -⟩ | ⟨-, y, hy, hcompleted⟩
          · obtain ⟨y, hy, hcompleted⟩ := recordFailure_completes hrefl hothers hsettled h₄ hr hopen₃
              fun y hy => hok y (List.mem_append_right _ hy)
            exact ⟨y, by simp [hy], hcompleted⟩
          · refine ⟨y, ?_, hcompleted⟩
            rw [heq, heq₂]
            exact List.mem_append_right _ (List.mem_append_left _ hy)
      · exact .inl (hhandler mid heq₄)
    · exact absurd (hbody.ok_of_returned h₃.trace x (by simp)) hx
    · exact absurd rfl hr
  · exact .inl ((uncaught_perform _).eq_nil_of_trace h₁.trace hx).1
  · exact absurd rfl hr

theorem recordsErrors_processAssembleAudiobookJob (computeManifestHash : List (Id × Hash) → Hash)
    (deliveryFormats : List DeliveryFormat) {d : Delivery}
    (hentity : d.envelope.entityId = some jobId) :
    RecordsErrors others jobId
      (processAssembleAudiobookJob computeManifestHash deliveryFormats d) := by
  have hbind {α β : Type} := @recordsErrors_bind others hrefl jobId hothers α β
  have hrest {p : Service Unit} (hp : Uncaught p) : RecordsErrors others jobId p :=
    recordsErrors_of_uncaught hp
  rw [processAssembleAudiobookJob, hentity]
  refine hbind (silent_query _) fun s _ found _ hfound => ?_
  obtain ⟨s₀, -, -, -, rfl⟩ := Prog.runs_read_returned hfound
  cases hjob : findJob jobId s₀ with
  | none => exact hrest trivial
  | some job =>
  have hid := List.find?_some hjob
  obtain rfl : job.id = jobId := of_decide_eq_true hid
  dsimp only
  split
  · exact hrest trivial
  split
  · refine hbind (silent_query _) fun _ _ book _ _ => ?_
    split
    · exact hrest trivial
    refine hbind (silent_checkAudiobookReadiness _) fun _ _ readiness _ _ => ?_
    split
    · refine hbind (silent_query _) fun _ _ chapters _ _ => ?_
      split
      · exact hrest (uncaught_recordFailure _ _ _)
      · exact hrest trivial
      · split
        · exact hrest (Prog.straight_bind (uncaught_recordFailure _ _ _) fun _ => trivial)
        · refine hbind (silent_query _) fun _ _ existing _ _ => ?_
          split
          · exact hrest (Prog.straight_bind (uncaught_of_silent (silent_missingDeliveryFormats _ _ _))
              fun _ => Prog.straight_bind (uncaught_perform _) fun _ =>
                uncaught_of_silent (silent_enqueueEncodeJobs _ _ _))
          · refine recordsErrors_try hrefl hothers (uncaught_assembleAudiobook _ _ _ _ _ _ _)
              (tracks_assembleAudiobook hrefl hothers _ _ _ _ _ _ _) ?_ _
            simp [JobStatus.IsSkipped]
    · exact hrest (uncaught_recordFailure _ _ _)
  · exact hrest trivial

end recorded

/-! ## Attempts That Are Not the Last One -/

/-- The error of an attempt comes early: neither the access `x` that failed nor one before it
completed the job, and a processor of audiobooks raised the error outside its `try` block, before
the job was marked as running or in the failure handler itself, where nothing comes after it. -/
structure FailsEarly (m : Envelope) (jobId : Id) (pre : List AccessEvent) (x : AccessEvent)
    (post : List AccessEvent) : Prop where
  unfinished : ∀ y ∈ pre ++ [x], ¬ Completed jobId y
  outsideTry : ∀ bookId formats, m.payload = .assembleAudiobook bookId formats →
    (∀ y ∈ pre, ¬ MarkedRunning y) ∨ post = []

section retries

variable {others : Store → Store → Prop} {jobId : Id}

theorem jobOpen_of_recordsErrors {p : Service Unit} (htracks : Tracks others jobId p)
    (hrecords : RecordsErrors others jobId p) {s s' : Store} (hopen : JobOpen jobId s)
    {pre post : List AccessEvent} {x : AccessEvent} {e : Fault}
    (hrun : p.Runs others s (pre ++ x :: post) (.raised e) s') (hpre : ∀ y ∈ pre, AccessOk y)
    (hx : ¬ AccessOk x) :
    ((∀ y ∈ pre ++ [x], ¬ Completed jobId y) → (∀ y ∈ pre, ¬ MarkedRunning y) ∨ post = [] →
        JobOpen jobId s') ∧
      ((∀ y ∈ post, AccessOk y) → JobOpen jobId s' →
        (∀ y ∈ pre ++ [x], ¬ Completed jobId y) ∧ post = []) := by
  have hrecord := hrecords _ _ _ _ hrun nofun hopen pre x post rfl hpre hx
  constructor
  · intro hnone hearly
    obtain rfl : post = [] := by
      rcases hrecord with hpost | ⟨⟨y, hy, hmarked⟩, -⟩
      · exact hpost
      · exact hearly.resolve_left fun h => h y hy hmarked
    rcases htracks _ _ _ _ hrun hopen with ⟨hopen', -⟩ | ⟨-, y, hy, hcompleted⟩
    · exact hopen'
    · exact absurd hcompleted (hnone y hy)
  · intro hok hopen'
    rcases htracks _ _ _ _ hrun hopen with ⟨-, hnone⟩ | ⟨hsettled, -⟩
    · refine ⟨fun y hy => hnone y ?_, hrecord.resolve_right ?_⟩
      · exact List.append_subset.mpr ⟨by simp, by simp⟩ hy
      · rintro ⟨-, hcompleted⟩
        obtain ⟨y, hy, hcompleted⟩ := hcompleted hok
        exact hnone y hy hcompleted
    · exact absurd hopen' hsettled.not_open

variable (hrefl : ∀ s, others s s) (hothers : ∀ s s', others s s' → LeavesJob jobId s s')

include hrefl hothers

/-- An access of an attempt that is not the last one fails, and the processor raises. If the
error came early, the job stays open, so that the next delivery works on it again; and if no
access after it failed, the job stays open only then. -/
theorem jobOpen_after_error_iff (computeManifestHash : List (Id × Hash) → Hash) {d : Delivery}
    (hfinal : ¬ d.isFinalAttempt) (hentity : d.envelope.entityId = some jobId) {s s' : Store}
    (hopen : JobOpen jobId s) {pre post : List AccessEvent} {x : AccessEvent} {e : Fault}
    (hrun : (processAssemblyJob computeManifestHash d).Runs others s (pre ++ x :: post)
      (.raised e) s')
    (hpre : ∀ y ∈ pre, AccessOk y) (hx : ¬ AccessOk x) :
    (FailsEarly d.envelope jobId pre x post → JobOpen jobId s') ∧
      ((∀ y ∈ post, AccessOk y) → JobOpen jobId s' → FailsEarly d.envelope jobId pre x post) := by
  unfold processAssemblyJob at hrun
  split at hrun
  · next chapterId hpayload =>
    have huncaught := uncaught_processAssembleChapterJob computeManifestHash chapterId hfinal
    obtain ⟨hearly, hopened⟩ := jobOpen_of_recordsErrors
      (tracks_processAssembleChapterJob hrefl hothers _ _ _) (recordsErrors_of_uncaught huncaught)
      hopen hrun hpre hx
    have hpost := (huncaught.eq_nil_of_trace hrun.trace hx).1
    exact ⟨fun h => hearly h.unfinished (.inr hpost),
      fun hok h => ⟨(hopened hok h).1, fun _ _ _ => .inr hpost⟩⟩
  · next bookId deliveryFormats hpayload =>
    obtain ⟨hearly, hopened⟩ := jobOpen_of_recordsErrors
      (tracks_processAssembleAudiobookJob hrefl hothers _ _ _)
      (recordsErrors_processAssembleAudiobookJob hrefl hothers _ _ hentity) hopen hrun hpre hx
    exact ⟨fun h => hearly h.unfinished (h.outsideTry _ _ hpayload),
      fun hok h => ⟨(hopened hok h).1, fun _ _ _ => .inr (hopened hok h).2⟩⟩
  · next audiobookId format hpayload =>
    have huncaught := uncaught_processEncodeDeliveryFormatJob audiobookId format hfinal
    obtain ⟨hearly, hopened⟩ := jobOpen_of_recordsErrors
      (tracks_processEncodeDeliveryFormatJob hrefl hothers _ _ _)
      (recordsErrors_of_uncaught huncaught) hopen hrun hpre hx
    have hpost := (huncaught.eq_nil_of_trace hrun.trace hx).1
    exact ⟨fun h => hearly h.unfinished (.inr hpost),
      fun hok h => ⟨(hopened hok h).1, fun _ _ _ => .inr hpost⟩⟩
  · cases pre <;> cases hrun

end retries

/-! ## An Error While the Small Book Is Assembled -/

instance (jobId : Id) (Q : JobStatus → Prop) [DecidablePred Q] (s : Store) :
    Decidable (HasStatus jobId Q s) :=
  decidable_of_iff ((findJob jobId s).any fun job => decide (Q job.status)) (by
    simp [HasStatus, Option.any_eq_true])

instance (jobId : Id) (s : Store) : Decidable (JobOpen jobId s) :=
  inferInstanceAs (Decidable (HasStatus jobId (fun status => ¬ status.IsSkipped) s))

instance (jobId : Id) (x : AccessEvent) : Decidable (Completed jobId x) :=
  inferInstanceAs (Decidable (_ ∧ _ ∧ _))

/-- The small book, with its chapter assembled and the job of the audiobook created. -/
def chapterAssembledBook : Store :=
  ((deliver polynomialDigest ⟨chapterEnvelope 100 3, 0, 77⟩).evaluate (fun _ => none)
    requestedBook).2

/-- The first delivery of a message, alone: access number `n` is refused, the others go well. -/
def failingAttempt (m : Envelope) (s : Store) (n : ℕ) :
    List AccessEvent × Ending Fault Unit × Store :=
  (processAssemblyJob polynomialDigest ⟨m, 0, 78⟩).execute s
    (List.replicate n .done ++ .refused .uncoded :: List.replicate 10 .done)

theorem runs_failingAttempt (m : Envelope) (s : Store) (n : ℕ) :
    (processAssemblyJob polynomialDigest ⟨m, 0, 78⟩).Runs Eq s (failingAttempt m s n).1
      (failingAttempt m s n).2.1 (failingAttempt m s n).2.2 :=
  Prog.runs_execute (fun _ => rfl) _ s _

theorem leavesJob_of_eq (jobId : Id) (s s' : Store) (h : s = s') : LeavesJob jobId s s' :=
  h ▸ refl_of (LeavesJob jobId) s

/-- Mastering fails in the first delivery of the chapter's message: its job stays open. -/
theorem jobOpen_after_error_iff_mastering :
    JobOpen 100 (failingAttempt (chapterEnvelope 100 3) requestedBook 7).2.2 := by
  have hrun := runs_failingAttempt (chapterEnvelope 100 3) requestedBook 7
  obtain ⟨x, hx⟩ : ∃ x, (failingAttempt (chapterEnvelope 100 3) requestedBook 7).1.drop 7 = [x] :=
    List.length_eq_one_iff.mp (by decide +kernel)
  have hsplit := List.take_append_drop 7 (failingAttempt (chapterEnvelope 100 3) requestedBook 7).1
  have hfailed : ∀ y ∈ (failingAttempt (chapterEnvelope 100 3) requestedBook 7).1.drop 7,
      ¬ AccessOk y := by decide +kernel
  have hnone : ∀ y ∈ (failingAttempt (chapterEnvelope 100 3) requestedBook 7).1,
      ¬ Completed 100 y := by decide +kernel
  have hending : (failingAttempt (chapterEnvelope 100 3) requestedBook 7).2.1 = .raised .uncoded := by
    decide +kernel
  rw [hx] at hsplit hfailed
  rw [← hsplit, hending] at hrun
  refine (jobOpen_after_error_iff (fun _ => rfl) (leavesJob_of_eq 100) polynomialDigest
    (by decide) rfl (by decide +kernel) hrun (by decide +kernel) (hfailed x (by simp))).1 ⟨?_, nofun⟩
  rwa [← hsplit] at hnone

/-- It is not so that every error on an attempt that is not the last one leaves the job open: the
storage fails while the audiobook is assembled, and its job is `FAILED` at once. -/
theorem not_forall_jobOpen_after_error :
    ¬ ∀ (computeManifestHash : List (Id × Hash) → Hash) (others : Store → Store → Prop) (jobId : Id)
        (d : Delivery) (s s' : Store) (pre post : List AccessEvent) (x : AccessEvent) (e : Fault),
        (∀ s, others s s) → (∀ s s', others s s' → LeavesJob jobId s s') →
        ¬ d.isFinalAttempt → d.envelope.entityId = some jobId → JobOpen jobId s →
        (processAssemblyJob computeManifestHash d).Runs others s (pre ++ x :: post) (.raised e) s' →
        (∀ y ∈ pre, AccessOk y) → ¬ AccessOk x → (∀ y ∈ post, AccessOk y) → JobOpen jobId s' := by
  intro hclaim
  have hrun := runs_failingAttempt (audiobookEnvelope 102 1 [.m4b]) chapterAssembledBook 8
  have hlast : ¬ JobOpen 102
      (failingAttempt (audiobookEnvelope 102 1 [.m4b]) chapterAssembledBook 8).2.2 := by
    decide +kernel
  have hending : (failingAttempt (audiobookEnvelope 102 1 [.m4b]) chapterAssembledBook 8).2.1 =
      .raised .uncoded := by decide +kernel
  obtain ⟨x, y, z, hdrop⟩ : ∃ x y z,
      (failingAttempt (audiobookEnvelope 102 1 [.m4b]) chapterAssembledBook 8).1.drop 8 =
        [x, y, z] := List.length_eq_three.mp (by decide +kernel)
  have hsplit := List.take_append_drop 8
    (failingAttempt (audiobookEnvelope 102 1 [.m4b]) chapterAssembledBook 8).1
  have hevents : (∀ a ∈ (failingAttempt (audiobookEnvelope 102 1 [.m4b])
      chapterAssembledBook 8).1.take 8, AccessOk a) ∧
      ((failingAttempt (audiobookEnvelope 102 1 [.m4b]) chapterAssembledBook 8).1.drop 8).map
        (fun a => decide (AccessOk a)) = [false, true, true] := by decide +kernel
  obtain ⟨hpre, hfates⟩ := hevents
  rw [hdrop] at hsplit hfates
  simp only [List.map_cons, List.map_nil, List.cons.injEq, decide_eq_false_iff_not,
    decide_eq_true_eq, and_true] at hfates
  rw [← hsplit, hending] at hrun
  exact hlast (hclaim polynomialDigest Eq 102 _ _ _ _ [y, z] x _ (fun _ => rfl)
    (leavesJob_of_eq 102) (by decide) rfl (by decide +kernel) hrun hpre hfates.1
    (by simp [hfates.2.1, hfates.2.2]))

end AudioBook
