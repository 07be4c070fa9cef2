import AudioBook.Jobs.TerminalStates

/-!
# What Transactions Do to the Products of Assembly

The transactions of assembly, seen from the rows they produce. No transaction changes what a job
was created for. Most transactions leave audiobooks, renditions and books alone; for the others,
the store after a commit is stated once.

Main results:

- `tx_requests`: every job keeps what it was created for.
- `tx_products`: the other accesses leave the products alone.
-/

namespace AudioBook

open Relational Concurrent

/-! ## Jobs Keep Their Request -/

/-- Every job that is found is found later, too, with the same request. -/
def JobRequests (s s' : Store) : Prop :=
  Lookup ProcessingJob.id ProcessingJob.SameRequest s.processingJobs s'.processingJobs

instance : IsPreorder Store JobRequests where
  refl s := refl_of (Lookup ProcessingJob.id ProcessingJob.SameRequest) s.processingJobs
  trans _ _ _ h₁ h₂ := trans_of (Lookup ProcessingJob.id ProcessingJob.SameRequest) h₁ h₂

theorem JobRequests.of_eq {s s' : Store} (h : s'.processingJobs = s.processingJobs) :
    JobRequests s s' := by
  rw [JobRequests, h]
  exact refl_of (Lookup ProcessingJob.id ProcessingJob.SameRequest) _

theorem JobRequests.findJob {s s' : Store} (h : JobRequests s s') {jobId : Id}
    {job : ProcessingJob} (hjob : findJob jobId s = some job) :
    ∃ job', AudioBook.findJob jobId s' = some job' ∧ job.SameRequest job' :=
  h jobId job hjob

theorem updateJob_requests {jobId : Id} {f : ProcessingJob → ProcessingJob}
    (hf : ∀ job : ProcessingJob, job.SameRequest (f job)) : (updateJob jobId f).Within JobRequests := by
  have hid : ∀ job, (f job).id = job.id := fun job => by rw [hf job]
  exact updateJob_within fun s => Lookup.updateWhere hid fun job _ => hf job

theorem failEncode_within {R : Store → Store → Prop} [IsPreorder Store R] {jobId : Id}
    {errorCode : ErrorCode} {audiobookId : Id} {format : DeliveryFormat} {existing : Option Id}
    {newId : Id} {failAudiobook : Bool} (hjob : (markFailed jobId errorCode).Within R)
    (hrenditions : ∀ s rows, R s { s with audiobookRenditions := rows })
    (haudiobooks : ∀ s rows, R s { s with audiobooks := rows }) :
    (failEncode jobId errorCode audiobookId format existing newId failAudiobook).Within R := by
  refine Transaction.within_bind hjob fun _ => Transaction.within_bind ?_ fun _ => ?_
  · unfold failRendition
    split
    · exact Table.within_update _ fun s _ => hrenditions s _
    · exact Table.within_insert _ fun s _ => hrenditions s _
  · split
    · exact Table.within_update _ fun s _ => haudiobooks s _
    · exact Transaction.within_pure ()

theorem tx_requests (a : Access) : a.tx.Within JobRequests :=
  tx_jobs (fun _ _ => JobRequests.of_eq) (fun _ _ => Lookup.append _ _)
    fun _ _ hf _ => updateJob_requests hf

/-! ## Accesses That Write No Product -/

def Access.WritesProduct : Access → Prop
  | persistAudiobook _ _ => True
  | updateRendition _ _ => True
  | createRendition _ => True
  | failEncode _ _ _ _ _ _ _ _ => True
  | publish _ _ => True
  | _ => False

/-- The audiobooks, the renditions and the books are the same. -/
structure SameProducts (s s' : Store) : Prop where
  audiobooks : s'.audiobooks = s.audiobooks
  renditions : s'.audiobookRenditions = s.audiobookRenditions
  books : s'.books = s.books

instance : IsPreorder Store SameProducts where
  refl _ := ⟨rfl, rfl, rfl⟩
  trans _ _ _ h₁ h₂ := ⟨h₂.1.trans h₁.1, h₂.2.trans h₁.2, h₂.3.trans h₁.3⟩

theorem tx_products {a : Access} (ha : ¬ a.WritesProduct) : a.tx.Within SameProducts := by
  have hsame : ∀ jobId f, (updateJob jobId f).Within SameProducts := fun jobId f =>
    updateJob_within fun s => ⟨rfl, rfl, rfl⟩
  cases a with
  | query => exact Transaction.within_pure ()
  | requestedFormats audiobookId => exact Transaction.within_pure ()
  | readCancellationFlag jobId => exact Transaction.within_pure ()
  | external => exact Transaction.within_pure ()
  | freshId =>
    rintro s _ s' h
    cases h
    exact ⟨rfl, rfl, rfl⟩
  | enqueue envelope => exact enqueueMessage_within (fun s queue => ⟨rfl, rfl, rfl⟩) _
  | removeQueuedJob jobId => exact Transaction.within_modify fun s => ⟨rfl, rfl, rfl⟩
  | setCancellationFlag jobId => exact Transaction.within_modify fun s => ⟨rfl, rfl, rfl⟩
  | createJobs jobs => exact createJobs_within fun job _ s _ => ⟨rfl, rfl, rfl⟩
  | createTtsJobs coordinator jobs =>
    refine Transaction.within_bind (Table.within_insert _ fun s _ => ⟨rfl, rfl, rfl⟩) fun _ => ?_
    exact createSyntheses_within (fun s rows => ⟨rfl, rfl, rfl⟩) fun s rows => ⟨rfl, rfl, rfl⟩
  | cancelJobs jobs => exact cancelJobs_within fun p _ => hsame _ _
  | markQueued jobId => exact hsame _ _
  | halt jobId seen => exact hsame _ _
  | markRunning jobId seen => exact hsame _ _
  | markSucceeded jobId seen => exact hsame _ _
  | markFailed jobId seen errorCode => exact hsame _ _
  | persistChapterAudio jobId chapterAudio =>
    refine Transaction.within_bind (Table.within_update _ fun s _ => ⟨rfl, rfl, rfl⟩) fun _ => ?_
    refine Transaction.within_bind (Table.within_insert _ fun s _ => ⟨rfl, rfl, rfl⟩) fun _ => ?_
    exact hsame _ _
  | insertChunks chunks => exact insertChunks_within (fun s rows => ⟨rfl, rfl, rfl⟩) _
  | insertAudioChunk new =>
    exact Transaction.within_bind (insertAudioChunk_within (fun s rows => ⟨rfl, rfl, rfl⟩)
      (fun s rows => ⟨rfl, rfl, rfl⟩) (fun s rows => ⟨rfl, rfl, rfl⟩) _) fun _ =>
        Transaction.within_pure ()
  | persistAudiobook jobId audiobook => exact absurd trivial ha
  | updateRendition renditionId rendition => exact absurd trivial ha
  | createRendition rendition => exact absurd trivial ha
  | failEncode jobId seen errorCode audiobookId format existing newId failAudiobook =>
    exact absurd trivial ha
  | publish audiobookId bookId => exact absurd trivial ha

/-! ## Accesses That Write a Product -/

section commits

variable {s s' : Store} {u : Unit}

/-- The audiobooks after the new one became the current one of its book. -/
def withCurrentAudiobook (audiobook : Audiobook) (rows : List Audiobook) : List Audiobook :=
  updateWhere (fun a => decide (a.bookId = audiobook.bookId ∧ a.isCurrent))
    (fun a => { a with isCurrent := false }) rows ++ [audiobook]

theorem persistAudiobook_eq_ok {jobId : Id} {audiobook : Audiobook}
    (h : persistAudiobook jobId audiobook s = .ok (u, s')) :
    (findJob jobId s).isSome ∧
      Db.audiobook.Accepts (withCurrentAudiobook audiobook s.audiobooks) ∧
      ∃ jobs, s' = { s with
        audiobooks := withCurrentAudiobook audiobook s.audiobooks
        processingJobs := jobs } := by
  obtain ⟨_, s₁, h₁, h⟩ := Transaction.bind_eq_ok_iff.mp h
  obtain ⟨_, s₂, h₂, h⟩ := Transaction.bind_eq_ok_iff.mp h
  obtain ⟨-, rfl⟩ := (Table.update_eq_ok_iff (ε := Fault) _).mp h₁
  obtain ⟨hacc, rfl⟩ := (Table.insert_eq_ok_iff (ε := Fault) _).mp h₂
  obtain ⟨hjob, -, rfl⟩ := updateJob_eq_ok_iff.mp h
  exact ⟨hjob, hacc, _, rfl⟩

def withStatus (audiobookId : Id) (status : AudiobookStatus) (rows : List Audiobook) :
    List Audiobook :=
  updateWhere (fun a => decide (a.id = audiobookId)) (fun a => { a with status := status }) rows

theorem publishAudiobook_eq_ok {audiobookId bookId : Id}
    (h : publishAudiobook audiobookId bookId s = .ok (u, s')) :
    s' = { s with
      audiobooks := withStatus audiobookId .ready s.audiobooks
      books := updateWhere (fun book => decide (book.id = bookId))
        (fun book => { book with currentAudiobookId := some audiobookId }) s.books } := by
  obtain ⟨_, s₁, h₁, h⟩ := Transaction.bind_eq_ok_iff.mp h
  obtain ⟨-, rfl⟩ := (Table.update_eq_ok_iff (ε := Fault) _).mp h₁
  obtain ⟨-, rfl⟩ := (Table.update_eq_ok_iff (ε := Fault) _).mp h
  rfl

/-- The renditions after a `FAILED` one was left for a format. -/
def withFailedRendition (audiobookId : Id) (format : DeliveryFormat) (existing : Option Id)
    (newId : Id) (rows : List AudiobookRendition) : List AudiobookRendition :=
  match existing with
  | some renditionId =>
      updateWhere (fun r => decide (r.id = renditionId)) (fun r => { r with status := .failed }) rows
  | none => rows ++ [{
      id := newId
      audiobookId := audiobookId
      format := format
      chapterId := none
      status := .failed
      matchesCurrentPolicy := false }]

theorem failRendition_eq_ok {audiobookId : Id} {format : DeliveryFormat} {existing : Option Id}
    {newId : Id} (h : failRendition audiobookId format existing newId s = .ok (u, s')) :
    Db.audiobookRendition.Accepts
        (withFailedRendition audiobookId format existing newId s.audiobookRenditions) ∧
      s' = { s with
        audiobookRenditions :=
          withFailedRendition audiobookId format existing newId s.audiobookRenditions } := by
  unfold failRendition at h
  split at h
  · exact (Table.update_eq_ok_iff (ε := Fault) _).mp h
  · exact (Table.insert_eq_ok_iff (ε := Fault) _).mp h

theorem failEncode_eq_ok {jobId : Id} {errorCode : ErrorCode} {audiobookId : Id}
    {format : DeliveryFormat} {existing : Option Id} {newId : Id} {failAudiobook : Bool}
    (h : failEncode jobId errorCode audiobookId format existing newId failAudiobook s =
      .ok (u, s')) :
    Db.audiobookRendition.Accepts
        (withFailedRendition audiobookId format existing newId s.audiobookRenditions) ∧
      ∃ jobs, s' = { s with
        processingJobs := jobs
        audiobookRenditions :=
          withFailedRendition audiobookId format existing newId s.audiobookRenditions
        audiobooks :=
          if failAudiobook then withStatus audiobookId .failed s.audiobooks else s.audiobooks } := by
  obtain ⟨_, s₁, h₁, h⟩ := Transaction.bind_eq_ok_iff.mp h
  obtain ⟨_, s₂, h₂, h⟩ := Transaction.bind_eq_ok_iff.mp h
  obtain ⟨-, -, rfl⟩ := updateJob_eq_ok_iff.mp h₁
  obtain ⟨hacc, rfl⟩ := failRendition_eq_ok h₂
  refine ⟨hacc, ?_⟩
  cases failAudiobook with
  | true =>
    obtain ⟨-, rfl⟩ := (Table.update_eq_ok_iff (ε := Fault) _).mp h
    exact ⟨_, rfl⟩
  | false =>
    cases h
    exact ⟨_, rfl⟩

end commits

/-! ## Audiobooks Keep Their Build -/

/-- A later version of an audiobook: only its status and its being current changed. -/
def Audiobook.SameBuild (a a' : Audiobook) : Prop :=
  a' = { a with status := a'.status, isCurrent := a'.isCurrent }

instance : IsPreorder Audiobook Audiobook.SameBuild where
  refl _ := rfl
  trans a b c hab hbc := by
    rw [Audiobook.SameBuild] at *
    rw [hbc, hab]

/-- Every audiobook stays, as the same build. -/
def Builds (s s' : Store) : Prop :=
  Persist Audiobook.SameBuild s.audiobooks s'.audiobooks

instance : IsPreorder Store Builds where
  refl s := refl_of (Persist Audiobook.SameBuild) s.audiobooks
  trans _ _ _ h₁ h₂ := trans_of (Persist Audiobook.SameBuild) h₁ h₂

theorem Builds.of_eq {s s' : Store} (h : s'.audiobooks = s.audiobooks) : Builds s s' := by
  rw [Builds, h]
  exact refl_of (Persist Audiobook.SameBuild) _

theorem builds_withStatus (audiobookId : Id) (status : AudiobookStatus) (rows : List Audiobook) :
    Persist Audiobook.SameBuild rows (withStatus audiobookId status rows) :=
  Persist.updateWhere fun _ _ _ => rfl

theorem tx_builds (a : Access) : a.tx.Within Builds := by
  by_cases ha : a.WritesProduct
  · intro s u s' h
    cases a with
    | persistAudiobook jobId audiobook =>
      obtain ⟨-, -, jobs, rfl⟩ := persistAudiobook_eq_ok h
      refine trans_of (Persist Audiobook.SameBuild) ?_ (Persist.append _ _ [audiobook])
      exact Persist.updateWhere fun _ _ _ => rfl
    | updateRendition renditionId rendition =>
      obtain ⟨-, rfl⟩ := (Table.update_eq_ok_iff (ε := Fault) _).mp h
      exact Builds.of_eq rfl
    | createRendition rendition =>
      obtain ⟨-, rfl⟩ := (Table.insert_eq_ok_iff (ε := Fault) _).mp h
      exact Builds.of_eq rfl
    | failEncode jobId seen errorCode audiobookId format existing newId failAudiobook =>
      obtain ⟨-, jobs, rfl⟩ := failEncode_eq_ok h
      cases failAudiobook with
      | true => exact builds_withStatus _ _ _
      | false => exact Builds.of_eq rfl
    | publish audiobookId bookId =>
      obtain rfl := publishAudiobook_eq_ok h
      exact builds_withStatus _ _ _
    | _ => exact absurd ha not_false
  · exact fun s u s' h => Builds.of_eq (tx_products ha s u s' h).audiobooks

end AudioBook
