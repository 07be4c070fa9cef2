import AudioBook.Assembly.Effects
import AudioBook.Assembly.Steps
import AudioBook.Schema.Constraints

/-!
# Packaging Retries

A later `assemble_audiobook` job of the same chapters looks for an audiobook of their manifest and
resumes it: it creates encode jobs for the requested formats that are not `READY` and leaves
everything else alone. The lookup passes over an audiobook that is `FAILED`, and the failure of an
encode makes its audiobook `FAILED`. The encode jobs are created one after the other under the keys
of earlier ones, which stay taken as long as the earlier job is not `FAILED`, `CANCELLED` or
`DEAD_LETTERED`.

Main results:

- `evaluate_of_resumable`: a retry that meets a resumable audiobook resumes it.
- `resumed_iff`: in every run in which no failure makes an audiobook of the manifest `FAILED`, a
  retry resumes the newest one exactly when the keys of the missing formats are free.
-/

namespace AudioBook

open Relational Concurrent

/-! ## Creating Encode Jobs -/

/-- Ids are handed out once: the jobs and the messages have ids that were drawn before. -/
structure IssuedIds (s : Store) : Prop where
  jobs : ∀ job ∈ s.processingJobs, job.id < s.nextId
  queue : ∀ m ∈ s.queue, m.jobId < s.nextId

/-- No job occupies the key of an encode job. -/
def EncodeKeyFree (audiobookId : Id) (format : DeliveryFormat) (s : Store) : Prop :=
  ∀ job ∈ s.processingJobs,
    job.activeIdempotencyKey ≠ some (.encodeDeliveryFormat audiobookId format)

/-- The store after the encode job of a format was created and put on the broker. -/
def withEncodeJob (job : ProcessingJob) (audiobookId : Id) (s : Store) (format : DeliveryFormat) :
    Store :=
  { s with
    nextId := s.nextId + 1
    processingJobs := s.processingJobs ++
      [{ encodeJob s.nextId job audiobookId format with queued := true }]
    queue := s.queue ++ [encodeEnvelope s.nextId audiobookId format] }

section create

variable {s : Store} {job : ProcessingJob} {audiobookId : Id} {format : DeliveryFormat}

theorem accepts_encodeJob_iff {rows : List ProcessingJob} (hrows : Db.processingJob.Accepts rows)
    (hparent : job.id ∈ rows.map ProcessingJob.id) {newId : Id}
    (hnew : newId ∉ rows.map ProcessingJob.id) (queued : Bool) :
    Db.processingJob.Accepts
        (rows ++ [{ encodeJob newId job audiobookId format with queued := queued }]) ↔
      ∀ row ∈ rows, row.activeIdempotencyKey ≠ some (.encodeDeliveryFormat audiobookId format) := by
  have hok := Db.processingJob_accepts_iff.mp hrows
  rw [Db.processingJob_accepts_iff]
  constructor
  · intro haccepts
    exact (uniqueWhere_concat_iff.mp haccepts.activeKey).2 _ rfl
  · intro hfree
    refine ⟨?_, ?_, ?_, ?_, ?_⟩
    · rw [List.map_append, List.nodup_append]
      refine ⟨hok.id, by simp, fun i hi j hj => ?_⟩
      obtain rfl := List.mem_singleton.mp hj
      rintro rfl
      exact hnew hi
    · refine uniqueWhere_concat_iff.mpr ⟨hok.activeKey, fun k hk row hrow => ?_⟩
      exact Option.some.inj hk ▸ hfree row hrow
    · exact List.forall_mem_append.mpr ⟨hok.attemptCount, by simp [encodeJob]⟩
    · exact List.forall_mem_append.mpr ⟨hok.errorCode, by simp [encodeJob]⟩
    · refine hok.parent.concat fun i hi => ?_
      exact Option.some.inj hi ▸ hparent

theorem evaluate_enqueueEncodeJobs_cons (hjobs : Db.processingJob.Holds s)
    (hparent : job.id ∈ s.processingJobs.map ProcessingJob.id) (hids : IssuedIds s)
    (hfree : EncodeKeyFree audiobookId format s) (formats : List DeliveryFormat) :
    (enqueueEncodeJobs job audiobookId (format :: formats)).evaluate (fun _ => none) s =
      (enqueueEncodeJobs job audiobookId formats).evaluate (fun _ => none)
        (withEncodeJob job audiobookId s format) := by
  have hnew : s.nextId ∉ s.processingJobs.map ProcessingJob.id := fun hmem => by
    obtain ⟨row, hrow, hid⟩ := List.mem_map.mp hmem
    exact (hids.jobs row hrow).ne hid
  have hcreate : createJobs [encodeJob s.nextId job audiobookId format]
      { s with nextId := s.nextId + 1 } = .ok ((), { s with
        nextId := s.nextId + 1
        processingJobs := s.processingJobs ++ [encodeJob s.nextId job audiobookId format] }) := by
    rw [createJobs, Transaction.bind_eq_of_ok]
    · rfl
    · refine (Table.insert_eq_ok_iff (ε := Fault) _).mpr ⟨?_, rfl⟩
      exact (accepts_encodeJob_iff hjobs hparent hnew false).mpr hfree
  have henqueue : enqueueMessage (encodeEnvelope s.nextId audiobookId format) { s with
        nextId := s.nextId + 1
        processingJobs := s.processingJobs ++ [encodeJob s.nextId job audiobookId format] } =
      .ok ((), { s with
        nextId := s.nextId + 1
        processingJobs := s.processingJobs ++ [encodeJob s.nextId job audiobookId format]
        queue := s.queue ++ [encodeEnvelope s.nextId audiobookId format] }) := by
    show Except.ok ((), if _ then _ else _) = _
    rw [if_neg]
    rw [List.any_eq_true]
    rintro ⟨m, hm, heq⟩
    have hlt := hids.queue m hm
    rw [of_decide_eq_true heq] at hlt
    exact absurd hlt (lt_irrefl _)
  have hqueued : updateJob s.nextId (fun job => { job with queued := true }) { s with
        nextId := s.nextId + 1
        processingJobs := s.processingJobs ++ [encodeJob s.nextId job audiobookId format]
        queue := s.queue ++ [encodeEnvelope s.nextId audiobookId format] } =
      .ok ((), withEncodeJob job audiobookId s format) := by
    have hrows : updateWhere (fun job => decide (job.id = s.nextId))
        (fun job => { job with queued := true })
        (s.processingJobs ++ [encodeJob s.nextId job audiobookId format]) =
          s.processingJobs ++
            [{ encodeJob s.nextId job audiobookId format with queued := true }] :=
      updateWhere_concat (fun row hrow => by simpa using (hids.jobs row hrow).ne) (by simp [encodeJob])
    refine updateJob_eq_ok_iff.mpr ⟨?_, ?_, ?_⟩
    · exact List.find?_isSome.mpr ⟨_, List.mem_append_right _ (List.mem_singleton_self _),
        by simp [encodeJob]⟩
    · show Db.processingJob.Accepts (updateWhere _ _ (_ ++ _))
      rw [hrows]
      exact (accepts_encodeJob_iff hjobs hparent hnew true).mpr hfree
    · rw [withEncodeJob, hrows]
  rw [enqueueEncodeJobs]
  have hid : Prog.evaluate (fun _ => none) freshId s =
      (.ok s.nextId, { s with nextId := s.nextId + 1 }) := rfl
  refine (Prog.evaluate_bind_of_ok hid).trans ?_
  refine (Prog.evaluate_bind_of_ok (Prog.evaluate_atomically rfl hcreate)).trans ?_
  rw [enqueueProcessingJob, Prog.bind_assoc]
  refine (Prog.evaluate_bind_of_ok (Prog.evaluate_atomically rfl henqueue)).trans ?_
  exact Prog.evaluate_bind_of_ok (Prog.evaluate_atomically rfl hqueued)

theorem evaluate_enqueueEncodeJobs_cons_of_taken (hjobs : Db.processingJob.Holds s)
    (hparent : job.id ∈ s.processingJobs.map ProcessingJob.id) (hids : IssuedIds s)
    (htaken : ¬ EncodeKeyFree audiobookId format s) (formats : List DeliveryFormat) (s' : Store) :
    (enqueueEncodeJobs job audiobookId (format :: formats)).evaluate (fun _ => none) s ≠
      (.ok (), s') := by
  intro h
  rw [enqueueEncodeJobs] at h
  obtain ⟨newId, s₁, hid, h⟩ := Prog.evaluate_bind_eq_ok_iff.mp h
  cases hid
  obtain ⟨_, s₂, hcreate, -⟩ := Prog.evaluate_bind_eq_ok_iff.mp h
  obtain ⟨-, hcreate⟩ := Prog.evaluate_atomically_eq_ok_iff.mp hcreate
  obtain ⟨_, s₃, hinsert, -⟩ := Transaction.bind_eq_ok_iff.mp hcreate
  obtain ⟨haccepts, -⟩ := (Table.insert_eq_ok_iff (ε := Fault) _).mp hinsert
  refine htaken ((accepts_encodeJob_iff hjobs hparent ?_ false).mp haccepts)
  intro hmem
  obtain ⟨row, hrow, hid⟩ := List.mem_map.mp hmem
  exact (hids.jobs row hrow).ne hid

theorem encodeKeyFree_withEncodeJob_iff {format' : DeliveryFormat} :
    EncodeKeyFree audiobookId format' (withEncodeJob job audiobookId s format) ↔
      EncodeKeyFree audiobookId format' s ∧ format' ≠ format := by
  have hkey : ({ encodeJob s.nextId job audiobookId format with queued := true } :
      ProcessingJob).activeIdempotencyKey = some (.encodeDeliveryFormat audiobookId format) := rfl
  rw [EncodeKeyFree, withEncodeJob, List.forall_mem_append, List.forall_mem_singleton, hkey]
  refine and_congr_right fun _ => not_congr ?_
  simp [eq_comm]

theorem encodable_withEncodeJob (hjobs : Db.processingJob.Holds s)
    (hparent : job.id ∈ s.processingJobs.map ProcessingJob.id) (hids : IssuedIds s)
    (hfree : EncodeKeyFree audiobookId format s) :
    Db.processingJob.Holds (withEncodeJob job audiobookId s format) ∧
      job.id ∈ (withEncodeJob job audiobookId s format).processingJobs.map ProcessingJob.id ∧
      IssuedIds (withEncodeJob job audiobookId s format) := by
  refine ⟨?_, ?_, ⟨?_, ?_⟩⟩
  · refine (accepts_encodeJob_iff hjobs hparent (fun hmem => ?_) true).mpr hfree
    obtain ⟨row, hrow, hid⟩ := List.mem_map.mp hmem
    exact (hids.jobs row hrow).ne hid
  · rw [withEncodeJob, List.map_append]
    exact List.mem_append_left _ hparent
  · exact List.forall_mem_append.mpr
      ⟨fun row hrow => Nat.lt_succ_of_lt (hids.jobs row hrow), by simp [withEncodeJob, encodeJob]⟩
  · exact List.forall_mem_append.mpr
      ⟨fun m hm => Nat.lt_succ_of_lt (hids.queue m hm), by simp [withEncodeJob, encodeEnvelope]⟩

theorem evaluate_enqueueEncodeJobs_iff (hjobs : Db.processingJob.Holds s)
    (hparent : job.id ∈ s.processingJobs.map ProcessingJob.id) (hids : IssuedIds s)
    (formats : List DeliveryFormat) (s' : Store) :
    (enqueueEncodeJobs job audiobookId formats).evaluate (fun _ => none) s = (.ok (), s') ↔
      (formats.Nodup ∧ ∀ format ∈ formats, EncodeKeyFree audiobookId format s) ∧
        s' = formats.foldl (withEncodeJob job audiobookId) s := by
  induction formats generalizing s with
  | nil =>
    show (Except.ok (), s) = (.ok (), s') ↔ _
    simp [eq_comm]
  | cons format formats ih =>
    by_cases hfree : EncodeKeyFree audiobookId format s
    · obtain ⟨hjobs', hparent', hids'⟩ := encodable_withEncodeJob hjobs hparent hids hfree
      rw [evaluate_enqueueEncodeJobs_cons hjobs hparent hids hfree, ih hjobs' hparent' hids',
        List.foldl_cons, List.nodup_cons]
      refine and_congr_left fun _ => ?_
      simp only [encodeKeyFree_withEncodeJob_iff, List.forall_mem_cons, hfree, true_and]
      constructor
      · rintro ⟨hnodup, hall⟩
        exact ⟨⟨fun hmem => (hall format hmem).2 rfl, hnodup⟩, fun f hf => (hall f hf).1⟩
      · rintro ⟨⟨hnot, hnodup⟩, hall⟩
        exact ⟨hnodup, fun f hf => ⟨hall f hf, fun heq => hnot (heq ▸ hf)⟩⟩
    · refine iff_of_false
        (evaluate_enqueueEncodeJobs_cons_of_taken hjobs hparent hids hfree formats s') ?_
      rintro ⟨⟨-, hall⟩, -⟩
      exact hfree (hall format List.mem_cons_self)

end create

/-! ## Resuming an Audiobook -/

/-- The status lets a later job resume the audiobook. -/
def Audiobook.Resumable (a : Audiobook) : Prop := a.status ∉ [.failed, .superseded]

/-- The audiobook is the newest one of its version and manifest. -/
structure Audiobook.Newest (existing : Audiobook) (s : Store) : Prop where
  mem : existing ∈ s.audiobooks
  newest : ∀ a ∈ s.audiobooks, a.bookVersionId = existing.bookVersionId →
    a.chapterManifestHash = existing.chapterManifestHash → a ≠ existing →
      a.version < existing.version

theorem findUnchangedAudiobook_eq_some_iff {existing : Audiobook} {s : Store}
    (h : existing.Newest s) :
    findUnchangedAudiobook existing.bookVersionId existing.chapterManifestHash s = some existing ↔
      existing.Resumable := by
  have hsorted := List.pairwise_insertionSort (fun a b : Audiobook => b.version ≤ a.version)
    (s.audiobooks.filter fun a => decide (a.bookVersionId = existing.bookVersionId ∧
      a.chapterManifestHash = existing.chapterManifestHash ∧ a.status ∉ [.failed, .superseded]))
  have hmem : ∀ a, a ∈ (s.audiobooks.filter fun a =>
      decide (a.bookVersionId = existing.bookVersionId ∧
        a.chapterManifestHash = existing.chapterManifestHash ∧
        a.status ∉ [.failed, .superseded])).insertionSort (fun a b => b.version ≤ a.version) ↔
      a ∈ s.audiobooks ∧ a.bookVersionId = existing.bookVersionId ∧
        a.chapterManifestHash = existing.chapterManifestHash ∧ a.Resumable := fun a => by
    rw [List.mem_insertionSort, List.mem_filter, decide_eq_true_eq, Audiobook.Resumable]
  rw [findUnchangedAudiobook]
  constructor
  · intro hfound
    exact ((hmem existing).mp (List.mem_of_head? hfound)).2.2.2
  · intro hresumable
    have hexisting := (hmem existing).mpr ⟨h.mem, rfl, rfl, hresumable⟩
    generalize List.insertionSort (fun a b : Audiobook => b.version ≤ a.version) _ = rows
      at hsorted hmem hexisting ⊢
    cases rows with
    | nil => cases hexisting
    | cons a rows =>
      obtain ⟨ha, hversion, hmanifest, -⟩ := (hmem a).mp List.mem_cons_self
      by_cases heq : a = existing
      · rw [heq]
        rfl
      · have hlt := h.newest a ha hversion hmanifest heq
        rcases List.mem_cons.mp hexisting with heq' | htail
        · exact absurd heq'.symm heq
        · exact absurd (List.rel_of_pairwise_cons hsorted htail) (by omega)

/-- The requested formats of an audiobook that are not `READY`. -/
def missingFormats (audiobookId : Id) (chapterCount : ℕ) (formats : List DeliveryFormat)
    (s : Store) : List DeliveryFormat :=
  formats.filter fun format => !isDeliveryFormatReady audiobookId format chapterCount s

theorem evaluate_missingDeliveryFormats (audiobookId : Id) (chapterCount : ℕ)
    (formats : List DeliveryFormat) (s : Store) :
    (missingDeliveryFormats audiobookId chapterCount formats).evaluate (fun _ => none) s =
      (.ok (missingFormats audiobookId chapterCount formats s), s) := by
  induction formats with
  | nil => rfl
  | cons format formats ih =>
    rw [missingDeliveryFormats]
    refine (Prog.evaluate_read_bind rfl).trans ((Prog.evaluate_bind_of_ok ih).trans ?_)
    rw [missingFormats, missingFormats, List.filter_cons]
    cases isDeliveryFormatReady audiobookId format chapterCount s <;> rfl

def withSucceeded (jobId : Id) (s : Store) : Store :=
  { s with
    processingJobs := updateWhere (fun job => decide (job.id = jobId))
      (fun job => { job with status := .succeeded }) s.processingJobs }

theorem activeIdempotencyKey_withSucceeded {s : Store} {job : ProcessingJob}
    (hjobs : Db.processingJob.Holds s) (hfound : findJob job.id s = some job)
    (hopen : ¬ job.status.IsTerminal) (row : ProcessingJob) (hrow : row ∈ s.processingJobs)
    (hid : decide (row.id = job.id) = true) :
    ProcessingJob.activeIdempotencyKey { row with status := .succeeded } =
      row.activeIdempotencyKey := by
  have hok := Db.processingJob_accepts_iff.mp hjobs
  obtain rfl : row = job := by
    have hfind := (find?_eq_some_iff_of_nodup hok.id).mpr ⟨hrow, of_decide_eq_true hid⟩
    exact Option.some.inj (hfind.symm.trans hfound)
  rw [ProcessingJob.activeIdempotencyKey, ProcessingJob.activeIdempotencyKey, if_neg (by simp),
    if_neg]
  intro hmem
  exact hopen (by revert hmem; cases row.status <;> decide)

theorem markSucceeded_eq_withSucceeded {s : Store} {job : ProcessingJob} (hjobs : Db.processingJob.Holds s)
    (hfound : findJob job.id s = some job) (hopen : ¬ job.status.IsTerminal) :
    markSucceeded job.id s = .ok ((), withSucceeded job.id s) := by
  have hok := Db.processingJob_accepts_iff.mp hjobs
  refine updateJob_eq_ok_iff.mpr ⟨by simp [hfound], ?_, rfl⟩
  refine Db.processingJob_accepts_iff.mpr {
    id := nodup_map_updateWhere hok.id fun _ => rfl
    activeKey := hok.activeKey.updateWhere_of_retire fun row hrow hid =>
      .inr (activeIdempotencyKey_withSucceeded hjobs hfound hopen row hrow hid)
    attemptCount := forall_mem_updateWhere hok.attemptCount fun r hr _ => hok.attemptCount r hr
    errorCode := forall_mem_updateWhere hok.errorCode fun _ _ _ => by simp
    parent := hok.parent.updateWhere (fun _ => rfl) fun r hr _ => hok.parent r hr }

/-- An open `assemble_audiobook` job finds all chapters with their audio, and an audiobook of their
manifest. -/
structure PackagingRetry (computeManifestHash : List (Id × Hash) → Hash) (d : Delivery)
    (job : ProcessingJob) (existing : Audiobook) (chapters : List OrderedChapterAudio) (s : Store) :
    Prop where
  entity : d.envelope.entityId = some job.id
  found : findJob job.id s = some job
  unfinished : ¬ job.status.IsTerminal
  book : ∃ bookId book, job.bookId = some bookId ∧ findBook bookId s = some book ∧
    book.currentBookVersionId = some existing.bookVersionId
  ordered : orderedChapterAudios (chaptersWithAudio existing.bookVersionId s) = some chapters
  nonempty : chapters ≠ []
  directorVersion : (chapterDirectorVersions chapters).length ≤ 1
  manifest : computeManifestHash (chapterManifest chapters) = existing.chapterManifestHash
  newest : existing.Newest s

section retry

variable {computeManifestHash : List (Id × Hash) → Hash} {d : Delivery} {job : ProcessingJob}
  {existing : Audiobook} {chapters : List OrderedChapterAudio} {s : Store}

theorem isSome_of_orderedChapterAudios {g : Chapter → Option ChapterAudio} {cs : List Chapter}
    (h : orderedChapterAudios (cs.map fun c => (c, g c)) = some chapters) :
    chapters.length = cs.length ∧ ∀ c ∈ cs, (g c).isSome := by
  induction cs generalizing chapters with
  | nil =>
    cases h
    simp
  | cons c cs ih =>
    rw [List.map_cons] at h
    cases hg : g c with
    | none => simp [hg, orderedChapterAudios] at h
    | some audio =>
      simp only [hg, orderedChapterAudios] at h
      obtain ⟨rest, hrest, rfl⟩ := Option.map_eq_some_iff.mp h
      obtain ⟨hlength, hall⟩ := ih hrest
      exact ⟨by simp [hlength], List.forall_mem_cons.mpr ⟨by simp [hg], hall⟩⟩

theorem evaluate_checkAudiobookReadiness {bookId bookVersionId : Id} {book : Book}
    (hbook : findBook bookId s = some book)
    (hversion : book.currentBookVersionId = some bookVersionId)
    (hchapters : orderedChapterAudios (chaptersWithAudio bookVersionId s) = some chapters)
    (hnonempty : chapters ≠ []) :
    (checkAudiobookReadiness bookId).evaluate (fun _ => none) s =
      (.ok { ready := true, bookVersionId := some bookVersionId }, s) := by
  obtain ⟨hlength, hall⟩ := isSome_of_orderedChapterAudios hchapters
  have hsome : (chaptersOfVersion bookVersionId s).length ≠ 0 := by
    rw [← hlength]
    exact fun h => hnonempty (List.eq_nil_of_length_eq_zero h)
  have hready : (chaptersOfVersion bookVersionId s).countP
      (fun c => (currentAssembledAudio c.id s).isNone) = 0 := by
    rw [List.countP_eq_zero]
    intro c hc
    rw [Option.isNone_iff_eq_none]
    exact Option.isSome_iff_ne_none.mp (hall c hc)
  rw [checkAudiobookReadiness]
  refine (Prog.evaluate_read_bind rfl).trans ?_
  simp only [hbook, Option.bind_some, hversion]
  refine (Prog.evaluate_read_bind rfl).trans ?_
  rw [if_neg hsome]
  refine (Prog.evaluate_read_bind rfl).trans ?_
  simp [hready]

theorem evaluate_of_found (h : PackagingRetry computeManifestHash d job existing chapters s)
    (hjobs : Db.processingJob.Holds s) {formats : List DeliveryFormat} (hformats : formats ≠ [])
    (hfound : findUnchangedAudiobook existing.bookVersionId existing.chapterManifestHash s =
      some existing) :
    (processAssembleAudiobookJob computeManifestHash formats d).evaluate (fun _ => none) s =
      (enqueueEncodeJobs job existing.id
        (missingFormats existing.id chapters.length formats s)).evaluate (fun _ => none)
          (withSucceeded job.id s) := by
  obtain ⟨bookId, book, hjobBook, hbook, hversion⟩ := h.book
  obtain ⟨primaryFormat, rest, rfl⟩ := List.exists_cons_of_ne_nil hformats
  obtain ⟨first, others, rfl⟩ := List.exists_cons_of_ne_nil h.nonempty
  have hopen : ¬ (job.status = .succeeded ∨ job.status = .failed) := fun hstatus =>
    h.unfinished (by rcases hstatus with hstatus | hstatus <;> simp [JobStatus.IsTerminal, hstatus])
  have hready := evaluate_checkAudiobookReadiness hbook hversion h.ordered h.nonempty
  rw [processAssembleAudiobookJob, h.entity]
  refine (Prog.evaluate_read_bind rfl).trans ?_
  simp only [h.found, if_neg hopen, hjobBook]
  refine (Prog.evaluate_read_bind rfl).trans ?_
  simp only [hbook, Option.isNone_some, Bool.false_eq_true, if_false]
  refine (Prog.evaluate_bind_of_ok hready).trans ?_
  refine (Prog.evaluate_read_bind rfl).trans ?_
  simp only [h.ordered, if_neg (not_lt.mpr h.directorVersion)]
  rw [resumeOrAssembleAudiobook]
  simp only [h.manifest]
  refine (Prog.evaluate_read_bind rfl).trans ?_
  simp only [hfound]
  refine (Prog.evaluate_bind_of_ok (evaluate_missingDeliveryFormats _ _ _ s)).trans ?_
  exact Prog.evaluate_bind_of_ok
    (Prog.evaluate_atomically rfl (markSucceeded_eq_withSucceeded hjobs h.found h.unfinished))

end retry

/-! ## What a Retry Leaves -/

/-- The encode job of a format is there, and its message on the broker. -/
def EncodeCreated (job : ProcessingJob) (audiobookId : Id) (queue : List Envelope)
    (format : DeliveryFormat) (new : ProcessingJob) : Prop :=
  new = { encodeJob new.id job audiobookId format with queued := true } ∧
    encodeEnvelope new.id audiobookId format ∈ queue

/-- The audiobook was resumed: the job succeeded, the new jobs encode exactly the missing formats,
one each, and the audiobooks and renditions are as they were. -/
structure Resumed (job : ProcessingJob) (existing : Audiobook) (missing : List DeliveryFormat)
    (s : Store) (result : Except Fault Unit × Store) : Prop where
  returned : result.1 = .ok ()
  audiobooks : result.2.audiobooks = s.audiobooks
  renditions : result.2.audiobookRenditions = s.audiobookRenditions
  jobs : ∃ new, result.2.processingJobs = (withSucceeded job.id s).processingJobs ++ new ∧
    List.Forall₂ (EncodeCreated job existing.id result.2.queue) missing new

section resumed

variable {computeManifestHash : List (Id × Hash) → Hash} {d : Delivery} {job : ProcessingJob}
  {existing : Audiobook} {chapters : List OrderedChapterAudio} {s : Store}

theorem foldl_withEncodeJob (job : ProcessingJob) (audiobookId : Id)
    (formats : List DeliveryFormat) (s : Store) :
    ∃ new queue, formats.foldl (withEncodeJob job audiobookId) s =
        { s with
          nextId := s.nextId + formats.length
          processingJobs := s.processingJobs ++ new
          queue := s.queue ++ queue } ∧
      List.Forall₂ (EncodeCreated job audiobookId queue) formats new := by
  induction formats generalizing s with
  | nil => exact ⟨[], [], by simp, .nil⟩
  | cons format formats ih =>
    obtain ⟨new, queue, hfold, hnew⟩ := ih (withEncodeJob job audiobookId s format)
    refine ⟨{ encodeJob s.nextId job audiobookId format with queued := true } :: new,
      encodeEnvelope s.nextId audiobookId format :: queue, ?_, .cons ⟨rfl, by simp [encodeJob]⟩ ?_⟩
    · rw [List.foldl_cons, hfold]
      simp only [withEncodeJob, List.append_assoc, List.singleton_append, List.length_cons]
      rw [Nat.add_right_comm, Nat.add_assoc]
    · exact hnew.imp fun _ _ hcreated => ⟨hcreated.1, List.mem_cons_of_mem _ hcreated.2⟩

theorem encodeKeyFree_withSucceeded_iff (hjobs : Db.processingJob.Holds s)
    (hfound : findJob job.id s = some job) (hopen : ¬ job.status.IsTerminal) (audiobookId : Id)
    (format : DeliveryFormat) :
    EncodeKeyFree audiobookId format (withSucceeded job.id s) ↔ EncodeKeyFree audiobookId format s := by
  have hkeys : (withSucceeded job.id s).processingJobs.filterMap
      ProcessingJob.activeIdempotencyKey =
        s.processingJobs.filterMap ProcessingJob.activeIdempotencyKey :=
    filterMap_updateWhere _ (activeIdempotencyKey_withSucceeded hjobs hfound hopen)
  have hiff : ∀ s : Store, EncodeKeyFree audiobookId format s ↔
      .encodeDeliveryFormat audiobookId format ∉
        s.processingJobs.filterMap ProcessingJob.activeIdempotencyKey := fun s => by
    simp [EncodeKeyFree, List.mem_filterMap]
  rw [hiff, hiff, hkeys]

theorem resumed_iff_of_resumable (h : PackagingRetry computeManifestHash d job existing chapters s)
    (hjobs : Db.processingJob.Holds s) (hids : IssuedIds s) {formats : List DeliveryFormat}
    (hformats : formats ≠ []) (hresumable : existing.Resumable) :
    Resumed job existing (missingFormats existing.id chapters.length formats s) s
        ((processAssembleAudiobookJob computeManifestHash formats d).evaluate (fun _ => none) s) ↔
      (missingFormats existing.id chapters.length formats s).Nodup ∧
        ∀ format ∈ missingFormats existing.id chapters.length formats s,
          EncodeKeyFree existing.id format s := by
  have hfound := (findUnchangedAudiobook_eq_some_iff h.newest).mpr hresumable
  have haccepts : Db.processingJob.Holds (withSucceeded job.id s) :=
    (updateJob_eq_ok_iff.mp (markSucceeded_eq_withSucceeded hjobs h.found h.unfinished)).2.1
  have hrows : (withSucceeded job.id s).processingJobs.map ProcessingJob.id =
      s.processingJobs.map ProcessingJob.id := by
    refine map_updateWhere ProcessingJob.id (fun row => ?_) s.processingJobs
    rfl
  have hparent : job.id ∈ (withSucceeded job.id s).processingJobs.map ProcessingJob.id := by
    rw [hrows]
    exact List.mem_map_of_mem (List.mem_of_find?_eq_some h.found)
  have hissued : IssuedIds (withSucceeded job.id s) :=
    ⟨forall_mem_updateWhere hids.jobs fun row hrow _ => hids.jobs row hrow, hids.queue⟩
  have hloop : ∀ s', (enqueueEncodeJobs job existing.id
      (missingFormats existing.id chapters.length formats s)).evaluate (fun _ => none)
        (withSucceeded job.id s) = (.ok (), s') ↔ _ :=
    evaluate_enqueueEncodeJobs_iff haccepts hparent hissued
      (missingFormats existing.id chapters.length formats s)
  simp only [encodeKeyFree_withSucceeded_iff hjobs h.found h.unfinished] at hloop
  rw [evaluate_of_found h hjobs hformats hfound]
  constructor
  · intro hresumed
    exact ((hloop _).mp (Prod.ext hresumed.returned rfl)).1
  · intro hfree
    rw [(hloop _).mpr ⟨hfree, rfl⟩]
    obtain ⟨new, queue, hfold, hnew⟩ := foldl_withEncodeJob job existing.id
      (missingFormats existing.id chapters.length formats s) (withSucceeded job.id s)
    rw [hfold]
    refine ⟨rfl, rfl, rfl, new, rfl, hnew.imp fun _ _ hcreated => ⟨hcreated.1, ?_⟩⟩
    exact List.mem_append_right _ hcreated.2

end resumed

/-! ## Histories -/

section histories

variable (bookVersionId : Id) (chapterManifestHash : Hash)

/-- The access does not make an audiobook of the manifest `FAILED`. -/
def Access.SparesManifest : Access → Store → Prop
  | failEncode jobId seen errorCode audiobookId format existing newId true, s =>
      Prog.Commits (failEncode jobId seen errorCode audiobookId format existing newId true).tx s →
        ∀ a ∈ s.audiobooks, a.id = audiobookId → a.bookVersionId = bookVersionId →
          a.chapterManifestHash ≠ chapterManifestHash
  | _, _ => True

/-- Every audiobook of the manifest is resumable. -/
def ManifestResumable (s : Store) : Prop :=
  ∀ a ∈ s.audiobooks, a.bookVersionId = bookVersionId →
    a.chapterManifestHash = chapterManifestHash → a.Resumable

variable {bookVersionId chapterManifestHash}

theorem manifestResumable_withStatus {status : AudiobookStatus}
    (hstatus : status ∉ [.failed, .superseded]) {s s' : Store} {audiobookId : Id}
    (h : ManifestResumable bookVersionId chapterManifestHash s)
    (hs' : s'.audiobooks = withStatus audiobookId status s.audiobooks) :
    ManifestResumable bookVersionId chapterManifestHash s' := by
  intro a' ha' hversion hmanifest
  rw [hs'] at ha'
  rcases mem_updateWhere.mp ha' with ⟨a, -, -, rfl⟩ | ⟨ha, -⟩
  · exact hstatus
  · exact h a' ha hversion hmanifest

theorem spares_of_sound (a : Access) (w : Store → Store) (h : a.Sound w) :
    (Contract.keeps (Access.SparesManifest bookVersionId chapterManifestHash)
      (ManifestResumable bookVersionId chapterManifestHash)).Allows a w := by
  obtain ⟨hchecked, rfl | rfl⟩ := h
  · exact Contract.allows_id _ a
  refine Contract.allows_commit _ fun s u s' hadm htx hs => ?_
  have hsame : s'.audiobooks = s.audiobooks →
      ManifestResumable bookVersionId chapterManifestHash s' := fun heq a ha => by
    rw [heq] at ha
    exact hs a ha
  by_cases hproduct : a.WritesProduct
  · cases a with
    | persistAudiobook jobId audiobook =>
      obtain ⟨-, -, jobs, rfl⟩ := persistAudiobook_eq_ok htx
      intro a' ha' hversion hmanifest
      rcases List.mem_append.mp ha' with ha' | ha'
      · rcases mem_updateWhere.mp ha' with ⟨a, ha, -, rfl⟩ | ⟨ha, -⟩
        · exact hs a ha hversion hmanifest
        · exact hs a' ha hversion hmanifest
      · obtain rfl := List.mem_singleton.mp ha'
        rw [Audiobook.Resumable, hchecked.1]
        decide
    | updateRendition renditionId rendition =>
      obtain ⟨-, rfl⟩ := (Table.update_eq_ok_iff (ε := Fault) _).mp htx
      exact hsame rfl
    | createRendition rendition =>
      obtain ⟨-, rfl⟩ := (Table.insert_eq_ok_iff (ε := Fault) _).mp htx
      exact hsame rfl
    | failEncode jobId seen errorCode audiobookId format existing newId failAudiobook =>
      have hcommits : Prog.Commits (Access.failEncode jobId seen errorCode audiobookId format
          existing newId failAudiobook).tx s := ⟨u, s', htx⟩
      obtain ⟨-, jobs, rfl⟩ := failEncode_eq_ok htx
      cases failAudiobook with
      | false => exact hsame rfl
      | true =>
        -- The audiobook that fails is of another manifest.
        intro a' ha' hversion hmanifest
        rcases mem_updateWhere.mp ha' with ⟨a, ha, hid, rfl⟩ | ⟨ha, -⟩
        · exact absurd hmanifest (hadm hcommits a ha (of_decide_eq_true hid) hversion)
        · exact hs a' ha hversion hmanifest
    | publish audiobookId bookId =>
      obtain rfl := publishAudiobook_eq_ok htx
      exact manifestResumable_withStatus (by decide) hs rfl
    | _ => exact absurd hproduct not_false
  · exact hsame (tx_products hproduct s u s' htx).audiobooks

/-- In every run of the assembly system in which no failure makes an audiobook of the manifest
`FAILED`, a retry resumes the newest audiobook of the manifest exactly when the keys of the
missing formats are free and no missing format is requested twice. -/
theorem resumed_iff {computeManifestHash : List (Id × Hash) → Hash}
    {c : Config Store Access Fault} {d : Delivery} {job : ProcessingJob} {existing : Audiobook}
    {chapters : List OrderedChapterAudio}
    (hrun : (assemblySystem computeManifestHash).Reachable
      (Access.SparesManifest existing.bookVersionId existing.chapterManifestHash) c)
    (hretry : PackagingRetry computeManifestHash d job existing chapters c.store)
    (hjobs : Db.processingJob.Holds c.store) (hids : IssuedIds c.store)
    {formats : List DeliveryFormat} (hformats : formats ≠ []) :
    Resumed job existing (missingFormats existing.id chapters.length formats c.store) c.store
        ((processAssembleAudiobookJob computeManifestHash formats d).evaluate (fun _ => none)
          c.store) ↔
      (missingFormats existing.id chapters.length formats c.store).Nodup ∧
        ∀ format ∈ missingFormats existing.id chapters.length formats c.store,
          EncodeKeyFree existing.id format c.store := by
  have hrespects : (assemblySystem computeManifestHash).Respects
      (Contract.keeps (Access.SparesManifest existing.bookVersionId existing.chapterManifestHash)
        (ManifestResumable existing.bookVersionId existing.chapterManifestHash)) :=
    respects_of_sound spares_of_sound computeManifestHash
  obtain ⟨s₀, hinit, hevolves⟩ := hrespects.evolves_of_reachable hrun
  have hresumable : ManifestResumable existing.bookVersionId existing.chapterManifestHash c.store :=
    hevolves fun a ha => by
      rw [hinit.audiobooks] at ha
      cases ha
  exact resumed_iff_of_resumable hretry hjobs hids hformats
    (hresumable existing hretry.newest.mem rfl rfl)

end histories

/-! ## Retries for the Small Book -/

instance (s : Store) : Decidable (IssuedIds s) :=
  decidable_of_iff ((∀ job ∈ s.processingJobs, job.id < s.nextId) ∧ ∀ m ∈ s.queue, m.jobId < s.nextId)
    ⟨fun ⟨h₁, h₂⟩ => ⟨h₁, h₂⟩, fun ⟨h₁, h₂⟩ => ⟨h₁, h₂⟩⟩

instance (audiobookId : Id) (format : DeliveryFormat) (s : Store) :
    Decidable (EncodeKeyFree audiobookId format s) :=
  inferInstanceAs (Decidable (∀ job ∈ s.processingJobs, _))

instance (bookVersionId : Id) (chapterManifestHash : Hash) (a : Access) (s : Store) :
    Decidable (a.SparesManifest bookVersionId chapterManifestHash s) := by
  unfold Access.SparesManifest
  split <;> infer_instance

/-- A packaging retry of the only audiobook that satisfies `P` is possible in the store. -/
def HasRetry (d : Delivery)
    (P : ProcessingJob → Audiobook → List OrderedChapterAudio → Store → Prop) (s : Store) : Prop :=
  Db.processingJob.Holds s ∧ IssuedIds s ∧ s.audiobooks.length = 1 ∧
    ∃ job ∈ findJob d.envelope.jobId s, ∃ existing ∈ s.audiobooks,
      ∃ chapters ∈ orderedChapterAudios (chaptersWithAudio existing.bookVersionId s),
        d.envelope.entityId = some d.envelope.jobId ∧ ¬ job.status.IsTerminal ∧
          (∃ bookId ∈ job.bookId, ∃ book ∈ findBook bookId s,
            book.currentBookVersionId = some existing.bookVersionId) ∧
          chapters.length ≠ 0 ∧ (chapterDirectorVersions chapters).length ≤ 1 ∧
          polynomialDigest (chapterManifest chapters) = existing.chapterManifestHash ∧
          P job existing chapters s

instance (d : Delivery) (P : ProcessingJob → Audiobook → List OrderedChapterAudio → Store → Prop)
    [∀ job existing chapters s, Decidable (P job existing chapters s)] (s : Store) :
    Decidable (HasRetry d P s) := by
  unfold HasRetry
  infer_instance

theorem HasRetry.exists_retry {d : Delivery}
    {P : ProcessingJob → Audiobook → List OrderedChapterAudio → Store → Prop} {s : Store}
    (h : HasRetry d P s) : Db.processingJob.Holds s ∧ IssuedIds s ∧
      ∃ job existing chapters, PackagingRetry polynomialDigest d job existing chapters s ∧
        P job existing chapters s := by
  obtain ⟨hjobs, hids, hone, job, hjob, existing, hexisting, chapters, hchapters, hentity, hopen,
    ⟨bookId, hbookId, book, hbook, hversion⟩, hnonempty, hdirector, hmanifest, hP⟩ := h
  have hid := List.find?_some hjob
  have hid : job.id = d.envelope.jobId := of_decide_eq_true hid
  obtain ⟨a, ha⟩ := List.length_eq_one_iff.mp hone
  refine ⟨hjobs, hids, job, existing, chapters, {
    entity := hid ▸ hentity
    found := hid ▸ hjob
    unfinished := hopen
    book := ⟨bookId, book, hbookId, hbook, hversion⟩
    ordered := hchapters
    nonempty := fun h => hnonempty (by simp [h])
    directorVersion := hdirector
    manifest := hmanifest
    newest := ⟨hexisting, fun a' ha' _ _ hne => ?_⟩ }, hP⟩
  rw [ha, List.mem_singleton] at hexisting ha'
  exact absurd (ha'.trans hexisting.symm) hne

/-- The audiobook of the small book (103) is mastered for one format, and requested in another
one. -/
def requestedInM4a : List (Move AssemblyRequest Fault) :=
  audiobookAssembled [.m4b] 21 ++ alone 3 11 (requestAudiobook [.m4a])

/-- The audiobook of the small book lacks the other format, which nobody has asked for before. -/
abbrev LacksM4a (_ : ProcessingJob) (existing : Audiobook) (chapters : List OrderedChapterAudio)
    (s : Store) : Prop :=
  existing.bookVersionId = 2 ∧ existing.chapterManifestHash = polynomialDigest [(101, 77)] ∧
    missingFormats existing.id chapters.length [.m4a] s = [.m4a] ∧
    EncodeKeyFree existing.id .m4a s

/-- The retry resumes the audiobook for the new format. -/
theorem resumed_iff_otherFormat :
    ∃ c : Config Store Access Fault, ∃ job existing,
      (assemblySystem polynomialDigest).Reachable
        (Access.SparesManifest 2 (polynomialDigest [(101, 77)])) c ∧
      Resumed job existing [.m4a] c.store
        ((processAssembleAudiobookJob polynomialDigest [.m4a]
          ⟨audiobookEnvelope 105 1 [.m4a], 0, 80⟩).evaluate (fun _ => none) c.store) := by
  have hplay : ((assemblySystem polynomialDigest).playAll
      (Access.SparesManifest 2 (polynomialDigest [(101, 77)])) ⟨narratedBook, []⟩
      requestedInM4a).map (fun c => decide
        (HasRetry ⟨audiobookEnvelope 105 1 [.m4a], 0, 80⟩ LacksM4a c.store)) = some true := by
    decide +kernel
  obtain ⟨c, hrun, hretry⟩ := System.exists_run_of_playAll
    (f := fun s => decide (HasRetry ⟨audiobookEnvelope 105 1 [.m4a], 0, 80⟩ LacksM4a s)) hplay
  obtain ⟨hjobs, hids, job, existing, chapters, hretry, hversion, hmanifest, hmissing, hfree⟩ :=
    HasRetry.exists_retry (of_decide_eq_true hretry)
  have hc : (assemblySystem polynomialDigest).Reachable
      (Access.SparesManifest 2 (polynomialDigest [(101, 77)])) c :=
    ⟨narratedBook, nothingAssembled_narratedBook, hrun⟩
  refine ⟨c, job, existing, hc, ?_⟩
  have hresumed := resumed_iff (by rwa [hversion, hmanifest]) hretry hjobs hids
    (List.cons_ne_nil .m4a [])
  rw [hmissing] at hresumed
  exact hresumed.mpr ⟨by simp, by simpa using hfree⟩

/-- Encoding the audiobook of the small book fails for good, and then it is requested again. -/
def requestedAfterFailure : List (Move AssemblyRequest Fault) :=
  audiobookAssembled [.m4b] 21 ++
    .spawn (.deliver ⟨encodeEnvelope 104 103 .m4b, 2, 79⟩) :: List.replicate 6 (.proceed 3) ++
    .refuse 3 .uncoded :: List.replicate 5 (.proceed 3) ++
    alone 4 11 (requestAudiobook [.m4b])

def secondRequest : Delivery := ⟨audiobookEnvelope 106 1 [.m4b], 0, 80⟩

/-- The second request makes another audiobook. -/
abbrev MakesAudiobook (_ : ProcessingJob) (_ : Audiobook) (_ : List OrderedChapterAudio)
    (s : Store) : Prop :=
  ((processAssembleAudiobookJob polynomialDigest [.m4b] secondRequest).evaluate
    (fun _ => none) s).2.audiobooks.length ≠ s.audiobooks.length

/-- It is not so that a later job always resumes the audiobook of an unchanged manifest: after the
failure it concatenates the chapters again. -/
theorem not_forall_resumed :
    ¬ ∀ (computeManifestHash : List (Id × Hash) → Hash) (c : Config Store Access Fault)
        (d : Delivery) (job : ProcessingJob) (existing : Audiobook)
        (chapters : List OrderedChapterAudio) (formats : List DeliveryFormat),
        (assemblySystem computeManifestHash).Reachable anyAccess c →
        PackagingRetry computeManifestHash d job existing chapters c.store →
        Db.processingJob.Holds c.store → IssuedIds c.store → formats ≠ [] →
        Resumed job existing (missingFormats existing.id chapters.length formats c.store) c.store
          ((processAssembleAudiobookJob computeManifestHash formats d).evaluate (fun _ => none)
            c.store) := by
  intro hclaim
  have hplay : ((assemblySystem polynomialDigest).playAll anyAccess ⟨narratedBook, []⟩
      requestedAfterFailure).map (fun c => decide (HasRetry secondRequest MakesAudiobook c.store)) =
        some true := by
    decide +kernel
  obtain ⟨c, hrun, hretry⟩ := System.exists_run_of_playAll
    (f := fun s => decide (HasRetry secondRequest MakesAudiobook s)) hplay
  obtain ⟨hjobs, hids, job, existing, chapters, hretry, hchanged⟩ :=
    HasRetry.exists_retry (of_decide_eq_true hretry)
  have hresumed := hclaim polynomialDigest c secondRequest job existing chapters [.m4b]
    ⟨narratedBook, nothingAssembled_narratedBook, hrun⟩ hretry hjobs hids (by simp)
  exact hchanged (congrArg List.length hresumed.audiobooks)

end AudioBook
