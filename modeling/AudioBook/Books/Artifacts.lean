import AudioBook.Books.Lifecycle

/-!
# The Writers of Artifacts

What runs next to a purge and a retention sweep: the workers and endpoints that put an object into
the object store and, in a second step, store the row that refers to it, and the gate that makes an
audiobook `READY`.

Main results:

- `transactional_artifactProgram`: all programs are such programs.
-/

namespace AudioBook.Books

open Relational Concurrent

/-! ## Writers -/

/-- Put objects into the object store, one after the other. -/
def putObjects : List StorageKey → BookProg Unit
  | [] => pure ()
  | key :: keys => do
      run (.putObject key)
      putObjects keys

/-- Upload the objects of an artifact, and then store its row in a transaction. -/
def uploadAndStore (artifact : Publication) : BookProg Unit := do
  putObjects artifact.objectKeys
  run (.publish artifact)

/-- `completeUploadSession`: the file that a client uploaded. -/
def completeUploadSession (row : BookRow .bookFile) : BookProg Unit :=
  uploadAndStore (.bookFile row)

/-- `persistIngestionResult`, where the book has no version with the same content yet. -/
def persistIngestionResult (row : BookRow .bookVersion) : BookProg Unit :=
  uploadAndStore (.bookVersion row)

/-- `handle_generate_tts_chunk`, from the upload of the audio on. -/
def storeAudioChunk (row : BookRow .audioChunk) : BookProg Unit :=
  uploadAndStore (.audioChunk row)

/-- `processAssembleChapterJob`, from the upload of the master on. -/
def storeChapterAudio (row : BookRow .chapterAudio) : BookProg Unit :=
  uploadAndStore (.chapterAudio row)

/-- `processAssembleAudiobookJob`, from the upload of the master on. -/
def storeAudiobook (audiobookId bookId : Id) (containerFormat : DeliveryFormat)
    (storageKey : StorageKey) : BookProg Unit :=
  uploadAndStore (.audiobook audiobookId bookId containerFormat storageKey)

/-- `encodeSingleFileFormat`, and one chapter of `encodeMp3PerChapter`, from the upload on. -/
def storeRendition (row : BookRow .audiobookRendition) : BookProg Unit :=
  uploadAndStore (.rendition row)

/-! ## The Publication Gate -/

/-- `isFormatFullyReady`; which packaging policy a rendition was made under is left out. -/
def isFormatFullyReady (audiobookId : Id) (chapterCount : ℕ) (s : BookStore)
    (format : DeliveryFormat) : Bool :=
  let ready := (s.rows .audiobookRendition).filter fun row =>
    let data : RenditionData := row.data
    decide (data.audiobookId = audiobookId ∧ data.format = format ∧ data.status = .ready)
  if format = .mp3PerChapter then decide (ready.length = chapterCount) else !ready.isEmpty

/-- Whether each of some formats is ready, asked one after the other. -/
def allFormatsFullyReady (audiobookId : Id) (chapterCount : ℕ) :
    List DeliveryFormat → BookProg Bool
  | [] => return true
  | format :: formats => do
      let ready ← query fun s => isFormatFullyReady audiobookId chapterCount s format
      let rest ← allFormatsFullyReady audiobookId chapterCount formats
      return ready && rest

def findAudiobookStatus (audiobookId : Id) (s : BookStore) : Option AudiobookStatus :=
  ((s.rows .audiobook).find? fun row => decide (row.id = audiobookId)).map fun row =>
    (row.data : AudiobookData).status

/-- `maybePublishAudiobook`, for the formats that were requested. -/
def maybePublishAudiobook (audiobookId : Id) (chapterCount : ℕ)
    (requestedFormats : List DeliveryFormat) : BookProg Unit := do
  if requestedFormats = [] then return else
  let ready ← allFormatsFullyReady audiobookId chapterCount requestedFormats
  if ¬ ready then return else
  match ← query (findAudiobookStatus audiobookId) with
  | none => return
  | some status =>
  if status = .ready then return else
  run (.publishAudiobook audiobookId)

/-! ## Requests -/

/-- What can happen to the objects of books. -/
inductive ArtifactRequest
  | lifecycle (request : LifecycleRequest)
  | runRetentionSweep (orphanCutoff chunkCutoff : ℕ)
  | completeUploadSession (row : BookRow .bookFile)
  | persistIngestionResult (row : BookRow .bookVersion)
  | storeAudioChunk (row : BookRow .audioChunk)
  | storeChapterAudio (row : BookRow .chapterAudio)
  | storeAudiobook (audiobookId bookId : Id) (containerFormat : DeliveryFormat)
      (storageKey : StorageKey)
  | storeRendition (row : BookRow .audiobookRendition)
  | maybePublishAudiobook (audiobookId : Id) (chapterCount : ℕ)
      (requestedFormats : List DeliveryFormat)

def artifactProgram : ArtifactRequest → BookProg Unit
  | .lifecycle request => lifecycleProgram request
  | .runRetentionSweep orphanCutoff chunkCutoff => Books.runRetentionSweep orphanCutoff chunkCutoff
  | .completeUploadSession row => Books.completeUploadSession row
  | .persistIngestionResult row => Books.persistIngestionResult row
  | .storeAudioChunk row => Books.storeAudioChunk row
  | .storeChapterAudio row => Books.storeChapterAudio row
  | .storeAudiobook audiobookId bookId containerFormat storageKey =>
      Books.storeAudiobook audiobookId bookId containerFormat storageKey
  | .storeRendition row => Books.storeRendition row
  | .maybePublishAudiobook audiobookId chapterCount requestedFormats =>
      Books.maybePublishAudiobook audiobookId chapterCount requestedFormats

/-- Messages are delivered once they are on the queue; everything else can happen at any time. -/
def ArtifactRequest.Enabled : ArtifactRequest → BookStore → Prop
  | .lifecycle request, s => request.Enabled s
  | _, _ => True

instance ArtifactRequest.decidableEnabled (r : ArtifactRequest) (s : BookStore) :
    Decidable (r.Enabled s) := by
  cases r with
  | lifecycle request => exact inferInstanceAs (Decidable (request.Enabled s))
  | _ => exact isTrue trivial

/-! ## Transactional Programs -/

/-- Every access of the program is a query or runs the transaction of its label. -/
def Transactional {α : Type} (p : BookProg α) : Prop :=
  p.Always fun l w => w = id ∨ w = Prog.commit l.transaction

section transactional

variable {α β : Type}

theorem transactional_pure (a : α) : Transactional (pure a : BookProg α) := trivial

theorem transactional_throw (e : BookError) : Transactional (throw e : BookProg α) := trivial

theorem transactional_query (f : BookStore → α) : Transactional (query f) :=
  Prog.always_read (.inl rfl)

theorem transactional_run (a : BookAccess) : Transactional (run a) :=
  Prog.always_atomically (.inr rfl)

theorem Transactional.bind {p : BookProg α} {f : α → BookProg β} (hp : Transactional p)
    (hf : ∀ a, Transactional (f a)) : Transactional (p >>= f) :=
  Prog.always_bind hp hf

theorem Transactional.tryCatch {p : BookProg α} {handler : BookError → BookProg α}
    (hp : Transactional p) (hh : ∀ e, Transactional (handler e)) :
    Transactional (tryCatchThe BookError p handler) :=
  Prog.always_tryCatch hp hh

theorem Transactional.ite {c : Prop} [Decidable c] {p q : BookProg α} (hp : Transactional p)
    (hq : Transactional q) : Transactional (if c then p else q) := by
  split
  · exact hp
  · exact hq

theorem transactional_createPurge (bookId tenantId : Id) :
    Transactional (Prog.atomically (.createPurge bookId tenantId) (createPurge bookId tenantId)) := by
  refine Prog.always_atomically (.inr ?_)
  funext s
  show _ = Prog.commit (createPurge bookId tenantId >>= fun _ => pure ()) s
  cases h : createPurge bookId tenantId s with
  | ok p =>
    rw [Prog.commit_of_ok h, Prog.commit_of_ok (Transaction.bind_eq_of_ok h)]
  | error e =>
    rw [Prog.commit_of_error h, Prog.commit_of_error (Transaction.bind_eq_error h)]

end transactional

/-! ## The Programs of the Lifecycle -/

theorem transactional_bookPurgeGuard (bookId : Id) : Transactional (bookPurgeGuard bookId) := by
  refine (transactional_query _).bind fun purged => ?_
  exact Transactional.ite (transactional_throw _) (transactional_pure _)

variable (principal : Principal)

theorem transactional_requireTenantOwner : Transactional (requireTenantOwner principal) :=
  Transactional.ite (transactional_pure _) (transactional_throw _)

theorem transactional_requireOwnedBook (bookId : Id) :
    Transactional (requireOwnedBook principal bookId) := by
  refine (transactional_query _).bind fun b => ?_
  cases b with
  | none => exact transactional_throw _
  | some b => exact transactional_pure b

theorem transactional_deleteBook (bookId : Id) : Transactional (deleteBook principal bookId) := by
  refine (transactional_bookPurgeGuard bookId).bind fun _ => ?_
  refine (transactional_requireOwnedBook principal bookId).bind fun b => ?_
  refine Transactional.ite (transactional_pure _) ?_
  refine (transactional_query _).bind fun activeJobs => ?_
  exact Transactional.ite (transactional_throw _) (transactional_run _)

theorem transactional_restoreBook (bookId : Id) : Transactional (restoreBook principal bookId) := by
  refine (transactional_bookPurgeGuard bookId).bind fun _ => ?_
  refine (transactional_requireTenantOwner principal).bind fun _ => ?_
  refine (transactional_requireOwnedBook principal bookId).bind fun b => ?_
  exact Transactional.ite (transactional_throw _) (transactional_run _)

theorem transactional_enqueueProcessingJob (message : PurgeMessage) :
    Transactional (enqueueProcessingJob message) :=
  (transactional_run _).bind fun _ => transactional_run _

theorem transactional_purgeBook (bookId confirmBookId : Id) :
    Transactional (purgeBook principal bookId confirmBookId) := by
  refine (transactional_bookPurgeGuard bookId).bind fun _ => ?_
  refine (transactional_requireTenantOwner principal).bind fun _ => ?_
  refine Transactional.ite (transactional_throw _) ?_
  refine (transactional_requireOwnedBook principal bookId).bind fun b => ?_
  refine Transactional.ite (transactional_throw _) ?_
  refine (transactional_query _).bind fun activeJobs => ?_
  refine Transactional.ite (transactional_throw _) ?_
  exact (transactional_createPurge bookId _).bind fun jobId => transactional_enqueueProcessingJob _

theorem transactional_resend (messages : List PurgeMessage) : Transactional (resend messages) := by
  induction messages with
  | nil => exact transactional_pure _
  | cons message messages ih =>
    exact ((transactional_enqueueProcessingJob message).tryCatch fun _ => transactional_pure _).bind
      fun _ => ih

/-! ## The Programs of the Maintenance Worker -/

theorem transactional_deleteObjects (keys : List StorageKey) :
    Transactional (deleteObjects keys) := by
  induction keys with
  | nil => exact transactional_pure _
  | cons key keys ih =>
    exact ((transactional_run _).tryCatch fun _ => transactional_pure _).bind fun _ => ih

theorem transactional_purgeArtifactTable (t : BookTable) (bookId : Id) :
    Transactional (purgeArtifactTable t bookId) :=
  (transactional_query _).bind fun _ => (transactional_deleteObjects _).bind fun _ =>
    transactional_run _

theorem transactional_deleteManyByBookIdAll (ts : List BookTable) (bookId : Id) :
    Transactional (deleteManyByBookIdAll ts bookId) := by
  induction ts with
  | nil => exact transactional_pure _
  | cons t ts ih => exact (transactional_run _).bind fun _ => ih

theorem transactional_purgeVersions (profiles : List (BookRow .voiceProfile)) :
    Transactional (purgeVersions profiles) := by
  induction profiles with
  | nil => exact transactional_pure _
  | cons profile profiles ih =>
    refine (transactional_query _).bind fun versions => ?_
    exact (transactional_deleteObjects _).bind fun _ => (transactional_run _).bind fun _ => ih

theorem transactional_purgeBookScopedVoiceProfiles (bookId : Id) :
    Transactional (purgeBookScopedVoiceProfiles bookId) :=
  (transactional_query _).bind fun profiles =>
    (transactional_purgeVersions profiles).bind fun _ => transactional_run _

theorem transactional_purgeFileObjects (bookId : Id) (files : List (BookRow .bookFile)) :
    Transactional (purgeFileObjects bookId files) := by
  induction files with
  | nil => exact transactional_pure _
  | cons file files ih =>
    have hrest : ∀ freed : ℕ, Transactional (do
        let rest ← purgeFileObjects bookId files
        return freed + rest) := fun freed => ih.bind fun rest => transactional_pure _
    refine (transactional_query _).bind fun shared => ?_
    cases shared with
    | true => exact hrest 0
    | false => exact (transactional_deleteObjects _).bind fun _ => hrest _

theorem transactional_purgeBookFiles (bookId : Id) : Transactional (purgeBookFiles bookId) := by
  refine (transactional_query _).bind fun files => ?_
  refine (transactional_purgeFileObjects bookId files).bind fun freedBytes => ?_
  refine (transactional_run _).bind fun _ => ?_
  exact Transactional.ite ((transactional_run _).tryCatch fun _ => transactional_pure _)
    (transactional_pure _)

theorem transactional_purgeJobsAndAttempts (bookId purgeJobId : Id) :
    Transactional (purgeJobsAndAttempts bookId purgeJobId) := by
  refine (transactional_run _).bind fun _ => (transactional_query _).bind fun jobIds => ?_
  exact Transactional.ite (transactional_pure _)
    ((transactional_run _).bind fun _ => transactional_run _)

theorem transactional_purgeArtifacts (bookId : Id) : Transactional (purgeArtifacts bookId) := by
  refine (transactional_purgeArtifactTable _ bookId).bind fun _ => ?_
  refine (transactional_purgeArtifactTable _ bookId).bind fun _ => ?_
  refine (transactional_run _).bind fun _ => ?_
  refine (transactional_purgeArtifactTable _ bookId).bind fun _ => ?_
  refine (transactional_run _).bind fun _ => ?_
  refine (transactional_purgeArtifactTable _ bookId).bind fun _ => ?_
  refine (transactional_purgeArtifactTable _ bookId).bind fun _ => ?_
  refine (transactional_deleteManyByBookIdAll _ bookId).bind fun _ => ?_
  refine (transactional_purgeArtifactTable _ bookId).bind fun _ => ?_
  refine (transactional_run _).bind fun _ => ?_
  refine (transactional_purgeBookScopedVoiceProfiles bookId).bind fun _ => ?_
  refine (transactional_deleteManyByBookIdAll _ bookId).bind fun _ => ?_
  refine (transactional_purgeArtifactTable _ bookId).bind fun _ => ?_
  exact transactional_purgeBookFiles bookId

theorem transactional_purgeSteps (purgeJobId bookId : Id) :
    Transactional (purgeSteps purgeJobId bookId) := by
  refine (transactional_purgeArtifacts bookId).bind fun _ => ?_
  refine (transactional_purgeJobsAndAttempts bookId purgeJobId).bind fun _ => ?_
  refine (transactional_run _).bind fun _ => (transactional_run _).bind fun _ => ?_
  exact (transactional_run _).bind fun _ => transactional_run _

theorem transactional_runPurgeBook (purgeJobId bookId : Id) :
    Transactional (runPurgeBook purgeJobId bookId) := by
  refine (transactional_query _).bind fun job => ?_
  cases job with
  | none => exact transactional_pure _
  | some job =>
    refine Transactional.ite (transactional_pure _) ((transactional_run _).bind fun _ => ?_)
    refine (transactional_purgeSteps purgeJobId bookId).tryCatch fun err => ?_
    exact (transactional_run _).bind fun _ => transactional_throw err

theorem transactional_runRetentionSweep (orphanCutoff chunkCutoff : ℕ) :
    Transactional (runRetentionSweep orphanCutoff chunkCutoff) := by
  -- What follows the first optional access.
  have hrest : Transactional (do
      let eligibleBooks ← query findEligibleBooks
      let supersededChunks ← query (findSupersededChunks eligibleBooks chunkCutoff)
      deleteObjects (supersededChunks.flatMap BookRow.objectKeys)
      if ¬ supersededChunks.isEmpty then
        run (.expireAudioChunks (supersededChunks.map BookRow.id))) := by
    refine (transactional_query _).bind fun eligibleBooks => ?_
    refine (transactional_query _).bind fun supersededChunks => ?_
    refine (transactional_deleteObjects _).bind fun _ => ?_
    exact Transactional.ite (transactional_run _) (transactional_pure _)
  refine (transactional_query _).bind fun orphanedFiles => ?_
  refine (transactional_deleteObjects _).bind fun _ => ?_
  exact Transactional.ite ((transactional_run _).bind fun _ => hrest) hrest

theorem transactional_lifecycleProgram (request : LifecycleRequest) :
    Transactional (lifecycleProgram request) := by
  cases request with
  | deleteBook principal bookId => exact transactional_deleteBook principal bookId
  | restoreBook principal bookId => exact transactional_restoreBook principal bookId
  | purgeBook principal bookId confirmBookId =>
    exact transactional_purgeBook principal bookId confirmBookId
  | pollOnce => exact (transactional_query _).bind fun messages => transactional_resend messages
  | deliver message => exact transactional_runPurgeBook message.jobId message.bookId

/-! ## The Programs of the Writers -/

theorem transactional_putObjects (keys : List StorageKey) : Transactional (putObjects keys) := by
  induction keys with
  | nil => exact transactional_pure _
  | cons key keys ih => exact (transactional_run _).bind fun _ => ih

theorem transactional_uploadAndStore (artifact : Publication) :
    Transactional (uploadAndStore artifact) :=
  (transactional_putObjects _).bind fun _ => transactional_run _

theorem transactional_allFormatsFullyReady (audiobookId : Id) (chapterCount : ℕ)
    (formats : List DeliveryFormat) :
    Transactional (allFormatsFullyReady audiobookId chapterCount formats) := by
  induction formats with
  | nil => exact transactional_pure _
  | cons format formats ih =>
    exact (transactional_query _).bind fun _ => ih.bind fun _ => transactional_pure _

theorem transactional_maybePublishAudiobook (audiobookId : Id) (chapterCount : ℕ)
    (requestedFormats : List DeliveryFormat) :
    Transactional (maybePublishAudiobook audiobookId chapterCount requestedFormats) := by
  refine Transactional.ite (transactional_pure _) ?_
  refine (transactional_allFormatsFullyReady audiobookId chapterCount _).bind fun ready => ?_
  refine Transactional.ite (transactional_pure _) ((transactional_query _).bind fun status => ?_)
  cases status with
  | none => exact transactional_pure _
  | some status => exact Transactional.ite (transactional_pure _) (transactional_run _)

theorem transactional_artifactProgram (request : ArtifactRequest) :
    Transactional (artifactProgram request) := by
  cases request with
  | lifecycle request => exact transactional_lifecycleProgram request
  | runRetentionSweep orphanCutoff chunkCutoff =>
    exact transactional_runRetentionSweep orphanCutoff chunkCutoff
  | maybePublishAudiobook audiobookId chapterCount requestedFormats =>
    exact transactional_maybePublishAudiobook audiobookId chapterCount requestedFormats
  | _ => exact transactional_uploadAndStore _

end AudioBook.Books
