import AudioBook.Concurrent.Uniform
import AudioBook.Relational.Table
import AudioBook.Schema.Rows

/-!
# Completing an Upload

`completeUploadSession` checks the uploaded object against what its session declares, looks for an
admitted file of the tenant with the same content, and inserts the `book_file`. The database keeps
`(tenant_id, content_hash)` unique among the admitted files without a
`deduplicated_from_book_file_id`.

- `UploadState`, `completeUploadSession`: the rows and objects, and the request as its accesses.
- `uploadSystem`: completions in any interleaving, while sessions, objects and books change.

## Main results

* `admitted_originals_unique`: in every interleaving there is at most one admitted original of a
  tenant and content.
* `completeUploadSession_admits_iff`: a valid upload with the consent to a duplicate is admitted
  exactly when there is none.
-/

namespace AudioBook.Uploads

open Relational Concurrent

/-! ## Format Detection -/

inductive BookSourceKind
  | pdf
  | epub
  | imageSet
  deriving DecidableEq, Repr

structure FormatDetectionResult where
  sourceKind : BookSourceKind
  sniffedMimeType : String
  declaredVsSniffedMatch : Bool
  deriving DecidableEq

/-- `PDF_MAGIC`, the bytes of `%PDF-`. -/
def pdfMagic : List UInt8 := [0x25, 0x50, 0x44, 0x46, 0x2d]

def imageMimeTypes : List String := ["image/jpeg", "image/png", "image/webp", "image/tiff"]

/-- What the service takes from libraries and from its configuration. -/
structure Ingestion where
  checksumBuffer : List UInt8 → Hash
  /-- `fileTypeFromBuffer` of the file-type package: the MIME type it recognizes. -/
  fileTypeFromBuffer : List UInt8 → Option String
  maxFileSizeBytes : ℕ

/-- `detectFormat(…).catch(() => null)`. -/
def detectFormat (ing : Ingestion) (buffer : List UInt8) (declaredMimeType : String) :
    Option FormatDetectionResult :=
  if buffer.length = 0 then none
  else if buffer.take 5 = pdfMagic then
    some ⟨.pdf, "application/pdf", declaredMimeType = "application/pdf"⟩
  else match ing.fileTypeFromBuffer buffer with
    | none => none
    | some mime =>
      if mime = "application/epub+zip" then some ⟨.epub, mime, declaredMimeType = mime⟩
      else if mime ∈ imageMimeTypes then some ⟨.imageSet, mime, declaredMimeType = mime⟩
      else if mime = "application/zip" ∧ declaredMimeType = "application/epub+zip" then
        some ⟨.epub, mime, false⟩
      else none

/-! ## Rows -/

inductive UploadSessionStatus
  | awaitingUpload
  | uploading
  | validating
  | admitted
  | rejected
  | expired
  deriving DecidableEq, Repr

structure UploadSessionRecord where
  id : Id
  tenantId : Id
  bookId : Id
  status : UploadSessionStatus := .awaitingUpload
  sourceKind : BookSourceKind
  fileName : String
  declaredMimeType : String
  declaredContentHash : Hash
  storageKey : String
  rejectionReasonCode : Option String := none
  bookFileId : Option Id := none
  deriving DecidableEq

inductive BookFileStatus
  | admitted
  | rejected
  | quarantined
  deriving DecidableEq, Repr

/-- The checks that `validation` records. -/
structure FileValidation where
  declaredVsSniffedMime : Bool
  sniffedMimeType : String
  sizeCheck : Bool
  checksumCheck : Bool
  deriving DecidableEq

structure BookFile where
  id : Id
  tenantId : Id
  bookId : Id
  sourceKind : BookSourceKind
  originalFileName : String
  mimeType : String
  sniffedMimeType : Option String
  sizeBytes : ℕ
  contentHash : Hash
  status : BookFileStatus
  validation : FileValidation
  storageKey : String
  storageBucket : String
  deduplicatedFromBookFileId : Option Id := none
  deriving DecidableEq

/-- `book`, the columns that a completion reads and writes. -/
structure UploadedBook where
  id : Id
  tenantId : Id
  uploaded : Bool := false
  deriving DecidableEq

/-- A `parse_book` row of `processing_job`; its idempotency key names the file. -/
structure ParseJob where
  id : Id
  tenantId : Id
  bookId : Id
  bookFileId : Id
  idempotencyFingerprint : Hash
  queued : Bool := false
  deriving DecidableEq

/-- `book.uploaded`. -/
structure BookUploaded where
  tenantId : Id
  bookId : Id
  jobId : Id
  bookFileId : Id
  sourceKind : BookSourceKind
  sizeBytes : ℕ
  contentHash : Hash
  deriving DecidableEq

/-- What the requests share: sessions in the cache, objects in the object store, rows, messages. -/
structure UploadState where
  sessions : List UploadSessionRecord := []
  objects : List (String × List UInt8) := []
  books : List UploadedBook := []
  bookFiles : List BookFile := []
  parseJobs : List ParseJob := []
  outbox : List BookUploaded := []
  queue : List Id := []
  /-- What `recordUsage` has counted of each tenant. -/
  storageBytes : List (Id × ℕ) := []
  /-- The next id that `generateId` hands out. -/
  nextId : Id := 0
  deriving DecidableEq

inductive UploadError
  | violation (v : Violation)
  | recordNotFound
  | notFound (message : String)
  | conflict (code message : String)
  | validation (code message : String)
  | unsupportedMediaType (code message : String)
  | objectNotFound
  | unavailable
  deriving DecidableEq, Repr

instance : OfViolation UploadError := ⟨UploadError.violation⟩

abbrev UploadTx := Transaction UploadState UploadError

/-- A request, as its accesses to the cache, the object store and the database. -/
abbrev UploadProg := Prog UploadState Unit UploadError

/-! ## Tables -/

/-- An admitted file that is no consented duplicate. -/
def BookFile.IsOriginal (tenantId : Id) (contentHash : Hash) (f : BookFile) : Prop :=
  f.tenantId = tenantId ∧ f.contentHash = contentHash ∧ f.status = .admitted ∧
    f.deduplicatedFromBookFileId = none

instance (tenantId : Id) (contentHash : Hash) (f : BookFile) :
    Decidable (f.IsOriginal tenantId contentHash) :=
  inferInstanceAs (Decidable (_ ∧ _ ∧ _ ∧ _))

/-- The key of `book_file_tenant_id_content_hash_admitted_key`. -/
def BookFile.admittedKey (f : BookFile) : Option (Id × Hash) :=
  if f.status = .admitted ∧ f.deduplicatedFromBookFileId = none then
    some (f.tenantId, f.contentHash)
  else none

/-- The table `book_file`. -/
def bookFile : Table UploadState BookFile where
  rows := UploadState.bookFiles
  setRows rows s := { s with bookFiles := rows }
  constraints := [.uniqueWhere fun f => some f.id, .uniqueWhere BookFile.admittedKey]

/-- The table `processing_job`; `(tenant_id, idempotency_key)` of a parse job is the tenant and the
file. -/
def processingJob : Table UploadState ParseJob where
  rows := UploadState.parseJobs
  setRows rows s := { s with parseJobs := rows }
  constraints := [.uniqueWhere fun job => some job.id,
    .uniqueWhere fun job => some (job.tenantId, job.bookFileId)]

/-! ## The Request -/

structure Principal where
  tenantId : Id

structure CompleteUploadSessionBody where
  observedSizeBytes : ℕ
  allowDuplicate : Bool := false

def UploadState.findSession (s : UploadState) (tenantId sessionId : Id) :
    Option UploadSessionRecord :=
  s.sessions.find? fun session => session.tenantId = tenantId ∧ session.id = sessionId

/-- The admitted original that a completion asks for. -/
def UploadState.findDuplicate (s : UploadState) (tenantId : Id) (contentHash : Hash) :
    Option BookFile :=
  s.bookFiles.find? fun f => f.IsOriginal tenantId contentHash

/-- `uploadSessions.update`: the whole record is written back. -/
def updateSession (session : UploadSessionRecord) : UploadProg Unit :=
  .access () (fun s => { s with
      sessions := updateWhere (fun r => decide (r.tenantId = session.tenantId ∧ r.id = session.id))
        (fun _ => session) s.sessions }) (fun _ => .ret ()) .raise

def rejectSession (session : UploadSessionRecord) (reasonCode : String) : UploadProg Unit :=
  updateSession { session with status := .rejected, rejectionReasonCode := some reasonCode }

def requireOwnedSession (principal : Principal) (bookId sessionId : Id) :
    UploadProg UploadSessionRecord := do
  match ← Prog.read () (·.findSession principal.tenantId sessionId) with
  | none => throw (.notFound "Upload session not found.")
  | some session =>
    if session.bookId ≠ bookId then throw (.notFound "Upload session not found.")
    else pure session

def downloadObject (ing : Ingestion) (key : String) : UploadProg (List UInt8) := do
  match ← Prog.read () (·.objects.lookup key) with
  | none => throw .objectNotFound
  | some buffer =>
    if ing.maxFileSizeBytes < buffer.length then
      throw (.validation "FILE_TOO_LARGE" "Object exceeds the configured size limit.")
    else pure buffer

def generateId : UploadTx Id := fun s => .ok (s.nextId, { s with nextId := s.nextId + 1 })

/-- The transaction that admits the file; the ids of the file and of its job. -/
def admitFile (principal : Principal) (bookId : Id) (session : UploadSessionRecord)
    (sizeBytes : ℕ) (contentHash : Hash) (detected : FormatDetectionResult)
    (storageBucket : String) : UploadTx (Id × Id) := do
  let bookFileId ← generateId
  let jobId ← generateId
  -- The foreign key of `(book_id, tenant_id)`.
  if ¬ (← get).books.any fun b => b.id = bookId ∧ b.tenantId = principal.tenantId then
    throw (.violation .foreignKey)
  else
    bookFile.insert {
      id := bookFileId
      tenantId := principal.tenantId
      bookId
      sourceKind := session.sourceKind
      originalFileName := session.fileName
      mimeType := session.declaredMimeType
      sniffedMimeType := some detected.sniffedMimeType
      sizeBytes
      contentHash
      status := .admitted
      validation := ⟨detected.declaredVsSniffedMatch, detected.sniffedMimeType, true, true⟩
      storageKey := session.storageKey
      storageBucket }
    processingJob.insert {
      id := jobId
      tenantId := principal.tenantId
      bookId
      bookFileId
      idempotencyFingerprint := contentHash }
    modify fun s => { s with
      books := updateWhere (fun b => decide (b.id = bookId)) (fun b => { b with uploaded := true })
        s.books
      outbox := s.outbox ++ [{
        tenantId := principal.tenantId
        bookId
        jobId
        bookFileId
        sourceKind := session.sourceKind
        sizeBytes
        contentHash }] }
    return (bookFileId, jobId)

/-- `enqueueProcessingJob`: the message, then `queued_at`. -/
def enqueueParseBook (jobId : Id) : UploadProg Unit := do
  .access () (fun s => { s with queue := s.queue ++ [jobId] }) (fun _ => .ret ()) .raise
  .access () (fun s => { s with
    parseJobs := updateWhere (fun job => decide (job.id = jobId))
      (fun job => { job with queued := true }) s.parseJobs }) (fun _ => .ret ()) .raise

/-- `recordUsage`, whose failure is logged and not raised. -/
def recordUsage (tenantId : Id) (delta : ℕ) : UploadProg Unit :=
  .access () (fun s => { s with storageBytes := s.storageBytes ++ [(tenantId, delta)] })
    (fun _ => .ret ()) fun _ => .ret ()

/-- `completeUploadSession`; it returns the id of the admitted file. -/
def completeUploadSession (ing : Ingestion) (principal : Principal) (bookId sessionId : Id)
    (body : CompleteUploadSessionBody) : UploadProg Id := do
  let session ← requireOwnedSession principal bookId sessionId
  if session.status = .admitted then
    throw (.conflict "UPLOAD_SESSION_EXPIRED"
      "This upload session was already completed; retry with the same Idempotency-Key instead.")
  else
    let buffer ← downloadObject ing session.storageKey
    if buffer.length ≠ body.observedSizeBytes then
      rejectSession session "UPLOAD_INCOMPLETE"
      throw (.conflict "UPLOAD_INCOMPLETE"
        "Uploaded object size does not match the observed size reported by the client.")
    else if ing.checksumBuffer buffer ≠ session.declaredContentHash then
      rejectSession session "CHECKSUM_MISMATCH"
      throw (.conflict "CHECKSUM_MISMATCH"
        "Uploaded content hash does not match the declared hash.")
    else
      match detectFormat ing buffer session.declaredMimeType with
      | none =>
        rejectSession session "UNSUPPORTED_FILE_FORMAT"
        throw (.unsupportedMediaType "UNSUPPORTED_FILE_FORMAT"
          "Uploaded file does not match the declared source kind.")
      | some detected =>
        if detected.sourceKind ≠ session.sourceKind then
          rejectSession session "UNSUPPORTED_FILE_FORMAT"
          throw (.unsupportedMediaType "UNSUPPORTED_FILE_FORMAT"
            "Uploaded file does not match the declared source kind.")
        else
          let duplicate ← Prog.read ()
            (·.findDuplicate principal.tenantId (ing.checksumBuffer buffer))
          if duplicate.isSome ∧ ¬ body.allowDuplicate then
            throw (.conflict "DUPLICATE_CONTENT_HASH"
              "A file with identical content has already been uploaded for this tenant.")
          else
            -- `storage.head` of an object that was read, so its bucket is known if it answers.
            let stored ← Prog.read () (·.objects.lookup session.storageKey)
            let (bookFileId, jobId) ← Prog.atomically ()
              (admitFile principal bookId session buffer.length (ing.checksumBuffer buffer)
                detected (if stored.isSome then "uploads" else "unknown"))
            enqueueParseBook jobId
            recordUsage principal.tenantId buffer.length
            updateSession { session with status := .admitted, bookFileId := some bookFileId }
            return bookFileId

/-! ## What a Completion Commits -/

/-- The file that a completion inserts, under the next id. -/
def admittedFile (principal : Principal) (bookId : Id) (session : UploadSessionRecord)
    (sizeBytes : ℕ) (contentHash : Hash) (detected : FormatDetectionResult)
    (storageBucket : String) (s : UploadState) : BookFile where
  id := s.nextId
  tenantId := principal.tenantId
  bookId := bookId
  sourceKind := session.sourceKind
  originalFileName := session.fileName
  mimeType := session.declaredMimeType
  sniffedMimeType := some detected.sniffedMimeType
  sizeBytes := sizeBytes
  contentHash := contentHash
  status := .admitted
  validation := ⟨detected.declaredVsSniffedMatch, detected.sniffedMimeType, true, true⟩
  storageKey := session.storageKey
  storageBucket := storageBucket

/-- What the database promises of the rows, and that ids are drawn from one counter. -/
structure UploadState.Consistent (s : UploadState) : Prop where
  fileIds : UniqueWhere (fun f : BookFile => some f.id) s.bookFiles
  originals : UniqueWhere BookFile.admittedKey s.bookFiles
  jobIds : UniqueWhere (fun job : ParseJob => some job.id) s.parseJobs
  jobFiles : UniqueWhere (fun job : ParseJob => some (job.tenantId, job.bookFileId)) s.parseJobs
  filesDrawn : ∀ f ∈ s.bookFiles, f.id < s.nextId
  jobsDrawn : ∀ job ∈ s.parseJobs, job.id < s.nextId ∧ job.bookFileId < s.nextId

@[simp]
theorem bookFile_accepts {rows : List BookFile} :
    bookFile.Accepts rows ↔
      UniqueWhere (fun f : BookFile => some f.id) rows ∧ UniqueWhere BookFile.admittedKey rows := by
  simp [bookFile, Table.Accepts]

@[simp]
theorem processingJob_accepts {rows : List ParseJob} :
    processingJob.Accepts rows ↔
      UniqueWhere (fun job : ParseJob => some job.id) rows ∧
        UniqueWhere (fun job : ParseJob => some (job.tenantId, job.bookFileId)) rows := by
  simp [processingJob, Table.Accepts]

theorem BookFile.admittedKey_eq_some_iff {f : BookFile} {tenantId : Id} {contentHash : Hash} :
    f.admittedKey = some (tenantId, contentHash) ↔ f.IsOriginal tenantId contentHash := by
  rw [admittedKey, IsOriginal]
  split
  · next h => simp [h]
  · next h => simpa using fun _ _ => not_and.mp h

section Commit

variable {principal : Principal} {bookId : Id} {session : UploadSessionRecord} {sizeBytes : ℕ}
  {contentHash : Hash} {detected : FormatDetectionResult} {storageBucket : String}
  {s s' : UploadState} {r : Id × Id}

def admittedJob (principal : Principal) (bookId : Id) (contentHash : Hash) (s : UploadState) :
    ParseJob where
  id := s.nextId + 1
  tenantId := principal.tenantId
  bookId := bookId
  bookFileId := s.nextId
  idempotencyFingerprint := contentHash

def admittedState (principal : Principal) (bookId : Id) (session : UploadSessionRecord)
    (sizeBytes : ℕ) (contentHash : Hash) (detected : FormatDetectionResult)
    (storageBucket : String) (s : UploadState) : UploadState :=
  { s with
    books := updateWhere (fun b => decide (b.id = bookId)) (fun b => { b with uploaded := true })
      s.books
    bookFiles := s.bookFiles ++
      [admittedFile principal bookId session sizeBytes contentHash detected storageBucket s]
    parseJobs := s.parseJobs ++ [admittedJob principal bookId contentHash s]
    outbox := s.outbox ++ [{
      tenantId := principal.tenantId
      bookId
      jobId := s.nextId + 1
      bookFileId := s.nextId
      sourceKind := session.sourceKind
      sizeBytes
      contentHash }]
    nextId := s.nextId + 1 + 1 }

/-- The transaction passes its checks and the constraints of the two tables. -/
def Admissible (principal : Principal) (bookId : Id) (session : UploadSessionRecord)
    (sizeBytes : ℕ) (contentHash : Hash) (detected : FormatDetectionResult)
    (storageBucket : String) (s : UploadState) : Prop :=
  (∃ b ∈ s.books, b.id = bookId ∧ b.tenantId = principal.tenantId) ∧
    bookFile.Accepts (s.bookFiles ++
      [admittedFile principal bookId session sizeBytes contentHash detected storageBucket s]) ∧
    processingJob.Accepts (s.parseJobs ++ [admittedJob principal bookId contentHash s])

theorem admitFile_eq_ok_iff :
    admitFile principal bookId session sizeBytes contentHash detected storageBucket s =
        .ok (r, s') ↔
      Admissible principal bookId session sizeBytes contentHash detected storageBucket s ∧
        r = (s.nextId, s.nextId + 1) ∧ s' = admittedState principal bookId session sizeBytes
          contentHash detected storageBucket s := by
  constructor
  · intro h
    obtain ⟨bookFileId, s₁, hfileId, h⟩ := Transaction.bind_eq_ok_iff.mp h
    cases hfileId
    obtain ⟨jobId, s₂, hjobId, h⟩ := Transaction.bind_eq_ok_iff.mp h
    cases hjobId
    obtain ⟨s₃, s₄, hget, h⟩ := Transaction.bind_eq_ok_iff.mp h
    cases hget
    dsimp only at h
    split at h
    · cases h
    · next hbook =>
      obtain ⟨_, s₅, hinsert, h⟩ := Transaction.bind_eq_ok_iff.mp h
      obtain ⟨hfile, rfl⟩ := bookFile.insert_eq_ok_iff.mp hinsert
      obtain ⟨_, s₆, hinsertJob, h⟩ := Transaction.bind_eq_ok_iff.mp h
      obtain ⟨hjob, rfl⟩ := processingJob.insert_eq_ok_iff.mp hinsertJob
      cases h
      exact ⟨⟨by simpa using hbook, hfile, hjob⟩, rfl, rfl⟩
  · rintro ⟨⟨hbook, hfile, hjob⟩, rfl, rfl⟩
    rw [admitFile, Transaction.bind_eq_of_ok (show generateId s = .ok _ from rfl),
      Transaction.bind_eq_of_ok (show generateId _ = .ok _ from rfl),
      Transaction.bind_eq_of_ok (show (get : UploadTx UploadState) _ = .ok _ from rfl),
      if_neg (by simpa using hbook)]
    let drawn : UploadState := { s with nextId := s.nextId + 1 + 1 }
    let inserted : UploadState := bookFile.setRows (s.bookFiles ++
      [admittedFile principal bookId session sizeBytes contentHash detected storageBucket s]) drawn
    have hinsert : (bookFile.insert (admittedFile principal bookId session sizeBytes contentHash
        detected storageBucket s) : UploadTx Unit) drawn = .ok ((), inserted) :=
      bookFile.insert_eq_ok_iff.mpr ⟨hfile, rfl⟩
    have hinsertJob : (processingJob.insert (admittedJob principal bookId contentHash s) :
        UploadTx Unit) inserted = .ok ((), processingJob.setRows
          (s.parseJobs ++ [admittedJob principal bookId contentHash s]) inserted) :=
      processingJob.insert_eq_ok_iff.mpr ⟨hjob, rfl⟩
    exact (Transaction.bind_eq_of_ok hinsert).trans (Transaction.bind_eq_of_ok hinsertJob)

theorem admissible_iff (hs : s.Consistent) :
    Admissible principal bookId session sizeBytes contentHash detected storageBucket s ↔
      (∃ b ∈ s.books, b.id = bookId ∧ b.tenantId = principal.tenantId) ∧
        ∀ f ∈ s.bookFiles, ¬ f.IsOriginal principal.tenantId contentHash := by
  have hkey : (admittedFile principal bookId session sizeBytes contentHash detected storageBucket
      s).admittedKey = some (principal.tenantId, contentHash) := if_pos ⟨rfl, rfl⟩
  have hfileId : ∀ f ∈ s.bookFiles, some f.id ≠ some s.nextId := fun f hf heq =>
    Nat.ne_of_lt (hs.filesDrawn f hf) (Option.some.inj heq)
  have hjobId : ∀ job ∈ s.parseJobs, some job.id ≠ some (s.nextId + 1) := fun job hjob heq =>
    Nat.ne_of_lt (Nat.lt_succ_of_lt (hs.jobsDrawn job hjob).1) (Option.some.inj heq)
  have hjobFile : ∀ job ∈ s.parseJobs,
      some (job.tenantId, job.bookFileId) ≠ some (principal.tenantId, s.nextId) :=
    fun job hjob heq =>
      Nat.ne_of_lt (hs.jobsDrawn job hjob).2 (congrArg Prod.snd (Option.some.inj heq))
  rw [Admissible, bookFile_accepts, processingJob_accepts]
  simp only [uniqueWhere_concat_iff, hkey]
  refine and_congr_right fun _ => ?_
  constructor
  · rintro ⟨⟨-, -, horiginal⟩, -⟩ f hf hf'
    exact horiginal _ rfl f hf (BookFile.admittedKey_eq_some_iff.mpr hf')
  · intro hnone
    refine ⟨⟨⟨hs.fileIds, ?_⟩, hs.originals, ?_⟩, ⟨hs.jobIds, ?_⟩, hs.jobFiles, ?_⟩
    · rintro _ hk f hf
      cases hk
      exact hfileId f hf
    · rintro _ hk f hf hf'
      cases hk
      exact hnone f hf (BookFile.admittedKey_eq_some_iff.mp hf')
    · rintro _ hk job hjob
      cases hk
      exact hjobId job hjob
    · rintro _ hk job hjob
      cases hk
      exact hjobFile job hjob

theorem consistent_admittedState (hs : s.Consistent)
    (h : Admissible principal bookId session sizeBytes contentHash detected storageBucket s) :
    (admittedState principal bookId session sizeBytes contentHash detected storageBucket
      s).Consistent := by
  obtain ⟨-, hfile, hjob⟩ := h
  rw [bookFile_accepts] at hfile
  rw [processingJob_accepts] at hjob
  refine ⟨hfile.1, hfile.2, hjob.1, hjob.2, fun f hf => ?_, fun job hj => ?_⟩
  · show f.id < s.nextId + 1 + 1
    rcases List.mem_append.mp hf with hf | hf
    · exact Nat.lt_succ_of_lt (Nat.lt_succ_of_lt (hs.filesDrawn f hf))
    · obtain rfl := List.mem_singleton.mp hf
      exact Nat.lt_succ_of_lt (Nat.lt_succ_self _)
  · show job.id < s.nextId + 1 + 1 ∧ job.bookFileId < s.nextId + 1 + 1
    rcases List.mem_append.mp hj with hj | hj
    · obtain ⟨hid, hfileId⟩ := hs.jobsDrawn job hj
      exact ⟨Nat.lt_succ_of_lt (Nat.lt_succ_of_lt hid), Nat.lt_succ_of_lt (Nat.lt_succ_of_lt hfileId)⟩
    · obtain rfl := List.mem_singleton.mp hj
      exact ⟨Nat.lt_succ_self _, Nat.lt_succ_of_lt (Nat.lt_succ_self _)⟩

end Commit

/-! ## Completions in Any Interleaving -/

/-- A request, or a change of what completions read. -/
inductive UploadRequest
  | complete (principal : Principal) (bookId sessionId : Id) (body : CompleteUploadSessionBody)
  /-- Sessions and objects come and go, books are created and deleted. -/
  | change (sessions : List UploadSessionRecord) (objects : List (String × List UInt8))
      (books : List UploadedBook)
  /-- The purge of a book deletes its files and jobs. -/
  | purge (bookId : Id)

def uploadProgram (ing : Ingestion) : UploadRequest → UploadProg Unit
  | .complete principal bookId sessionId body => do
    let _ ← completeUploadSession ing principal bookId sessionId body
  | .change sessions objects books =>
    .access () (fun s => { s with sessions, objects, books }) (fun _ => .ret ()) .raise
  | .purge bookId =>
    .access () (fun s => { s with
      bookFiles := s.bookFiles.filter fun f => f.bookId ≠ bookId
      parseJobs := s.parseJobs.filter fun job => job.bookId ≠ bookId }) (fun _ => .ret ()) .raise

/-- Completions of all tenants at any time, from any rows that the database can hold. -/
def uploadSystem (ing : Ingestion) : System UploadState UploadRequest Unit UploadError where
  init := UploadState.Consistent
  enabled _ _ := True
  program := uploadProgram ing

/-- An access keeps the promises of the database. -/
def KeepsConsistent (_ : Unit) (w : UploadState → UploadState) : Prop :=
  ∀ s, s.Consistent → (w s).Consistent

theorem UploadState.Consistent.of_rows {s s' : UploadState} (hs : s.Consistent)
    (hfiles : s'.bookFiles = s.bookFiles) (hjobs : s'.parseJobs = s.parseJobs)
    (hnext : s'.nextId = s.nextId) : s'.Consistent := by
  obtain ⟨h₁, h₂, h₃, h₄, h₅, h₆⟩ := hs
  constructor <;> simp only [hfiles, hjobs, hnext] <;> assumption

theorem always_updateSession (session : UploadSessionRecord) :
    (updateSession session).Always KeepsConsistent :=
  ⟨fun _ hs => hs.of_rows rfl rfl rfl, fun _ => trivial, fun _ => trivial⟩

theorem always_enqueueParseBook (jobId : Id) :
    (enqueueParseBook jobId).Always KeepsConsistent := by
  refine ⟨fun _ hs => hs.of_rows rfl rfl rfl, fun _ => ⟨fun s hs => ?_, fun _ => trivial,
    fun _ => trivial⟩, fun _ => trivial⟩
  -- `queued_at` is in no key.
  refine { hs with jobIds := ?_, jobFiles := ?_, jobsDrawn := ?_ }
  · dsimp only
    rw [UniqueWhere, filterMap_updateWhere]
    · exact hs.jobIds
    · exact fun _ _ _ => rfl
  · dsimp only
    rw [UniqueWhere, filterMap_updateWhere]
    · exact hs.jobFiles
    · exact fun _ _ _ => rfl
  · exact forall_mem_updateWhere hs.jobsDrawn fun job hjob _ => hs.jobsDrawn job hjob

theorem always_recordUsage (tenantId : Id) (delta : ℕ) :
    (recordUsage tenantId delta).Always KeepsConsistent :=
  ⟨fun _ hs => hs.of_rows rfl rfl rfl, fun _ => trivial, fun _ => trivial⟩

theorem always_read {α : Type} (f : UploadState → α) :
    (Prog.read () f : UploadProg α).Always KeepsConsistent :=
  Prog.always_read fun _ hs => hs

theorem always_admitFile (principal : Principal) (bookId : Id) (session : UploadSessionRecord)
    (sizeBytes : ℕ) (contentHash : Hash) (detected : FormatDetectionResult)
    (storageBucket : String) :
    (Prog.atomically () (admitFile principal bookId session sizeBytes contentHash detected
      storageBucket) : UploadProg (Id × Id)).Always KeepsConsistent := by
  refine Prog.always_atomically fun s hs => ?_
  cases h : admitFile principal bookId session sizeBytes contentHash detected storageBucket s with
  | error e => rwa [Prog.commit_of_error h]
  | ok result =>
    obtain ⟨hpasses, -, hstate⟩ := admitFile_eq_ok_iff.mp h
    rw [Prog.commit_of_ok h, hstate]
    exact consistent_admittedState hs hpasses

theorem always_completeUploadSession (ing : Ingestion) (principal : Principal)
    (bookId sessionId : Id) (body : CompleteUploadSessionBody) :
    (completeUploadSession ing principal bookId sessionId body).Always KeepsConsistent := by
  have hreject : ∀ (session : UploadSessionRecord) (reasonCode : String) (e : UploadError),
      (do rejectSession session reasonCode
          throw e : UploadProg Id).Always KeepsConsistent := fun session _ e =>
    Prog.always_bind (always_updateSession _) fun _ => Prog.always_throw e
  refine Prog.always_bind (Prog.always_bind (always_read _) fun found => ?_) fun session => ?_
  · cases found with
    | none => exact Prog.always_throw _
    | some session => dsimp only; split <;> trivial
  split
  · exact Prog.always_throw _
  refine Prog.always_bind (Prog.always_bind (always_read _) fun stored => ?_) fun buffer => ?_
  · cases stored with
    | none => exact Prog.always_throw _
    | some buffer => dsimp only; split <;> trivial
  split
  · exact hreject _ _ _
  split
  · exact hreject _ _ _
  split
  · exact hreject _ _ _
  split
  · exact hreject _ _ _
  refine Prog.always_bind (always_read _) fun duplicate => ?_
  split
  · exact Prog.always_throw _
  refine Prog.always_bind (always_read _) fun stored => ?_
  refine Prog.always_bind (always_admitFile ..) fun ids => ?_
  refine Prog.always_bind (always_enqueueParseBook _) fun _ => ?_
  refine Prog.always_bind (always_recordUsage _ _) fun _ => ?_
  exact Prog.always_bind (always_updateSession _) fun _ => Prog.always_pure _

theorem always_uploadProgram (ing : Ingestion) (request : UploadRequest) :
    (uploadProgram ing request).Always KeepsConsistent := by
  cases request with
  | complete principal bookId sessionId body =>
    exact Prog.always_bind (always_completeUploadSession ..) fun _ => Prog.always_pure ()
  | change sessions objects books =>
    exact ⟨fun _ hs => hs.of_rows rfl rfl rfl, fun _ => trivial, fun _ => trivial⟩
  | purge bookId =>
    refine ⟨fun s hs => ?_, fun _ => trivial, fun _ => trivial⟩
    exact {
      fileIds := hs.fileIds.sublist (List.Sublist.filterMap _ List.filter_sublist)
      originals := hs.originals.sublist (List.Sublist.filterMap _ List.filter_sublist)
      jobIds := hs.jobIds.sublist (List.Sublist.filterMap _ List.filter_sublist)
      jobFiles := hs.jobFiles.sublist (List.Sublist.filterMap _ List.filter_sublist)
      filesDrawn := fun f hf => hs.filesDrawn f (List.mem_of_mem_filter hf)
      jobsDrawn := fun job hjob => hs.jobsDrawn job (List.mem_of_mem_filter hjob) }

theorem consistent_of_reachable {ing : Ingestion} {c : Config UploadState Unit UploadError}
    (hc : (uploadSystem ing).Reachable anyAccess c) : c.store.Consistent :=
  System.Reachable.invariant_of_always (always_uploadProgram ing) hc (fun _ h => h)
    fun _ _ s hkeeps _ hs => hkeeps s hs

theorem admitted_originals_unique {s : UploadState} (hs : s.Consistent) (tenantId : Id)
    (contentHash : Hash) :
    (s.bookFiles.filter fun f => f.IsOriginal tenantId contentHash).length ≤ 1 :=
  hs.originals.length_filter_le_one fun _ _ hf =>
    BookFile.admittedKey_eq_some_iff.mpr (of_decide_eq_true hf)

/-! ## Valid Uploads -/

/-- A completion of an open session of the book, whose object is there and is what the session and
the request declare. -/
structure ValidUpload (ing : Ingestion) (principal : Principal) (bookId sessionId : Id)
    (body : CompleteUploadSessionBody) (s : UploadState) (session : UploadSessionRecord)
    (buffer : List UInt8) (detected : FormatDetectionResult) : Prop where
  found : s.findSession principal.tenantId sessionId = some session
  ofBook : session.bookId = bookId
  isOpen : session.status ≠ .admitted
  stored : s.objects.lookup session.storageKey = some buffer
  small : buffer.length ≤ ing.maxFileSizeBytes
  observed : buffer.length = body.observedSizeBytes
  declared : ing.checksumBuffer buffer = session.declaredContentHash
  detects : detectFormat ing buffer session.declaredMimeType = some detected
  sourceKind : detected.sourceKind = session.sourceKind
  book : ∃ b ∈ s.books, b.id = bookId ∧ b.tenantId = principal.tenantId

/-- The completion, run alone, admits a file with the content. -/
def Admits (ing : Ingestion) (principal : Principal) (bookId sessionId : Id)
    (body : CompleteUploadSessionBody) (contentHash : Hash) (s : UploadState) : Prop :=
  ∃ f s', (completeUploadSession ing principal bookId sessionId body).evaluate (fun _ => none) s =
      (.ok f.id, s') ∧
    f ∈ s'.bookFiles ∧ f ∉ s.bookFiles ∧ f.status = .admitted ∧ f.tenantId = principal.tenantId ∧
      f.bookId = bookId ∧ f.contentHash = contentHash

section Valid

variable {ing : Ingestion} {principal : Principal} {bookId sessionId : Id}
  {body : CompleteUploadSessionBody} {s : UploadState} {session : UploadSessionRecord}
  {buffer : List UInt8} {detected : FormatDetectionResult}

/-- What follows the transaction that has admitted a file. -/
def afterAdmission (principal : Principal) (session : UploadSessionRecord) (sizeBytes : ℕ)
    (ids : Id × Id) : UploadProg Id := do
  enqueueParseBook ids.2
  recordUsage principal.tenantId sizeBytes
  updateSession { session with status := .admitted, bookFileId := some ids.1 }
  return ids.1

theorem evaluate_completeUploadSession
    (hv : ValidUpload ing principal bookId sessionId body s session buffer detected)
    (hconsent : body.allowDuplicate = true) :
    (completeUploadSession ing principal bookId sessionId body).evaluate (fun _ => none) s =
      (Prog.atomically () (admitFile principal bookId session buffer.length
          (ing.checksumBuffer buffer) detected "uploads") >>=
        afterAdmission principal session buffer.length).evaluate (fun _ => none) s := by
  have hsession : (requireOwnedSession principal bookId sessionId).evaluate (fun _ => none) s =
      (.ok session, s) := by
    rw [requireOwnedSession, Prog.evaluate_read_bind rfl, hv.found]
    dsimp only
    rw [if_neg (not_not.mpr hv.ofBook), Prog.evaluate_pure]
  have hbuffer : (downloadObject ing session.storageKey).evaluate (fun _ => none) s =
      (.ok buffer, s) := by
    rw [downloadObject, Prog.evaluate_read_bind rfl, hv.stored]
    dsimp only
    rw [if_neg (Nat.not_lt.mpr hv.small), Prog.evaluate_pure]
  rw [completeUploadSession, Prog.evaluate_bind_of_ok hsession, if_neg hv.isOpen,
    Prog.evaluate_bind_of_ok hbuffer, if_neg (not_not.mpr hv.observed),
    if_neg (not_not.mpr hv.declared), hv.detects]
  dsimp only
  rw [if_neg (not_not.mpr hv.sourceKind), Prog.evaluate_read_bind rfl,
    if_neg (by simp [hconsent]), Prog.evaluate_read_bind rfl, hv.stored]
  rfl

theorem evaluate_afterAdmission (principal : Principal) (session : UploadSessionRecord)
    (sizeBytes : ℕ) (ids : Id × Id) (s : UploadState) :
    ∃ s', (afterAdmission principal session sizeBytes ids).evaluate (fun _ => none) s =
        (.ok ids.1, s') ∧ s'.bookFiles = s.bookFiles :=
  ⟨_, rfl, rfl⟩

theorem completeUploadSession_admits_iff (hs : s.Consistent)
    (hv : ValidUpload ing principal bookId sessionId body s session buffer detected)
    (hconsent : body.allowDuplicate = true) :
    Admits ing principal bookId sessionId body (ing.checksumBuffer buffer) s ↔
      ∀ f ∈ s.bookFiles, ¬ f.IsOriginal principal.tenantId (ing.checksumBuffer buffer) := by
  have hpasses : Admissible principal bookId session buffer.length (ing.checksumBuffer buffer)
      detected "uploads" s ↔ _ := admissible_iff hs
  rw [and_iff_right hv.book] at hpasses
  rw [← hpasses, Admits, evaluate_completeUploadSession hv hconsent]
  constructor
  · rintro ⟨f, s', heval, -⟩
    obtain ⟨ids, s₁, hadmit, -⟩ := Prog.evaluate_bind_eq_ok_iff.mp heval
    exact (admitFile_eq_ok_iff.mp (Prog.evaluate_atomically_eq_ok_iff.mp hadmit).2).1
  · intro hpass
    let admitted := admittedState principal bookId session buffer.length
      (ing.checksumBuffer buffer) detected "uploads" s
    have hadmit : (Prog.atomically () (admitFile principal bookId session buffer.length
        (ing.checksumBuffer buffer) detected "uploads")).evaluate (fun _ => none) s =
          (.ok (s.nextId, s.nextId + 1), admitted) :=
      Prog.evaluate_atomically rfl (admitFile_eq_ok_iff.mpr ⟨hpass, rfl, rfl⟩)
    obtain ⟨s', hafter, hfiles⟩ := evaluate_afterAdmission principal session buffer.length
      (s.nextId, s.nextId + 1) admitted
    refine ⟨admittedFile principal bookId session buffer.length (ing.checksumBuffer buffer) detected
      "uploads" s, s', ?_, ?_, ?_, rfl, rfl, rfl, rfl⟩
    · rw [Prog.evaluate_bind_of_ok hadmit]
      exact hafter
    · rw [hfiles]
      exact List.mem_append_right _ (List.mem_singleton_self _)
    · intro hmem
      exact absurd (hs.filesDrawn _ hmem) (Nat.lt_irrefl _)

end Valid

/-- **Duplicates under the index.** In every interleaving of completions, from any earlier files, a
tenant has at most one admitted original of a content; and a valid upload with the consent to a
duplicate is admitted exactly when there is none. -/
theorem upload_duplicates (ing : Ingestion) (c : Config UploadState Unit UploadError)
    (hc : (uploadSystem ing).Reachable anyAccess c) :
    (∀ tenantId contentHash,
      (c.store.bookFiles.filter fun f => f.IsOriginal tenantId contentHash).length ≤ 1) ∧
    ∀ principal bookId sessionId body session buffer detected,
      ValidUpload ing principal bookId sessionId body c.store session buffer detected →
        body.allowDuplicate = true →
          (Admits ing principal bookId sessionId body (ing.checksumBuffer buffer) c.store ↔
            ∀ f ∈ c.store.bookFiles,
              ¬ f.IsOriginal principal.tenantId (ing.checksumBuffer buffer)) := by
  have hs := consistent_of_reachable hc
  exact ⟨admitted_originals_unique hs, fun _ _ _ _ _ _ _ hv hconsent =>
    completeUploadSession_admits_iff hs hv hconsent⟩

/-- The SHA-256 digest of the five bytes of `pdfMagic`. -/
def pdfMagicDigest : Hash :=
  0x38523c087796e5d5dd1cf9bad1fb026781a838dd9dd2cf8af58b9f6502a46778

/-- Ingestion as it answers about an object of these bytes. -/
def pdfIngestion : Ingestion where
  checksumBuffer _ := pdfMagicDigest
  fileTypeFromBuffer _ := some "application/pdf"
  maxFileSizeBytes := 100

/-- Session 5 of tenant 1, whose object is the five bytes. -/
def pdfSession : UploadSessionRecord where
  id := 5
  tenantId := 1
  bookId := 3
  sourceKind := .pdf
  fileName := "book.pdf"
  declaredMimeType := "application/pdf"
  declaredContentHash := pdfMagicDigest
  storageKey := "books/3/uploads/5"

/-- Book 3 of tenant 1 with its session and object, and no file yet. -/
def pdfUploaded : UploadState where
  sessions := [pdfSession]
  objects := [("books/3/uploads/5", pdfMagic)]
  books := [{ id := 3, tenantId := 1 }]
  nextId := 10

/-- The same, where the tenant has uploaded the content before. -/
def pdfUploadedTwice : UploadState :=
  { pdfUploaded with
    bookFiles := [{
      id := 0, tenantId := 1, bookId := 2, sourceKind := .pdf, originalFileName := "book.pdf"
      mimeType := "application/pdf", sniffedMimeType := some "application/pdf", sizeBytes := 5
      contentHash := pdfMagicDigest, status := .admitted
      validation := ⟨true, "application/pdf", true, true⟩
      storageKey := "books/2/uploads/4", storageBucket := "uploads" }] }

theorem validUpload_pdfSession {s : UploadState} (hsessions : s.sessions = [pdfSession])
    (hobjects : s.objects = [("books/3/uploads/5", pdfMagic)])
    (hbooks : s.books = [{ id := 3, tenantId := 1 }]) :
    ValidUpload pdfIngestion ⟨1⟩ 3 5 ⟨5, true⟩ s pdfSession pdfMagic
      ⟨.pdf, "application/pdf", true⟩ where
  found := by rw [UploadState.findSession, hsessions]; rfl
  ofBook := rfl
  isOpen := by decide
  stored := by rw [hobjects]; decide
  small := by decide
  observed := rfl
  declared := rfl
  detects := by decide
  sourceKind := rfl
  book := by rw [hbooks]; exact ⟨_, List.mem_singleton_self _, rfl, rfl⟩

theorem consistent_pdfUploaded : pdfUploaded.Consistent :=
  ⟨by decide, by decide, by decide, by decide, by decide, by decide⟩

theorem consistent_pdfUploadedTwice : pdfUploadedTwice.Consistent :=
  ⟨by decide, by decide, by decide, by decide, by decide, by decide⟩

/-- The first upload of a content is admitted. -/
theorem upload_duplicates_first :
    Admits pdfIngestion ⟨1⟩ 3 5 ⟨5, true⟩ pdfMagicDigest pdfUploaded :=
  ((upload_duplicates pdfIngestion ⟨pdfUploaded, []⟩
    ⟨pdfUploaded, consistent_pdfUploaded, .refl⟩).2 ⟨1⟩ 3 5 ⟨5, true⟩ pdfSession pdfMagic
      ⟨.pdf, "application/pdf", true⟩ (validUpload_pdfSession rfl rfl rfl) rfl).mpr
    fun _ hfile => absurd hfile List.not_mem_nil

/-- A second upload of the content, with consent, is not admitted. -/
theorem not_forall_consented_admitted :
    ¬ ∀ (ing : Ingestion) (c : Config UploadState Unit UploadError),
        (uploadSystem ing).Reachable anyAccess c →
          ∀ principal bookId sessionId body session buffer detected,
            ValidUpload ing principal bookId sessionId body c.store session buffer detected →
              body.allowDuplicate = true →
                Admits ing principal bookId sessionId body (ing.checksumBuffer buffer) c.store := by
  intro h
  have hv : ValidUpload pdfIngestion ⟨1⟩ 3 5 ⟨5, true⟩ pdfUploadedTwice pdfSession pdfMagic
      ⟨.pdf, "application/pdf", true⟩ := validUpload_pdfSession rfl rfl rfl
  have hadmits := h pdfIngestion ⟨pdfUploadedTwice, []⟩
    ⟨pdfUploadedTwice, consistent_pdfUploadedTwice, .refl⟩ _ _ _ _ _ _ _ hv rfl
  have hnone := (completeUploadSession_admits_iff consistent_pdfUploadedTwice hv rfl).mp hadmits
  exact hnone _ (List.mem_singleton_self _) (by decide)

end AudioBook.Uploads
