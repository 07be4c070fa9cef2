import AudioBook.Books.Store
import AudioBook.Concurrent.Machine
import Mathlib.Algebra.GroupWithZero.Nat

/-!
# The Storage Counter

What a tenant stores is counted in `tenant_usage_counter`, one row for each month and metric. The
API adds the size of an upload to the row of the month in which it is admitted; the purge of a book
subtracts the sizes of the book's files from the row of the month in which it runs. Both updates are
best effort: one that fails is logged, and nothing else fails with it.

- `recordUsage`, `recordStorageBytesDelta`: the two updates.
- `purgeBook`, `runRetentionSweep`: what deletes objects.
- `storageMachine`: uploads, ingestions, purges and sweeps of one tenant, month after month.
-/

namespace AudioBook.Quotas

open Books (BookFileStatus)
open Concurrent

/-! ## Objects and Rows -/

/-- The key of an object, as `buildStorageKey` makes it. -/
inductive ObjectKey
  | upload (bookId sessionId : Id)
  /-- The key of something that a worker made of a book. -/
  | artifact (bookId artifactId : Id)
  deriving DecidableEq

structure StoredObject where
  key : ObjectKey
  sizeBytes : ℕ
  deriving DecidableEq

structure BookFile where
  bookId : Id
  storageKey : ObjectKey
  sizeBytes : ℕ
  status : BookFileStatus := .admitted
  expired : Bool := false

/-- A row of one of the tables of artifacts, whose sizes are not counted. -/
structure Artifact where
  bookId : Id
  storageKey : ObjectKey

structure UploadSession where
  id : Id
  bookId : Id
  admitted : Bool := false

def UploadSession.storageKey (session : UploadSession) : ObjectKey :=
  .upload session.bookId session.id

/-- What is stored for a tenant, and what was counted. -/
structure StorageState where
  period : ℕ := 0
  books : List Id := []
  uploadSessions : List UploadSession := []
  objects : List StoredObject := []
  bookFiles : List BookFile := []
  artifacts : List Artifact := []
  /-- `used_value` of the `STORAGE_BYTES` row of each month. -/
  usedValue : ℕ → Option ℤ := fun _ => none
  /-- The objects that were counted in, each with the month that counted it. -/
  countedIn : List (ℕ × ObjectKey) := []

namespace StorageState

def findSession (s : StorageState) (sessionId : Id) : Option UploadSession :=
  s.uploadSessions.find? fun session => decide (session.id = sessionId)

def filesOf (s : StorageState) (bookId : Id) : List BookFile :=
  s.bookFiles.filter fun file => decide (file.bookId = bookId)

def withoutObjects (s : StorageState) (keys : List ObjectKey) : StorageState :=
  { s with objects := s.objects.filter fun object => decide (object.key ∉ keys) }

/-- `storage.put`: an object with the key is replaced. -/
def put (s : StorageState) (object : StoredObject) : StorageState :=
  { s with
    objects := (s.objects.filter fun other => decide (other.key ≠ object.key)) ++ [object] }

/-- `tenantUsageCounter.upsert` of the current month. -/
def upsertCounter (s : StorageState) (create increment : ℤ) : StorageState :=
  { s with
    usedValue := Function.update s.usedValue s.period
      (some ((s.usedValue s.period).elim create fun value => value + increment)) }

def recordUsage (s : StorageState) (delta : ℕ) : StorageState := s.upsertCounter delta delta

def recordStorageBytesDelta (s : StorageState) (deltaBytes : ℤ) : StorageState :=
  s.upsertCounter (if 0 < deltaBytes then deltaBytes else 0) deltaBytes

/-- The object of a key is counted in, in the current month. -/
def countIn (s : StorageState) (key : ObjectKey) (sizeBytes : ℕ) : StorageState :=
  let s := s.recordUsage sizeBytes
  { s with countedIn := (s.period, key) :: s.countedIn }

def addFile (s : StorageState) (session : UploadSession) (object : StoredObject) : StorageState :=
  let file : BookFile := {
    bookId := session.bookId
    storageKey := session.storageKey
    sizeBytes := object.sizeBytes }
  { s with bookFiles := s.bookFiles ++ [file] }

/-- The status of a session becomes `ADMITTED`. -/
def admitSession (s : StorageState) (sessionId : Id) : StorageState :=
  { s with
    uploadSessions := s.uploadSessions.map fun session =>
      if session.id = sessionId then { session with admitted := true } else session }

end StorageState

/-! ## Purging a Book -/

inductive PurgeEnding
  | beforeFiles
  /-- It stops when it has deleted the objects of the files, before it deletes their rows. -/
  | beforeRows
  /-- The rows are deleted as well; then the counter may be updated, and the book deleted. -/
  | afterRows (recorded finished : Bool)
  deriving DecidableEq

/-- `deleteObjects`: a deletion that fails is logged. -/
def deleteObjects (s : StorageState) (unreachable keys : List ObjectKey) : StorageState :=
  s.withoutObjects (keys.filter fun key => decide (key ∉ unreachable))

def otherReference (s : StorageState) (storageKey : ObjectKey) (bookId : Id) : Bool :=
  s.bookFiles.any fun file => decide (file.storageKey = storageKey ∧ file.bookId ≠ bookId)

/-- The loop over the files of `purgeBookFiles`, with the bytes that it frees. -/
def purgeFileObjects (bookId : Id) (unreachable : List ObjectKey) :
    List BookFile → StorageState → ℕ × StorageState
  | [], s => (0, s)
  | file :: files, s =>
      if otherReference s file.storageKey bookId then purgeFileObjects bookId unreachable files s
      else
        let rest := purgeFileObjects bookId unreachable files
          (deleteObjects s unreachable [file.storageKey])
        (file.sizeBytes + rest.1, rest.2)

def purgeArtifacts (bookId : Id) (unreachable : List ObjectKey) (s : StorageState) : StorageState :=
  let rows := s.artifacts.filter fun row => decide (row.bookId = bookId)
  let s : StorageState := deleteObjects s unreachable (rows.map Artifact.storageKey)
  { s with artifacts := s.artifacts.filter fun row => decide (row.bookId ≠ bookId) }

/-- `purgeBookFiles`, as far as it comes, and the end of the purge. -/
def purgeBookFiles (bookId : Id) (unreachable : List ObjectKey) (ending : PurgeEnding)
    (s : StorageState) : StorageState :=
  let purged := purgeFileObjects bookId unreachable (s.filesOf bookId) s
  match ending with
  | .beforeFiles => s
  | .beforeRows => purged.2
  | .afterRows recorded finished =>
      let s := purged.2
      let s : StorageState := { s with bookFiles := s.bookFiles.filter fun file => decide (file.bookId ≠ bookId) }
      let s := if 0 < purged.1 ∧ recorded then s.recordStorageBytesDelta (-purged.1) else s
      if finished then { s with books := s.books.filter fun id => decide (id ≠ bookId) } else s

def runPurgeBook (bookId : Id) (unreachable : List ObjectKey) (ending : PurgeEnding)
    (s : StorageState) : StorageState :=
  purgeBookFiles bookId unreachable ending (purgeArtifacts bookId unreachable s)

/-! ## The Retention Sweep -/

/-- The first step of `runRetentionSweep`: the objects of rejected files that were created before the
cutoff, which are those with keys in `old`. -/
def expireOrphanedFiles (old unreachable : List ObjectKey) (s : StorageState) : StorageState :=
  let orphaned (file : BookFile) : Bool :=
    decide (file.status = .rejected ∧ file.expired = false ∧ file.storageKey ∈ old)
  let s' := deleteObjects s unreachable ((s.bookFiles.filter orphaned).map BookFile.storageKey)
  { s' with
    bookFiles := s'.bookFiles.map fun file =>
      if orphaned file then { file with expired := true } else file }

/-- `runRetentionSweep`: after it, the objects of audio chunks that are not current, which are those
with keys in `superseded`. -/
def runRetentionSweep (old superseded unreachable : List ObjectKey) (s : StorageState) :
    StorageState :=
  let s := expireOrphanedFiles old unreachable s
  let chunks := s.artifacts.filter fun row =>
    decide (row.storageKey ∈ superseded ∧ row.storageKey ∈ old)
  deleteObjects s unreachable (chunks.map Artifact.storageKey)

/-! ## The Machine -/

inductive StorageEvent
  | newMonth
  | createBook (bookId : Id)
  | createUploadSession (bookId sessionId : Id)
  /-- The client puts an object to the signed URL of its session. -/
  | upload (sessionId : Id) (sizeBytes : ℕ)
  /-- `completeUploadSession` admits the upload; the counter may be updated, and then the session. -/
  | completeUploadSession (sessionId : Id) (recorded acknowledged : Bool)
  | storeArtifact (bookId artifactId : Id) (sizeBytes : ℕ)
  | purgeBook (bookId : Id) (unreachable : List ObjectKey) (ending : PurgeEnding)
  | retentionSweep (old superseded unreachable : List ObjectKey)

/-- `completeUploadSession`, where it admits the upload: the session was not admitted, its object
passes all checks and its book is there. -/
def completeUploadSession (sessionId : Id) (recorded acknowledged : Bool) (s : StorageState) :
    Option StorageState :=
  match s.findSession sessionId with
  | none => none
  | some session =>
  if session.admitted ∨ session.bookId ∉ s.books then none else
  match s.objects.find? fun object => decide (object.key = session.storageKey) with
  | none => none
  | some object =>
  let s₁ := s.addFile session object
  let s₂ := if recorded then s₁.countIn session.storageKey object.sizeBytes else s₁
  some (if acknowledged then s₂.admitSession sessionId else s₂)

def StorageEvent.step : StorageEvent → StorageState → Option StorageState
  | newMonth, s => some { s with period := s.period + 1 }
  | createBook bookId, s => if bookId ∈ s.books then none else some { s with books := bookId :: s.books }
  | createUploadSession bookId sessionId, s =>
      if bookId ∉ s.books ∨ (s.findSession sessionId).isSome then none
      else some { s with uploadSessions := ⟨sessionId, bookId, false⟩ :: s.uploadSessions }
  | upload sessionId sizeBytes, s =>
      match s.findSession sessionId with
      | none => none
      | some session => some (s.put ⟨session.storageKey, sizeBytes⟩)
  | .completeUploadSession sessionId recorded acknowledged, s =>
      Quotas.completeUploadSession sessionId recorded acknowledged s
  | storeArtifact bookId artifactId sizeBytes, s =>
      let s := s.put ⟨.artifact bookId artifactId, sizeBytes⟩
      some { s with artifacts := s.artifacts ++ [⟨bookId, .artifact bookId artifactId⟩] }
  | purgeBook bookId unreachable ending, s => some (runPurgeBook bookId unreachable ending s)
  | retentionSweep old superseded unreachable, s =>
      some (runRetentionSweep old superseded unreachable s)

def storageMachine : Machine StorageState StorageEvent where
  init s := s = {}
  step := StorageEvent.step

/-! ## Exactness -/

/-- The usage of a month, as it is reported; a month without a row has none. -/
def usage (period : ℕ) (s : StorageState) : ℤ := (s.usedValue period).getD 0

/-- The sizes of the objects that were counted in a month and are still stored. -/
def storedSize (period : ℕ) (s : StorageState) : ℕ :=
  ((s.objects.filter fun object => decide ((period, object.key) ∈ s.countedIn)).map
    StoredObject.sizeBytes).sum

/-- The counter of every month is exact, and not negative. -/
def Exact (s : StorageState) : Prop :=
  ∀ period, 0 ≤ usage period s ∧ usage period s = storedSize period s

end AudioBook.Quotas
