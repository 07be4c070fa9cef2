import AudioBook.Concurrent.Interleaving
import AudioBook.Relational.Table
import AudioBook.Schema.Store

/-!
# The Versions of Artifacts

The four workers that make a new version of something and store its bytes: the canonical text of a
book, the audio of a script chunk, the audio of a chapter and the master of an audiobook. Each reads
the latest version, puts the object under the key of the next one, and then commits its row, in
three steps of their own.

- `ArtifactRow`: a row of one of the four tables, as far as it is about the version and the object.
- `storeBookVersion`, `insertAudioChunk`, `storeMaster`: the transactions that commit a row.
- `artifactSystem`: any interleaving of the workers.
-/

namespace AudioBook.Artifacts

open Relational Concurrent

/-! ## Rows and Objects -/

inductive ArtifactKind
  | bookVersion
  | audioChunk
  | chapterAudio
  | audiobook
  deriving DecidableEq

/-- The key of an object, as `buildStorageKey` makes it of the owner of an artifact and a version. -/
structure VersionKey where
  kind : ArtifactKind
  /-- The book, the script chunk or the chapter that the artifact is of. -/
  ownerId : Id
  version : ℕ
  deriving DecidableEq

/-- A row of `book_version`, `audio_chunk`, `chapter_audio` or `audiobook`. -/
structure ArtifactRow where
  id : Id
  kind : ArtifactKind
  ownerId : Id
  version : ℕ
  isCurrent : Bool := true
  supersededById : Option Id := none
  /-- What the artifact was made from: the hash of the content with the pipeline's version, the
  lineage of the audio, or the hash of the manifest. -/
  sourceHash : Hash
  failed : Bool := false
  storageKey : VersionKey
  contentHash : Hash
  deriving DecidableEq

/-- What the workers share; an object is the hash of its bytes. -/
structure ArtifactStore where
  rows : List ArtifactRow := []
  objects : VersionKey → Option Hash := fun _ => none
  /-- The jobs that are `SUCCEEDED` or `FAILED`. -/
  finishedJobs : List Id := []

def ArtifactRow.IsOf (row : ArtifactRow) (kind : ArtifactKind) (ownerId : Id) : Prop :=
  row.kind = kind ∧ row.ownerId = ownerId

instance (row : ArtifactRow) (kind : ArtifactKind) (ownerId : Id) :
    Decidable (row.IsOf kind ownerId) := inferInstanceAs (Decidable (_ ∧ _))

/-- The key of the unique indexes on the version; `audio_chunk` has none. -/
def versionKey (row : ArtifactRow) : Option (ArtifactKind × Id × ℕ) :=
  if row.kind = .audioChunk then none else some (row.kind, row.ownerId, row.version)

/-- The key of `book_version_current_key`, `audio_chunk_current_key`, `chapter_audio_current_key`
and `audiobook_current_key`. -/
def currentKey (row : ArtifactRow) : Option (ArtifactKind × Id) :=
  if row.isCurrent then some (row.kind, row.ownerId) else none

/-- The key of `chapter_audio_manifest_key` and `book_version_pipeline_content_hash_key`. -/
def sourceKey (row : ArtifactRow) : Option (ArtifactKind × Id × Hash) :=
  match row.kind with
  | .chapterAudio => some (row.kind, row.ownerId, row.sourceHash)
  | .bookVersion =>
      if row.supersededById.isNone then some (row.kind, row.ownerId, row.sourceHash) else none
  | _ => none

def artifact : Table ArtifactStore ArtifactRow where
  rows := ArtifactStore.rows
  setRows rows s := { s with rows := rows }
  constraints := [
    .uniqueWhere fun row => some row.id,
    .uniqueWhere versionKey,
    .uniqueWhere currentKey,
    .uniqueWhere sourceKey,
    .selfReference ArtifactRow.id ArtifactRow.supersededById]

/-! ## Transactions -/

abbrev ArtifactTx := Transaction ArtifactStore Fault

def retire (row : ArtifactRow) : ArtifactRow := { row with isCurrent := false }

def supersede (id : Id) (row : ArtifactRow) : ArtifactRow :=
  { row with isCurrent := false, supersededById := some id }

/-- The status becomes `FAILED`. -/
def markFailed (row : ArtifactRow) : ArtifactRow := { row with failed := true }

/-- The transactions of `processAssembleChapterJob` and `processAssembleAudiobookJob`: the current
row is retired, and the new one created. -/
def storeMaster (row : ArtifactRow) : ArtifactTx Unit := do
  artifact.update (fun other => decide (other.IsOf row.kind row.ownerId ∧ other.isCurrent)) retire
  artifact.insert row

/-- The transaction of `persistIngestionResult`: content that is there already is merged; otherwise
the new row is created, and then the current one retired. -/
def storeBookVersion (row : ArtifactRow) : ArtifactTx Unit := do
  let existing := (← get).rows.any fun other => decide (other.IsOf .bookVersion row.ownerId ∧
    other.sourceHash = row.sourceHash ∧ other.supersededById = none)
  if existing then return else
  artifact.insert row
  artifact.update
    (fun other => decide (other.IsOf .bookVersion row.ownerId ∧ other.isCurrent ∧
      other.id ≠ row.id)) (supersede row.id)

/-- `insert_audio_chunk`: the current row is pointed at the new one, and then that is inserted. -/
def insertAudioChunk (row : ArtifactRow) : ArtifactTx Unit := do
  let current := (← get).rows.find? fun other =>
    decide (other.IsOf .audioChunk row.ownerId ∧ other.isCurrent)
  match current with
  | some old => artifact.update (fun other => decide (other.id = old.id)) (supersede row.id)
  | none => pure ()
  artifact.insert row

/-- The transaction that commits a row, by the worker that makes it. -/
def storeArtifact (row : ArtifactRow) : ArtifactTx Unit :=
  match row.kind with
  | .bookVersion => storeBookVersion row
  | .audioChunk => insertAudioChunk row
  | .chapterAudio | .audiobook => storeMaster row

/-- The job becomes `SUCCEEDED` or `FAILED`. -/
def finishJob (jobId : Id) : ArtifactTx Unit :=
  modify fun s => { s with finishedJobs := jobId :: s.finishedJobs }

/-! ## Accesses -/

inductive ArtifactAccess
  | query
  | put (key : VersionKey) (content : Hash)
  | commit (jobId : Id) (row : ArtifactRow)
  /-- The job becomes `SUCCEEDED` or `FAILED`. -/
  | finishJob (jobId : Id)
  | failAudiobook (id : Id)

def ArtifactAccess.transaction : ArtifactAccess → ArtifactTx Unit
  | query => pure ()
  | put key content => modify fun s => { s with objects := Function.update s.objects key (some content) }
  | commit jobId row => do
      storeArtifact row
      Artifacts.finishJob jobId
  | .finishJob jobId => Artifacts.finishJob jobId
  | failAudiobook id =>
      artifact.update (fun row => decide (row.id = id ∧ row.kind = .audiobook)) markFailed

abbrev ArtifactProg := Prog ArtifactStore ArtifactAccess Fault

def query {α : Type} (f : ArtifactStore → α) : ArtifactProg α := Prog.read .query f

def run (a : ArtifactAccess) : ArtifactProg Unit := Prog.atomically a a.transaction

/-! ## Workers -/

/-- One delivery of a job: what the worker finds in the job and its sources, and what it makes. -/
structure Delivery where
  jobId : Id
  ownerId : Id
  sourceHash : Hash
  /-- The hash of the bytes that this run makes. -/
  content : Hash
  /-- The id that `generateId` hands out for the row. -/
  artifactId : Id
  isFinalAttempt : Bool := false

/-- `MAX(version) + 1` over the rows of an artifact. -/
def nextVersion (kind : ArtifactKind) (ownerId : Id) (s : ArtifactStore) : ℕ :=
  ((s.rows.filter fun row => decide (row.IsOf kind ownerId)).map ArtifactRow.version).foldr max 0 + 1

def Delivery.row (d : Delivery) (kind : ArtifactKind) (version : ℕ) : ArtifactRow where
  id := d.artifactId
  kind := kind
  ownerId := d.ownerId
  version := version
  sourceHash := d.sourceHash
  storageKey := ⟨kind, d.ownerId, version⟩
  contentHash := d.content

/-- Read the latest version, put the object of the next one and commit its row; the failure of the
final attempt is recorded. -/
def storeNextVersion (kind : ArtifactKind) (d : Delivery) : ArtifactProg Unit :=
  tryCatch (do
    let version ← query (nextVersion kind d.ownerId)
    run (.put ⟨kind, d.ownerId, version⟩ d.content)
    run (.commit d.jobId (d.row kind version))) fun err => do
      if d.isFinalAttempt then run (.finishJob d.jobId)
      throw err

/-- The delivery of a job that is not finished; a worker that finds its result there is done. -/
def process (kind : ArtifactKind) (isThere : ArtifactRow → Bool) (d : Delivery) :
    ArtifactProg Unit := do
  if ← query fun s => decide (d.jobId ∈ s.finishedJobs) then return else
  if ← query fun s => s.rows.any fun row => decide (row.IsOf kind d.ownerId) && isThere row then
    run (.finishJob d.jobId) else
  storeNextVersion kind d

/-- `processIngestionJob`: it does not look for its result before it stores it. -/
def processIngestionJob (d : Delivery) : ArtifactProg Unit := process .bookVersion (fun _ => false) d

def handleGenerateTtsChunk (d : Delivery) : ArtifactProg Unit :=
  process .audioChunk (fun row => row.isCurrent && decide (row.sourceHash = d.sourceHash)) d

def processAssembleChapterJob (d : Delivery) : ArtifactProg Unit :=
  process .chapterAudio (fun row => decide (row.sourceHash = d.sourceHash)) d

def processAssembleAudiobookJob (d : Delivery) : ArtifactProg Unit :=
  process .audiobook (fun row => decide (row.sourceHash = d.sourceHash) && !row.failed) d

/-! ## The System -/

inductive ArtifactRequest
  | parseBook (d : Delivery)
  | generateTtsChunk (d : Delivery)
  | assembleChapter (d : Delivery)
  | assembleAudiobook (d : Delivery)
  | failAudiobook (id : Id)

/-- Any number of deliveries at once, from a store without rows. -/
def artifactSystem : System ArtifactStore ArtifactRequest ArtifactAccess Fault where
  init s := s.rows = []
  enabled _ _ := True
  program
    | .parseBook d => processIngestionJob d
    | .generateTtsChunk d => handleGenerateTtsChunk d
    | .assembleChapter d => processAssembleChapterJob d
    | .assembleAudiobook d => processAssembleAudiobookJob d
    | .failAudiobook id => run (.failAudiobook id)

instance (i : ArtifactRequest) (s : ArtifactStore) : Decidable (artifactSystem.enabled i s) :=
  isTrue trivial

end AudioBook.Artifacts
