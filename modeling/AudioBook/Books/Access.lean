import AudioBook.Books.Store
import AudioBook.Concurrent.Program

/-!
# The Accesses of a Book's Lifecycle

Every access that the lifecycle of a book makes to what is shared, with the transaction it runs:
those of the API, of the purge and of the retention sweep, and those of the workers that store the
artifacts of a book.
-/

namespace AudioBook.Books

open Relational Concurrent

/-- The row of an artifact that a worker stores, after its objects were uploaded. -/
inductive Publication
  | bookFile (row : BookRow .bookFile)
  | bookVersion (row : BookRow .bookVersion)
  | audioChunk (row : BookRow .audioChunk)
  | chapterAudio (row : BookRow .chapterAudio)
  | audiobook (audiobookId bookId : Id) (containerFormat : DeliveryFormat) (storageKey : StorageKey)
  | rendition (row : BookRow .audiobookRendition)

namespace Publication

def bookId : Publication → Option Id
  | bookFile row => row.bookId
  | bookVersion row => row.bookId
  | audioChunk row => row.bookId
  | chapterAudio row => row.bookId
  | audiobook _ bookId _ _ => some bookId
  | rendition row => row.bookId

def objectKeys : Publication → List StorageKey
  | bookFile row => row.objectKeys
  | bookVersion row => row.objectKeys
  | audioChunk row => row.objectKeys
  | chapterAudio row => row.objectKeys
  | audiobook _ _ _ storageKey => [storageKey]
  | rendition row => row.objectKeys

end Publication

inductive BookAccess
  | query
  | softDelete (bookId : Id)
  | restore (bookId : Id)
  | createPurge (bookId tenantId : Id)
  | enqueue (message : PurgeMessage)
  | markQueued (jobId : Id)
  | startPurge (jobId : Id)
  | deleteObject (key : StorageKey)
  | deleteByBookId (t : BookTable) (bookId : Id)
  | deleteVersions (voiceProfileId : Id)
  /-- Delete the voice profiles of scope `BOOK` of a book. -/
  | deleteBookProfiles (bookId : Id)
  | deleteDependencies (jobIds : List Id)
  | deleteJobs (jobIds : List Id)
  | deleteBook (bookId : Id)
  | recordStorageBytesDelta (delta : ℤ)
  | recordPurged (bookId : Id)
  | finishPurge (jobId : Id)
  | failPurge (jobId : Id)
  | putObject (key : StorageKey)
  | publish (artifact : Publication)
  | publishAudiobook (audiobookId : Id)
  /-- The storage class of some book files becomes `EXPIRED`. -/
  | expireBookFiles (ids : List Id)
  /-- The storage class of some audio chunks becomes `EXPIRED`. -/
  | expireAudioChunks (ids : List Id)

/-! ## Transactions -/

/-- The row that `purgeBook` creates. -/
def purgeJob (jobId bookId tenantId : Id) : BookJob where
  id := jobId
  tenantId := tenantId
  bookId := some bookId
  idempotencyKey := .purgeBook bookId
  dispatchEnvelope := some ⟨jobId, bookId⟩

def createPurge (bookId tenantId : Id) : BookTx Id := fun s =>
  (do
    processingJob.insert (purgeJob s.nextId bookId tenantId)
    return s.nextId : BookTx Id) { s with nextId := s.nextId + 1 }

/-- Put a message on the maintenance queue, under the id of its job. -/
def addMessage (message : PurgeMessage) : BookTx Unit :=
  modify fun s =>
    if s.queue.any fun m => decide (m.jobId = message.jobId) then s
    else { s with queue := s.queue ++ [message] }

/-- Change the rows of a table that satisfy `p`. -/
def updateRows (t : BookTable) (p : BookRow t → Bool) (f : BookRow t → BookRow t) : BookTx Unit :=
  modify fun s => s.setRows t (updateWhere p f (s.rows t))

/-- Insert a row; its id is the primary key. -/
def insertRow (t : BookTable) (row : BookRow t) : BookTx Unit := do
  if ((← get).rows t).any fun row' => decide (row'.id = row.id) then throw (.violation .unique)
  else modify fun s => s.setRows t (s.rows t ++ [row])

def retireAudioChunk (row : BookRow .audioChunk) : BookRow .audioChunk :=
  { row with data := { (row.data : AudioChunkData) with isCurrent := false, status := .superseded } }

/-- The audio of a chapter is replaced; its status stays. -/
def retireChapterAudio (row : BookRow .chapterAudio) : BookRow .chapterAudio :=
  { row with data := { (row.data : ChapterAudioData) with isCurrent := false } }

/-- The audiobook of a book is replaced; its status stays. -/
def retireAudiobook (row : BookRow .audiobook) : BookRow .audiobook :=
  { row with data := { (row.data : AudiobookData) with isCurrent := false } }

def sameRendition (row row' : BookRow .audiobookRendition) : Bool :=
  decide (row'.id = row.id)

/-- Store the row of an artifact, in place of the row that it supersedes. -/
def storeArtifact : Publication → BookTx Unit
  | .bookFile row => insertRow .bookFile row
  | .bookVersion row => do
      insertRow .bookVersion row
      match row.bookId with
      | some bookId => updateBook bookId fun b => { b with currentBookVersionId := some row.id }
      | none => pure ()
  | .audioChunk row => do
      updateRows .audioChunk (fun row' =>
        decide ((row'.data : AudioChunkData).audioScriptChunkId =
          (row.data : AudioChunkData).audioScriptChunkId ∧ (row'.data : AudioChunkData).isCurrent))
        retireAudioChunk
      insertRow .audioChunk row
  | .chapterAudio row => do
      updateRows .chapterAudio (fun row' =>
        decide ((row'.data : ChapterAudioData).chapterId = (row.data : ChapterAudioData).chapterId ∧
          (row'.data : ChapterAudioData).isCurrent))
        retireChapterAudio
      insertRow .chapterAudio row
  | .audiobook audiobookId bookId containerFormat storageKey => do
      updateRows .audiobook (fun row' =>
        decide (row'.bookId = some bookId ∧ (row'.data : AudiobookData).isCurrent))
        retireAudiobook
      insertRow .audiobook ⟨audiobookId, some bookId, ({
        isCurrent := true
        status := .assembling
        containerFormat := containerFormat
        storageKey := storageKey } : AudiobookData)⟩
  | .rendition row => do
      if ((← get).rows .audiobookRendition).any (sameRendition row) then
        updateRows .audiobookRendition (sameRendition row) fun _ => row
      else insertRow .audiobookRendition row

def BookAccess.transaction : BookAccess → BookTx Unit
  | query => pure ()
  | softDelete bookId => updateBook bookId fun b => { b with deleted := true }
  | restore bookId => updateBook bookId fun b => { b with deleted := false }
  | .createPurge bookId tenantId => do
      let _ ← Books.createPurge bookId tenantId
  | enqueue message => addMessage message
  | markQueued jobId => updateJob jobId fun job => { job with queued := true }
  | startPurge jobId => updateJob jobId fun job => { job with status := .running }
  | deleteObject key => modify fun s => { s with objects := s.objects.filter fun k => decide (k ≠ key) }
  | deleteByBookId t bookId => deleteRows t fun row => decide (row.bookId = some bookId)
  | deleteVersions voiceProfileId => deleteRows .voiceProfileVersion fun row =>
      decide ((row.data : VoiceProfileVersionData).voiceProfileId = voiceProfileId)
  | deleteBookProfiles bookId => deleteRows .voiceProfile fun row =>
      decide (row.bookId = some bookId ∧ row.scope = .book)
  | deleteDependencies jobIds => deleteRows .jobDependency fun row =>
      decide ((row.data : JobDependencyData).jobId ∈ jobIds ∨
        (row.data : JobDependencyData).dependsOnJobId ∈ jobIds)
  | deleteJobs jobIds => processingJob.statement fun jobs =>
      jobs.filter fun job => decide (job.id ∉ jobIds)
  | deleteBook bookId => deleteBookRow bookId
  | recordStorageBytesDelta delta => modify fun s => { s with storageBytes := s.storageBytes + delta }
  | recordPurged bookId => modify fun s => { s with purged := s.purged ++ [bookId] }
  | finishPurge jobId => updateJob jobId fun job => { job with status := .succeeded }
  | failPurge jobId => updateJob jobId fun job => { job with status := .failed }
  | putObject key => modify fun s => { s with objects := s.objects ++ [key] }
  | publish artifact => do
      if (← get).books.any fun b => decide (some b.id = artifact.bookId) then storeArtifact artifact
      else throw (.violation .foreignKey)
  | publishAudiobook audiobookId => updateRows .audiobook (fun row => decide (row.id = audiobookId))
      fun row => { row with data := { (row.data : AudiobookData) with status := .ready } }
  | expireBookFiles ids => updateRows .bookFile (fun row => decide (row.id ∈ ids)) fun row =>
      { row with data := { (row.data : BookFileData) with storageClass := .expired } }
  | expireAudioChunks ids => updateRows .audioChunk (fun row => decide (row.id ∈ ids)) fun row =>
      { row with data := { (row.data : AudioChunkData) with storageClass := .expired } }

/-! ## Programs -/

/-- A program over what is shared. -/
abbrev BookProg := Prog BookStore BookAccess BookError

def query {α : Type} (f : BookStore → α) : BookProg α := Prog.read .query f

def run (a : BookAccess) : BookProg Unit := Prog.atomically a a.transaction

end AudioBook.Books
