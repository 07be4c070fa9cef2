import AudioBook.Assembly.Access
import Mathlib.Data.List.Sort

/-!
# What the Assembly Processors Share

The queries and checks of `assembly-shared.ts`, and the queries that several processors make.
-/

namespace AudioBook

open Concurrent

/-! ## Queries -/

def findBook (bookId : Id) (s : Store) : Option Book :=
  s.books.find? fun book => decide (book.id = bookId)

def findChapter (chapterId : Id) (s : Store) : Option Chapter :=
  s.chapters.find? fun chapter => decide (chapter.id = chapterId)

def findAudiobook (audiobookId : Id) (s : Store) : Option Audiobook :=
  s.audiobooks.find? fun a => decide (a.id = audiobookId)

def chaptersOfVersion (bookVersionId : Id) (s : Store) : List Chapter :=
  (s.chapters.filter fun c => decide (c.bookVersionId = bookVersionId)).insertionSort
    fun a b => a.orderIndex ≤ b.orderIndex

structure OrderedChunk where
  chunk : AudioScriptChunk
  currentAudioChunk : Option AudioChunk

def currentChunks (chapterId : Id) (s : Store) : List OrderedChunk :=
  ((s.audioScriptChunks.filter fun c => decide (c.chapterId = chapterId ∧ c.isCurrent)).insertionSort
    fun a b => a.chapterSequenceIndex ≤ b.chapterSequenceIndex).map fun c =>
      { chunk := c
        currentAudioChunk := c.currentAudioChunkId.bind fun i =>
          s.audioChunks.find? fun a => decide (a.id = i) }

/-- The chunk has current audio, and it is `VALIDATED`. -/
def OrderedChunk.isValidated (c : OrderedChunk) : Bool :=
  match c.currentAudioChunk with
  | some audio => decide (audio.status = .validated)
  | none => false

/-- A chapter's chunks are there and all of them are validated. -/
def manifestComplete (chunks : List OrderedChunk) : Bool :=
  decide (chunks ≠ []) && chunks.all OrderedChunk.isValidated

/-- The ordered `id:contentHash` pairs of a chapter's audio. -/
def chunkManifest (chunks : List OrderedChunk) : List (Id × Hash) :=
  chunks.filterMap fun c => c.currentAudioChunk.map fun audio => (audio.id, audio.contentHash)

/-- The Director versions of chunks, without repetitions. -/
def directorVersions (chunks : List OrderedChunk) : List ℕ :=
  (chunks.map fun c => c.chunk.directorVersion).dedup

def currentAssembledAudio (chapterId : Id) (s : Store) : Option ChapterAudio :=
  s.chapterAudios.find? fun a =>
    decide (a.chapterId = chapterId ∧ a.isCurrent ∧ a.status = .assembled)

def findChapterAudio (chapterId : Id) (chunkManifestHash : Hash) (s : Store) :
    Option ChapterAudio :=
  s.chapterAudios.find? fun a => decide (a.chapterId = chapterId ∧
    a.chunkManifestHash = chunkManifestHash ∧ a.isPreviewBuild = false)

/-- `MAX(version) + 1` over the audio of a chapter. -/
def nextChapterAudioVersion (chapterId : Id) (s : Store) : ℕ :=
  ((s.chapterAudios.filter fun a => decide (a.chapterId = chapterId)).map
    ChapterAudio.version).foldr max 0 + 1

/-- `MAX(version) + 1` over the audiobooks of a book. -/
def nextAudiobookVersion (bookId : Id) (s : Store) : ℕ :=
  ((s.audiobooks.filter fun a => decide (a.bookId = bookId)).map Audiobook.version).foldr max 0 + 1

/-! ## Readiness of an Audiobook -/

structure AudiobookReadiness where
  ready : Bool
  bookVersionId : Option Id

/-- `checkAudiobookReadiness`: every chapter of the book's current version has current, assembled
audio. -/
def checkAudiobookReadiness (bookId : Id) : Service AudiobookReadiness := do
  match (← query (findBook bookId)).bind Book.currentBookVersionId with
  | none => return { ready := false, bookVersionId := none }
  | some bookVersionId =>
      let totalChapters ← query fun s => (chaptersOfVersion bookVersionId s).length
      if totalChapters = 0 then
        return { ready := false, bookVersionId := some bookVersionId }
      let notReadyChapters ← query fun s => (chaptersOfVersion bookVersionId s).countP fun c =>
        (currentAssembledAudio c.id s).isNone
      return { ready := decide (notReadyChapters = 0), bookVersionId := some bookVersionId }

/-! ## Readiness of a Format -/

/-- The formats of all encode jobs that were created for an audiobook. -/
def requestedFormats (audiobookId : Id) (s : Store) : List DeliveryFormat :=
  (s.processingJobs.filterMap fun job =>
    if job.type = .encodeDeliveryFormat ∧ job.relatedResourceType = .audiobook ∧
      job.relatedResourceId = audiobookId then job.scope.bind JobScope.format else none).dedup

def resolveRequestedDeliveryFormats (audiobookId : Id) : Service (List DeliveryFormat) :=
  Prog.read (.requestedFormats audiobookId) (requestedFormats audiobookId)

/-- The `READY` renditions of an audiobook's chapters as MP3. -/
def readyMp3Renditions (audiobookId : Id) (s : Store) : List AudiobookRendition :=
  s.audiobookRenditions.filter fun r => decide (r.audiobookId = audiobookId ∧
    r.format = .mp3PerChapter ∧ r.status = .ready ∧ r.chapterId ≠ none)

/-- The `READY` rendition of an audiobook in a single-file format. -/
def readyRendition (audiobookId : Id) (format : DeliveryFormat) (s : Store) :
    Option AudiobookRendition :=
  s.audiobookRenditions.find? fun r => decide (r.audiobookId = audiobookId ∧
    r.format = format ∧ r.status = .ready ∧ r.chapterId = none)

def isDeliveryFormatReady (audiobookId : Id) (format : DeliveryFormat) (chapterCount : ℕ)
    (s : Store) : Bool :=
  if format = .mp3PerChapter then
    decide ((readyMp3Renditions audiobookId s).length = chapterCount)
  else (readyRendition audiobookId format s).isSome

/-- `isFormatFullyReady`: as `isDeliveryFormatReady`, and encoded under the current policy. -/
def isFormatFullyReady (audiobookId : Id) (format : DeliveryFormat) (chapterCount : ℕ)
    (s : Store) : Bool :=
  if format = .mp3PerChapter then
    decide ((readyMp3Renditions audiobookId s).length = chapterCount) &&
      (readyMp3Renditions audiobookId s).all AudiobookRendition.matchesCurrentPolicy
  else (readyRendition audiobookId format s).any AudiobookRendition.matchesCurrentPolicy

/-! ## Deliveries -/

/-- A message handed to a worker, once. -/
structure Delivery where
  envelope : Envelope
  attemptsMade : ℕ
  /-- The digest of what mastering produces in this attempt. -/
  masterHash : Hash

def assemblyMaxAttempts : ℕ := 3

/-- The delivery is the last one that the broker makes for a failing message. -/
def Delivery.isFinalAttempt (d : Delivery) : Prop := assemblyMaxAttempts ≤ d.attemptsMade + 1

instance (d : Delivery) : Decidable d.isFinalAttempt := inferInstanceAs (Decidable (_ ≤ _))

/-- What every failure handler of the processors does: re-read the job, leave it alone when it is
gone or in a status of `settled`, and mark it as failed otherwise. -/
def recordFailure (jobId : Id) (settled : List JobStatus) (errorCode : ErrorCode) :
    Service Unit := do
  match ← query (findJob jobId) with
  | none => return
  | some current =>
      if current.status ∈ settled then return
      perform (.markFailed jobId current.status errorCode)

end AudioBook
