import AudioBook.Assembly.Shared

/-!
# Encoding a Delivery Format

`processEncodeDeliveryFormatJob`: encode an audiobook in one format, and publish the audiobook
when every requested format is ready.
-/

namespace AudioBook

open Concurrent

/-! ## Renditions -/

def findRendition (audiobookId : Id) (format : DeliveryFormat) (chapterId : Option Id)
    (s : Store) : Option AudiobookRendition :=
  s.audiobookRenditions.find? fun r => decide (r.audiobookId = audiobookId ∧ r.format = format ∧
    r.chapterId = chapterId)

def verifiedRendition (renditionId audiobookId : Id) (format : DeliveryFormat)
    (chapterId : Option Id) : AudiobookRendition where
  id := renditionId
  audiobookId := audiobookId
  format := format
  chapterId := chapterId
  status := .ready
  matchesCurrentPolicy := true

/-- `upsertRendition` with a verified rendition: the query and the write are separate. -/
def upsertRendition (audiobookId : Id) (format : DeliveryFormat) (chapterId : Option Id) :
    Service Unit := do
  match ← query (findRendition audiobookId format chapterId) with
  | some existing =>
      perform (.updateRendition existing.id
        (verifiedRendition existing.id audiobookId format chapterId))
  | none =>
      let renditionId ← freshId
      perform (.createRendition (verifiedRendition renditionId audiobookId format chapterId))

def encodeSingleFileFormat (audiobookId : Id) (format : DeliveryFormat) : Service Unit := do
  -- Encoding, verification and the upload.
  external
  upsertRendition audiobookId format none

/-- `encodeMp3PerChapter`: chapters that are ready under the current policy are skipped. -/
def encodeMp3PerChapter (audiobookId : Id) : List AudiobookChapter → Service Unit
  | [] => pure ()
  | chapter :: chapters => do
      let existing ← query fun s => s.audiobookRenditions.find? fun r =>
        decide (r.audiobookId = audiobookId ∧ r.format = .mp3PerChapter ∧
          r.chapterId = some chapter.chapterId ∧ r.status = .ready)
      if ¬ existing.any AudiobookRendition.matchesCurrentPolicy then
        external
        upsertRendition audiobookId .mp3PerChapter (some chapter.chapterId)
      encodeMp3PerChapter audiobookId chapters

/-! ## The Publication Gate -/

/-- Whether each of some formats is ready, asked one after the other. -/
def allFormatsFullyReady (audiobookId : Id) (chapterCount : ℕ) :
    List DeliveryFormat → Service Bool
  | [] => pure true
  | format :: formats => do
      let ready ← query (isFormatFullyReady audiobookId format chapterCount)
      let rest ← allFormatsFullyReady audiobookId chapterCount formats
      return ready && rest

/-- `maybePublishAudiobook`, for the audiobook as the processor read it. -/
def maybePublishAudiobook (audiobook : Audiobook) : Service Unit := do
  if audiobook.status = .ready then return
  let requestedFormats ← resolveRequestedDeliveryFormats audiobook.id
  if requestedFormats = [] then return
  let ready ← allFormatsFullyReady audiobook.id audiobook.chapterCount requestedFormats
  if ¬ ready then return
  -- `sumRenditionSizeBytes`.
  query fun _ => ()
  match ← query (findAudiobook audiobook.id) with
  | none => return
  | some current =>
      if current.status = .ready then return
      perform (.publish audiobook.id audiobook.bookId)

/-! ## The Processor -/

def handleEncodeFailure (job : ProcessingJob) (audiobook : Audiobook) (format : DeliveryFormat)
    (err : Fault) (d : Delivery) : Service Unit := do
  if ¬ d.isFinalAttempt then return
  match ← query (findJob job.id) with
  | none => return
  | some current =>
      if current.status = .failed then return
      let existing ← query (findRendition audiobook.id format none)
      let newId ← freshId
      let currentAudiobook ← query (findAudiobook audiobook.id)
      perform (.failEncode job.id current.status (errorCodeOf err .deliveryFormatEncodeFailed)
        audiobook.id format (existing.map AudiobookRendition.id) newId
        (currentAudiobook.any fun a => decide (a.status ≠ .ready)))

/-- The body of the processor's `try`: encode, record the success, and publish. -/
def encodeDeliveryFormat (job : ProcessingJob) (audiobook : Audiobook)
    (format : DeliveryFormat) : Service Unit := do
  -- `resolveAudioToolModelVersionId` and the download of the master.
  external
  match format with
  | .mp3PerChapter => encodeMp3PerChapter audiobook.id audiobook.chapters
  | _ => encodeSingleFileFormat audiobook.id format
  perform (.markSucceeded job.id .running)
  maybePublishAudiobook audiobook

def processEncodeDeliveryFormatJob (audiobookId : Id) (format : DeliveryFormat) (d : Delivery) :
    Service Unit := do
  match d.envelope.entityId with
  | none => throw .uncoded
  | some processingJobId =>
  match ← query (findJob processingJobId) with
  | none => throw .uncoded
  | some job =>
  if job.status = .succeeded ∨ job.status = .failed then return
  match ← query (findAudiobook audiobookId) with
  | none => throw .uncoded
  | some audiobook =>
  if ← query (isFormatFullyReady audiobook.id format audiobook.chapterCount) then
    perform (.markSucceeded job.id job.status)
    maybePublishAudiobook audiobook
    return
  perform (.markRunning job.id job.status)
  tryCatch (encodeDeliveryFormat job audiobook format) fun err => do
    handleEncodeFailure job audiobook format err d
    throw err

end AudioBook
