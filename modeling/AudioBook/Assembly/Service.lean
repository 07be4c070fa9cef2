import AudioBook.Assembly.Audiobook
import AudioBook.Assembly.Chapter

/-!
# The Assembly API

`startAssembly` of the API's assembly service: check the requested chapters, create one job for
every chapter whose manifest has changed, or enqueue the audiobook when none has.
-/

namespace AudioBook

open Concurrent

structure StartAssembly where
  scope : AssemblyScope
  chapterIds : List Id := []
  deliveryFormats : List DeliveryFormat := []
  allowPartialPreview : Bool := false
  force : Bool := false

def resolveTargetChapters (book : Book) (body : StartAssembly) : Service (List Chapter) :=
  match body.scope, book.currentBookVersionId with
  | .chapter, _ =>
      if body.chapterIds = [] then throw .uncoded
      else query fun s => (s.chapters.filter fun c =>
        decide (c.id ∈ body.chapterIds ∧ c.bookId = book.id)).insertionSort
          fun a b => a.orderIndex ≤ b.orderIndex
  | .audiobook, none => throw .uncoded
  | .audiobook, some bookVersionId => query (chaptersOfVersion bookVersionId)

structure TargetChapter where
  chapterId : Id
  chunks : List OrderedChunk

def targetChunks (chapters : List Chapter) (s : Store) : List TargetChapter :=
  chapters.map fun c => { chapterId := c.id, chunks := currentChunks c.id s }

def currentChapterAudio (chapterId : Id) (s : Store) : Option ChapterAudio :=
  s.chapterAudios.find? fun a => decide (a.chapterId = chapterId ∧ a.isCurrent)

/-- The message of an `assemble_chapter` job. -/
def chapterEnvelope (jobId chapterId : Id) : Envelope where
  jobId := jobId
  entityId := some jobId
  payload := .assembleChapter chapterId

def chapterJob (jobId bookId chapterId : Id) (manifestHash : Hash) (scope : JobScope) :
    ProcessingJob where
  id := jobId
  bookId := some bookId
  type := .assembleChapter
  relatedResourceType := .chapter
  relatedResourceId := chapterId
  scope := some scope
  idempotencyKey := .assembleChapter chapterId manifestHash
  dispatchEnvelope := some (chapterEnvelope jobId chapterId)

/-- The job that `maybeEnqueueAssembleAudiobook` creates; it has no scope. -/
def audiobookJob (jobId bookId bookVersionId : Id) (manifestHash : Hash)
    (primaryFormat : DeliveryFormat) (deliveryFormats : List DeliveryFormat) : ProcessingJob where
  id := jobId
  bookId := some bookId
  type := .assembleAudiobook
  relatedResourceType := .bookVersion
  relatedResourceId := bookVersionId
  idempotencyKey := .assembleAudiobookManifest bookVersionId manifestHash primaryFormat
  dispatchEnvelope := some (audiobookEnvelope jobId bookId deliveryFormats)

def freshIdsFor {α : Type} : List α → Service (List (Id × α))
  | [] => pure []
  | a :: as => do
      let i ← freshId
      return (i, a) :: (← freshIdsFor as)

/-- Enqueue messages side by side: one that fails does not keep the others from being sent. -/
def enqueueAll : List Envelope → Service Unit
  | [] => pure ()
  | envelope :: envelopes => do
      let failure ← tryCatch (do enqueueProcessingJob envelope; return none) fun e => pure (some e)
      enqueueAll envelopes
      match failure with
      | some e => throw e
      | none => pure ()

variable (computeManifestHash : List (Id × Hash) → Hash)

/-- An audiobook of a manifest that is `READY` with every requested format. -/
def findReadyAudiobook (bookId : Id) (manifestHash : Hash) (deliveryFormats : List DeliveryFormat)
    (s : Store) : Bool :=
  match s.audiobooks.find? fun a => decide (a.bookId = bookId ∧
      a.chapterManifestHash = manifestHash ∧ a.status = .ready) with
  | none => false
  | some existing => deliveryFormats.all fun f => decide (f = existing.containerFormat) ||
      s.audiobookRenditions.any fun r =>
        decide (r.audiobookId = existing.id ∧ r.status = .ready ∧ r.format = f)

def maybeEnqueueAssembleAudiobook (book : Book) (chapterIds : List Id)
    (deliveryFormats : List DeliveryFormat) (force : Bool) : Service Unit := do
  match book.currentBookVersionId with
  | none => return
  | some bookVersionId =>
      let chapters ← query fun s => (s.chapters.filter fun c =>
        decide (c.id ∈ chapterIds)).insertionSort fun a b => a.orderIndex ≤ b.orderIndex
      let withAudio ← query fun s => chapters.map fun c => (c, currentChapterAudio c.id s)
      match orderedChapterAudios withAudio with
      | none => return
      | some ordered =>
          let manifestHash := computeManifestHash (chapterManifest ordered)
          let primaryFormat := deliveryFormats.headD .m4b
          if ¬ force then
            if ← query (findReadyAudiobook book.id manifestHash deliveryFormats) then return
          let jobId ← freshId
          perform (.createJobs
            [audiobookJob jobId book.id bookVersionId manifestHash primaryFormat deliveryFormats])
          enqueueProcessingJob (audiobookEnvelope jobId book.id deliveryFormats)

/-- The candidates whose manifest differs from that of their current audio, or all of them when
the request is forced. -/
def chaptersToAssemble (candidates : List TargetChapter) (force : Bool) (s : Store) :
    List (Id × Hash) :=
  candidates.filterMap fun c =>
    let manifestHash := computeManifestHash (chunkManifest c.chunks)
    if (currentChapterAudio c.chapterId s).any (fun a => decide (a.chunkManifestHash = manifestHash))
      && !force then none
    else some (c.chapterId, manifestHash)

/-- The checks of `startAssembly` on the chunks of the target chapters: complete manifests unless
a partial preview is allowed, one Director version, and the book's metadata. -/
def assemblyRejection (book : Book) (body : StartAssembly) (targets : List TargetChapter) :
    Option Fault :=
  if (targets.any fun t => !manifestComplete t.chunks) ∧ ¬ body.allowPartialPreview then
    some (.coded .chapterManifestIncomplete)
  else if 1 < (directorVersions ((targets.filter fun t => manifestComplete t.chunks).flatMap
      TargetChapter.chunks)).length then
    some (.coded .directorVersionMixingForbidden)
  else if body.scope = .audiobook ∧ ¬ book.metadataComplete then some .uncoded
  else none

def createChapterJobs (bookId : Id) (body : StartAssembly) (toAssemble : List (Id × Hash)) :
    Service Unit := do
  let withIds ← freshIdsFor toAssemble
  perform (.createJobs (withIds.map fun (jobId, chapterId, manifestHash) =>
    chapterJob jobId bookId chapterId manifestHash
      { scope := some body.scope
        deliveryFormats := deliveryFormatsOrDefault body.deliveryFormats }))
  enqueueAll (withIds.map fun (jobId, chapterId, _) => chapterEnvelope jobId chapterId)

def startAssembly (bookId : Id) (body : StartAssembly) : Service Unit := do
  match ← query (findBook bookId) with
  | none => throw .uncoded
  | some book =>
  match ← resolveTargetChapters book body with
  | [] => throw .uncoded
  | chapters =>
  let targets ← query (targetChunks chapters)
  match assemblyRejection book body targets with
  | some e => throw e
  | none =>
  let candidates := targets.filter fun t => manifestComplete t.chunks
  match ← query (chaptersToAssemble computeManifestHash candidates body.force) with
  | [] =>
      -- The fan-in fires only on a finished chapter job, and there will be none.
      if body.scope = .audiobook ∧ candidates.length = targets.length then
        maybeEnqueueAssembleAudiobook computeManifestHash book
          (candidates.map TargetChapter.chapterId)
          (deliveryFormatsOrDefault body.deliveryFormats) body.force
  | toAssemble => createChapterJobs bookId body toAssemble

end AudioBook
