import AudioBook.Assembly.Shared
import AudioBook.Workers.Access

/-!
# The Director's Handlers

`handle_generate_director_ir` directs one chapter: it reads the chapter's text, has its chunks
decided by the model, stores them, and then creates and enqueues the job of the next chapter or
finalizes the run. `handle_revise_director_ir` decides some chunks of a script again.
-/

namespace AudioBook

open Concurrent

/-! ## Building Chunks -/

def chapterSpans (paragraphs : List Paragraph) : List (Id × ChunkSpan) :=
  paragraphs.flatMap fun p => (chunkParagraph p.text defaultMaxChars).map fun span => (p.id, span)

structure ChunkFrame where
  bookId : Id
  audioScriptId : Id
  chapterId : Id
  directorVersion : ℕ

def buildChunk (frame : ChunkFrame) (id paragraphId : Id) (span : ChunkSpan)
    (i : Interpretation) (sequenceIndex chapterSequenceIndex : ℕ) : BuiltChunk where
  id := id
  bookId := frame.bookId
  audioScriptId := frame.audioScriptId
  chapterId := frame.chapterId
  sequenceIndex := sequenceIndex
  chapterSequenceIndex := chapterSequenceIndex
  directorVersion := frame.directorVersion
  text := span.text
  nonVerbal := i.nonVerbal
  sceneId := i.sceneId
  speakerType := i.speakerType
  characterId := i.characterId
  voiceProfileVersionId := i.voiceProfileVersionId
  fallbackApplied := i.fallbackApplied
  lowConfidence := i.lowConfidence
  source := ⟨paragraphId, span.charStart, span.charEnd⟩

/-- The loop over the spans of a chapter, with its two running counters. -/
def buildChunks (frame : ChunkFrame) (interpret : Id → ChunkSpan → Interpretation) :
    ℕ → ℕ → List (Id × Id × ChunkSpan) → List BuiltChunk
  | _, _, [] => []
  | sequenceIndex, chapterSequenceIndex, (id, paragraphId, span) :: spans =>
      buildChunk frame id paragraphId span (interpret paragraphId span) sequenceIndex
        chapterSequenceIndex ::
          buildChunks frame interpret (sequenceIndex + 1) (chapterSequenceIndex + 1) spans

/-! ## Directing a Chapter -/

def directorEnvelope (jobId : Id) (payload : DirectorPayload) (audioScriptId nextChapterId : Id)
    (remainingChapterIds : List Id) (sequenceIndex : ℕ) : Envelope where
  jobId := jobId
  entityId := some jobId
  payload := .generateDirectorIr { payload with
    audioScriptId := some audioScriptId
    chapterId := nextChapterId
    remainingChapterIds := remainingChapterIds
    sequenceIndexStart := sequenceIndex }

/-- The job of the next chapter, as `create_child_job` inserts it: it stores no message. -/
def directorChildJob (jobId : Id) (payload : DirectorPayload) (audioScriptId nextChapterId : Id)
    (contextBundleHash : Hash) : ProcessingJob where
  id := jobId
  bookId := some payload.bookId
  type := .generateDirectorIr
  relatedResourceType := .bookVersion
  relatedResourceId := audioScriptId
  parentJobId := some payload.rootJobId
  idempotencyKey :=
    .directorChapter audioScriptId nextChapterId payload.directorVersion contextBundleHash

/-- The script that the first chapter of a run creates. -/
def newScript (payload : DirectorPayload) (audioScriptId : Id) : Option NewAudioScript :=
  match payload.audioScriptId with
  | some _ => none
  | none => some {
      audioScriptId := audioScriptId
      bookId := payload.bookId
      bookVersionId := payload.bookVersionId
      directorVersion := payload.directorVersion
      jobId := payload.rootJobId }

def chapterChunks (ctx : JobContext) (payload : DirectorPayload) (audioScriptId : Id)
    (spans : List (Id × Id × ChunkSpan)) : List BuiltChunk :=
  buildChunks ⟨payload.bookId, audioScriptId, payload.chapterId, payload.directorVersion⟩
    ctx.interpret payload.sequenceIndexStart 0 spans

/-- The decisions of a chapter's chunks; an error of the queue is recorded on the final attempt,
in a session of its own. -/
def decideChapter (ctx : JobContext) (n : ℕ) : Worker Unit :=
  tryCatch (Worker.callModel n) fun err => do
    if err.IsJobError ∧ ctx.isFinalAttempt then
      Worker.run (.fail ctx.envelope.jobId (err.codeOr .directorModelFailed))
    throw err

/-- Store the chunks of a chapter, then chain or finalize. -/
def storeChapter (ctx : JobContext) (payload : DirectorPayload) (audioScriptId : Id)
    (chunks : List BuiltChunk) : Worker Unit := do
  let jobId := ctx.envelope.jobId
  match payload.remainingChapterIds with
  | [] =>
      Worker.run (.persistChapter jobId chunks
        (.finalize payload.bookId payload.rootJobId audioScriptId payload.allChapterIds))
  | nextChapterId :: remaining =>
      let nextJobId ← Worker.newId
      Worker.run (.persistChapter jobId chunks
        (.chain (directorChildJob nextJobId payload audioScriptId nextChapterId
          ctx.contextBundleHash)))
      -- Only after the session above has committed.
      Worker.run (.enqueue (directorEnvelope nextJobId payload audioScriptId nextChapterId remaining
        (payload.sequenceIndexStart + chunks.length)))

def handleGenerateDirectorIr (payload : DirectorPayload) (ctx : JobContext) : Worker Unit := do
  let jobId := ctx.envelope.jobId
  match ← Worker.query (findJob jobId) with
  | none => throw (.terminal .jobNotFound)
  | some job =>
  if job.status = .succeeded ∨ job.status = .failed then return else
  if (← Worker.query (findChapter payload.chapterId)).isNone then
    throw (.terminal .insufficientContext) else
  if ctx.modelVersionId = none then throw (.terminal .modelVersionNotRegistered) else
  -- `load_chapter_context`.
  if (← Worker.query (findBook payload.bookId)).isNone then throw (.unexpected []) else
  let paragraphs ← Worker.query (loadParagraphsForChapter payload.chapterId)
  -- The script of a run is created by its first chapter.
  let newScriptId ← Worker.newId
  let audioScriptId := payload.audioScriptId.getD newScriptId
  Worker.run (.beginChapter jobId (newScript payload newScriptId))
  let spans := chapterSpans paragraphs
  decideChapter ctx spans.length
  let chunkIds ← Worker.newIds spans.length
  storeChapter ctx payload audioScriptId
    (chapterChunks ctx payload audioScriptId (chunkIds.zip spans))

/-! ## Revising Chunks -/

/-- `load_chunk_for_revision`, for the chunks of a book; the others are left out. -/
def chunksForRevision (bookId : Id) (chunkIds : List Id) (s : Store) : List AudioScriptChunk :=
  chunkIds.filterMap fun chunkId =>
    (s.audioScriptChunks.find? fun c => decide (c.id = chunkId ∧ c.isCurrent)).filter
      fun c => decide (c.bookId = bookId)

def withParagraphs (rows : List AudioScriptChunk) (s : Store) : List (AudioScriptChunk × Paragraph) :=
  rows.filterMap fun row =>
    (findChapter row.chapterId s).bind fun _ =>
      ((loadParagraphsForChapter row.chapterId s).find? fun p =>
        decide (p.id = row.source.paragraphId)).map fun p => (row, p)

/-- The span of a chunk, cut out of its paragraph again. -/
def revisedSpan (source : ChunkSource) (paragraph : Paragraph) : ChunkSpan :=
  let text := slice paragraph.text source.paragraphCharStart.toNat source.paragraphCharEnd.toNat
  { charStart := source.paragraphCharStart.toNat
    charEnd := source.paragraphCharEnd.toNat
    text := text
    isDialogueHint := decide ('"' ∈ text ∨ '“' ∈ text) }

def reviseRow (bookId : Id) (directorVersion : ℕ) (interpret : Id → ChunkSpan → Interpretation) :
    Id × AudioScriptChunk × Paragraph → Revision
  | (newChunkId, row, paragraph) =>
      let span := revisedSpan row.source paragraph
      { row := row
        newChunkId := newChunkId
        built := buildChunk ⟨bookId, row.audioScriptId, row.chapterId, directorVersion⟩ row.id
          paragraph.id span (interpret paragraph.id span) row.sequenceIndex
          row.chapterSequenceIndex }

/-- The decisions of a revision. The model is called inside of the write session, so an error is
recorded in a session that it then rolls back. -/
def decideRevision (ctx : JobContext) (n : ℕ) : Worker Unit :=
  tryCatch (Worker.callModel n) fun err => do
    if err.IsJobError ∧ ctx.isFinalAttempt then
      Worker.run (.abandonRevision ctx.envelope.jobId err)
    throw err

def handleReviseDirectorIr (bookId : Id) (chunkIds : List Id) (directorVersion : ℕ)
    (ctx : JobContext) : Worker Unit := do
  let jobId := ctx.envelope.jobId
  match ← Worker.query (findJob jobId) with
  | none => throw (.terminal .jobNotFound)
  | some job =>
  if job.status = .succeeded ∨ job.status = .failed then return else
  match ← Worker.query (chunksForRevision bookId chunkIds) with
  | [] => Worker.run (.skip jobId)
  | row :: rows =>
  let script ← Worker.query fun s => s.audioScripts.find? fun a => decide (a.id = row.audioScriptId)
  if script.isNone then throw (.terminal .audioScriptNotFound) else
  if ctx.modelVersionId = none then throw (.terminal .modelVersionNotRegistered) else
  -- `next(iter(contexts_by_chapter.values()))` raises when no chapter is there.
  let anyChapter ← Worker.query fun s => (row :: rows).any fun r => (findChapter r.chapterId s).isSome
  if ¬ anyChapter then throw (.unexpected []) else
  let found ← Worker.query (withParagraphs (row :: rows))
  Worker.run (.begin jobId)
  decideRevision ctx found.length
  let newChunkIds ← Worker.newIds found.length
  Worker.run (.persistRevision jobId
    ((newChunkIds.zip found).map (reviseRow bookId directorVersion ctx.interpret)))

end AudioBook
