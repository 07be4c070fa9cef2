import AudioBook.Schema.Store

/-!
# The Director's Writes

The transactions' building blocks of `repo/writes_director.py`: creating a draft script,
inserting the chunks of a chapter, revising one chunk, and finalizing a script.
-/

namespace AudioBook

open Relational

/-- The result of `validate_coverage`. -/
structure CoverageResult where
  verified : Bool
  gapCount : ℕ
  overlapCount : ℕ
  deriving DecidableEq, Repr

/-- A chunk as `build_chunk` returns it, with its source. -/
structure BuiltChunk where
  id : Id
  bookId : Id
  audioScriptId : Id
  chapterId : Id
  sequenceIndex : ℕ
  chapterSequenceIndex : ℕ
  version : ℕ := 1
  supersedesChunkId : Option Id := none
  directorVersion : ℕ
  text : Text
  nonVerbal : Bool
  sceneId : Option Id
  speakerType : SpeakerType
  characterId : Option Id
  voiceProfileVersionId : Option Id
  fallbackApplied : Bool
  lowConfidence : Bool
  sourceContentHash : Hash := 0
  source : ChunkSource

/-- The row that `insert_chunks` writes for a chunk: current, and in state `DRAFT`. -/
def BuiltChunk.toRow (chunk : BuiltChunk) : AudioScriptChunk where
  id := chunk.id
  bookId := chunk.bookId
  audioScriptId := chunk.audioScriptId
  chapterId := chunk.chapterId
  sequenceIndex := chunk.sequenceIndex
  chapterSequenceIndex := chunk.chapterSequenceIndex
  version := chunk.version
  supersedesChunkId := chunk.supersedesChunkId
  isCurrent := true
  directorVersion := chunk.directorVersion
  text := chunk.text
  nonVerbal := chunk.nonVerbal
  sceneId := chunk.sceneId
  speakerType := chunk.speakerType
  characterId := chunk.characterId
  voiceProfileVersionId := chunk.voiceProfileVersionId
  fallbackApplied := chunk.fallbackApplied
  lowConfidence := chunk.lowConfidence
  state := .draft
  sourceContentHash := chunk.sourceContentHash
  source := chunk.source

def insertChunks : List BuiltChunk → Tx Unit
  | [] => pure ()
  | chunk :: chunks => do
      Db.audioScriptChunk.insert chunk.toRow
      insertChunks chunks

def findCurrentAudioScript (bookId : Id) (s : Store) : Option Id :=
  (s.audioScripts.find? fun script => decide (script.bookId = bookId ∧ script.isCurrent)).map
    AudioScript.id

/-- `COALESCE(MAX(version), 0) + 1` over the scripts of a book. -/
def nextAudioScriptVersion (bookId : Id) (s : Store) : ℕ :=
  ((s.audioScripts.filter fun script => decide (script.bookId = bookId)).map
    AudioScript.version).foldr max 0 + 1

def createDraftAudioScript (audioScriptId bookId bookVersionId : Id) (directorVersion : ℕ)
    (jobId : Id) (supersedesAudioScriptId : Option Id) : Tx Unit := do
  let s ← get
  Db.audioScript.insert {
    id := audioScriptId
    bookId := bookId
    bookVersionId := bookVersionId
    version := nextAudioScriptVersion bookId s
    supersedesAudioScriptId := supersedesAudioScriptId
    isCurrent := false
    directorVersion := directorVersion
    state := .draft
    jobId := some jobId }

/-- Make a script the validated, current script of its book. The new script is made current
before the old one is retired. -/
def finalizeAudioScript (audioScriptId bookId : Id) (coverage : CoverageResult) : Tx Unit := do
  Db.audioScript.update (fun script => decide (script.id = audioScriptId)) fun script =>
    { script with
      state := .validated
      isCurrent := true
      coverageVerified := coverage.verified
      coverageGapCount := coverage.gapCount
      coverageOverlapCount := coverage.overlapCount }
  Db.audioScript.update
    (fun script => decide (script.bookId = bookId ∧ script.id ≠ audioScriptId ∧ script.isCurrent))
    fun script =>
      { script with
        isCurrent := false
        state := .superseded
        supersededByAudioScriptId := some audioScriptId }
  Db.book.update (fun book => decide (book.id = bookId)) fun book =>
    { book with currentAudioScriptId := some audioScriptId }

/-- The decision fields of `built` bound to a chunk whose text, place and life cycle stay. -/
def BuiltChunk.rebind (built : BuiltChunk) (chunk : AudioScriptChunk) : AudioScriptChunk :=
  { chunk with
    speakerType := built.speakerType
    characterId := built.characterId
    nonVerbal := built.nonVerbal
    voiceProfileVersionId := built.voiceProfileVersionId
    fallbackApplied := built.fallbackApplied
    lowConfidence := built.lowConfidence
    directorVersion := built.directorVersion
    state := .draft }

/-- Re-bind the decision fields of a chunk in place. -/
def updateChunkInPlace (chunkId : Id) (built : BuiltChunk) : Tx Unit :=
  Db.audioScriptChunk.update (fun chunk => decide (chunk.id = chunkId)) built.rebind

/-- Replace a `LOCKED` chunk by a new version. The new version is inserted before the old one
is retired. -/
def supersedeLockedChunk (oldChunkId : Id) (newChunk : BuiltChunk) : Tx Unit := do
  insertChunks [newChunk]
  Db.audioScriptChunk.update (fun chunk => decide (chunk.id = oldChunkId)) fun chunk =>
    { chunk with isCurrent := false, supersededByChunkId := some newChunk.id }

/-- The write of `handle_revise_director_ir` for one chunk that `load_chunk_for_revision` found:
a locked chunk gets a new version in its place, any other is changed in place. -/
def reviseChunk (row : AudioScriptChunk) (newChunkId : Id) (built : BuiltChunk) : Tx Unit :=
  if row.state = .locked then
    supersedeLockedChunk row.id
      { built with
        id := newChunkId
        bookId := row.bookId
        audioScriptId := row.audioScriptId
        chapterId := row.chapterId
        sequenceIndex := row.sequenceIndex
        chapterSequenceIndex := row.chapterSequenceIndex
        version := row.version + 1
        supersedesChunkId := some row.id }
  else
    updateChunkInPlace row.id built

end AudioBook
