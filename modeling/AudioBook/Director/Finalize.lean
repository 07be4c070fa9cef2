import AudioBook.Director.Validation
import AudioBook.Jobs.Writes
import AudioBook.Workers.Errors
import Mathlib.Data.List.Sort

/-!
# Finalizing a Director Run

`_finalize_run` of `handlers/generate_director_ir.py`: the script of a run is read back from the
database, validated as a whole, and made the current script of its book. All of it is one part of
the session that stores the last chapter, so a script that is rejected takes that chapter's chunks
with it.

The job writes of the workers address a row by its id and never look at the status they replace;
a row that is not there is no error.
-/

namespace AudioBook

open Relational

/-! ## Job Writes of the Workers -/

/-- `UPDATE processing_job SET f WHERE id = job_id`. -/
def setJob (jobId : Id) (f : ProcessingJob → ProcessingJob) : Session Unit :=
  Db.processingJob.update (fun job => decide (job.id = jobId)) f

def markJobRunning (jobId : Id) : Session Unit :=
  setJob jobId fun job => { job with status := .running, attemptCount := job.attemptCount + 1 }

def markJobSucceeded (jobId : Id) : Session Unit :=
  setJob jobId fun job => { job with status := .succeeded }

def markJobFailed (jobId : Id) (errorCode : ErrorCode) : Session Unit :=
  setJob jobId fun job => { job with status := .failed, errorCode := some errorCode }

/-- `_finalize_root_job`, and the last statement but one of `_finalize_run`. -/
def finalizeRootJob (rootJobId : Id) : Session Unit :=
  Db.processingJob.update
    (fun job => decide (job.id = rootJobId ∧ job.status ∉ [.succeeded, .failed])) fun job =>
      { job with status := .succeeded }

/-! ## Validation of the Whole Script -/

/-- `validate_unknown_speaker_rate`: at most one chunk in fifty may have an unknown speaker. -/
def validateUnknownSpeakerRate (chunks : List AudioScriptChunk) : Session Unit :=
  if chunks.length < 50 * chunks.countP fun c => decide (c.speakerType = .unknown) then
    throw (.validation .directorValidationFailed)
  else pure ()

/-- An id as Python holds it: a string, or the `UUID` object of a row. The two are never equal. -/
inductive PyId
  | str (id : Id)
  | uuid (id : Id)
  deriving DecidableEq

/-- `str(id)`, and the version that an id denotes. -/
def PyId.toStr : PyId → Id
  | str id => id
  | uuid id => id

/-- What `validate_voice_consistency` reads of `chunk.fields`. -/
structure VoiceFields where
  sceneId : Option PyId
  characterId : Option PyId
  voiceProfileVersionId : Option PyId
  deriving DecidableEq

/-- The loop of `validate_voice_consistency`: `seen` holds the voice of every speaker of a scene
so far, as strings. -/
def voicesConsistent (seen : List ((Id × Id) × Id)) : List VoiceFields → Bool
  | [] => true
  | chunk :: chunks =>
      match chunk.sceneId, chunk.characterId, chunk.voiceProfileVersionId with
      | some sceneId, some characterId, some voiceVersionId =>
          let key := (sceneId.toStr, characterId.toStr)
          match seen.lookup key with
          | some existing =>
              -- the string is compared with the id as it is
              if .str existing ≠ voiceVersionId then false
              else voicesConsistent ((key, voiceVersionId.toStr) :: seen) chunks
          | none => voicesConsistent ((key, voiceVersionId.toStr) :: seen) chunks
      | _, _, _ => voicesConsistent seen chunks

def validateVoiceConsistency (chunks : List VoiceFields) : Session Unit :=
  if voicesConsistent [] chunks then pure () else throw (.validation .voiceConsistencyViolation)

/-- The fields of a row, with the ids as the database driver returns them. -/
def AudioScriptChunk.rawVoice (c : AudioScriptChunk) : VoiceFields where
  sceneId := c.sceneId.map .uuid
  characterId := c.characterId.map .uuid
  voiceProfileVersionId := c.voiceProfileVersionId.map .uuid

/-! ## The Run -/

def loadParagraphsForChapter (chapterId : Id) (s : Store) : List Paragraph :=
  (s.paragraphs.filter fun p => decide (p.chapterId = chapterId)).insertionSort
    fun a b => a.orderIndex ≤ b.orderIndex

def currentChunksOfScript (audioScriptId : Id) (s : Store) : List AudioScriptChunk :=
  s.audioScriptChunks.filter fun c => decide (c.audioScriptId = audioScriptId ∧ c.isCurrent)

def finalizeRun (bookId jobId rootJobId audioScriptId : Id) (allChapterIds : List Id) :
    Session Unit := do
  let s ← get
  let allParagraphs := allChapterIds.flatMap fun chapterId => loadParagraphsForChapter chapterId s
  let chunkRows := currentChunksOfScript audioScriptId s
  let coverage := validateCoverage allParagraphs (chunkRows.map AudioScriptChunk.source)
  validateUnknownSpeakerRate chunkRows
  validateVoiceConsistency (chunkRows.map AudioScriptChunk.rawVoice)
  finalizeAudioScript audioScriptId bookId coverage
  markJobSucceeded jobId
  finalizeRootJob rootJobId

/-- What `_finalize_run` makes of the current chunks of a script. -/
def runCoverage (audioScriptId : Id) (allChapterIds : List Id) (s : Store) : CoverageResult :=
  validateCoverage (allChapterIds.flatMap fun chapterId => loadParagraphsForChapter chapterId s)
    ((currentChunksOfScript audioScriptId s).map AudioScriptChunk.source)

theorem finalizeRun_eq_ok_iff {bookId jobId rootJobId audioScriptId : Id} {allChapterIds : List Id}
    {s s' : Store} :
    finalizeRun bookId jobId rootJobId audioScriptId allChapterIds s = .ok ((), s') ↔
      validateUnknownSpeakerRate (currentChunksOfScript audioScriptId s) s = .ok ((), s) ∧
        validateVoiceConsistency ((currentChunksOfScript audioScriptId s).map
          AudioScriptChunk.rawVoice) s = .ok ((), s) ∧
        ∃ s₁ s₂, finalizeAudioScript audioScriptId bookId
            (runCoverage audioScriptId allChapterIds s) s = .ok ((), s₁) ∧
          markJobSucceeded jobId s₁ = .ok ((), s₂) ∧ finalizeRootJob rootJobId s₂ = .ok ((), s') := by
  constructor
  · intro h
    obtain ⟨t, s₀, hget, h⟩ := Transaction.bind_eq_ok_iff.mp h
    cases hget
    obtain ⟨_, s₁, hrate, h⟩ := Transaction.bind_eq_ok_iff.mp h
    obtain ⟨_, s₂, hvoices, h⟩ := Transaction.bind_eq_ok_iff.mp h
    obtain ⟨_, s₃, hscript, h⟩ := Transaction.bind_eq_ok_iff.mp h
    obtain ⟨_, s₄, hsucceed, hroot⟩ := Transaction.bind_eq_ok_iff.mp h
    -- The two checks write nothing.
    have hs₁ : s₁ = s := by
      revert hrate
      unfold validateUnknownSpeakerRate
      split
      · exact fun h => by cases h
      · exact fun h => ((Transaction.pure_eq_ok_iff.mp h).2).symm
    subst hs₁
    have hs₂ : s₂ = s₁ := by
      revert hvoices
      unfold validateVoiceConsistency
      split
      · exact fun h => ((Transaction.pure_eq_ok_iff.mp h).2).symm
      · exact fun h => by cases h
    subst hs₂
    exact ⟨hrate, hvoices, s₃, s₄, Session.lift_eq_ok_iff.mp hscript, hsucceed, hroot⟩
  · rintro ⟨hrate, hvoices, s₁, s₂, hscript, hsucceed, hroot⟩
    have hget : (get : Session Store) s = .ok (s, s) := rfl
    rw [finalizeRun, Transaction.bind_eq_of_ok hget, Transaction.bind_eq_of_ok hrate,
      Transaction.bind_eq_of_ok hvoices]
    refine Transaction.bind_eq_ok_iff.mpr ⟨(), s₁, Session.lift_eq_ok_iff.mpr hscript, ?_⟩
    exact Transaction.bind_eq_ok_iff.mpr ⟨(), s₂, hsucceed, hroot⟩

end AudioBook
