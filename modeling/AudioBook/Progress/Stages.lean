import AudioBook.Relational.References
import AudioBook.Schema.Rows
import Mathlib.Algebra.Order.Floor.Ring
import Mathlib.Data.Rat.Floor

/-!
# The Stages of a Book

`computeStages` of the progress service: eleven counts of rows, and what they say about the five
stages of a book.

## Main results

* `progress_mem_unit`: a reported progress lies between 0 and 1, whatever the tables hold.
* `completed_le_total_iff`: which counts decide that no stage reports more units than there are.
-/

namespace AudioBook.Progress

open Relational

/-! ## Rows -/

inductive BookVersionStatus
  | created
  | parsing
  | parsed
  | normalized
  | structured
  | ready
  | partialOcr
  | needsReview
  | failed
  | superseded
  deriving DecidableEq, Repr

inductive ParsedPageStatus
  | ok
  | needsReview
  | failed
  deriving DecidableEq, Repr

structure BookVersion where
  id : Id
  bookId : Id
  isCurrent : Bool
  status : BookVersionStatus
  pagesTotal : Option ℕ
  contentHash : Hash
  pipelineVersion : ℕ
  /-- `superseded_by_book_version_id`; `superseded_at` is set with it. -/
  supersededBy : Option Id := none
  deriving DecidableEq

structure ParsedPage where
  id : Id
  bookId : Id
  bookVersionId : Id
  pageNumber : ℕ
  status : ParsedPageStatus
  deriving DecidableEq

structure Chapter where
  id : Id
  bookId : Id
  bookVersionId : Id
  orderIndex : ℕ
  deriving DecidableEq

structure Scene where
  id : Id
  bookId : Id
  bookVersionId : Id
  chapterId : Id
  deriving DecidableEq

structure SceneSemantics where
  id : Id
  bookId : Id
  sceneId : Id
  storyBibleVersionId : Id
  deriving DecidableEq

structure AudioScript where
  id : Id
  bookId : Id
  isCurrent : Bool
  state : AudioScriptState
  supersededBy : Option Id := none
  deriving DecidableEq

structure AudioScriptChunk where
  id : Id
  bookId : Id
  audioScriptId : Id
  sequenceIndex : ℕ
  isCurrent : Bool
  state : AudioScriptChunkState
  flagged : Bool
  supersedes : Option Id := none
  supersededBy : Option Id := none
  deriving DecidableEq

structure AudioChunk where
  id : Id
  bookId : Id
  audioScriptChunkId : Id
  isCurrent : Bool
  status : AudioChunkStatus
  supersedes : Option Id := none
  supersededBy : Option Id := none
  deriving DecidableEq

structure ChapterAudio where
  id : Id
  bookId : Id
  chapterId : Id
  isCurrent : Bool
  isPreviewBuild : Bool := false
  status : ChapterAudioStatus
  deriving DecidableEq

structure ProgressStore where
  /-- `processing_job`: book, type and status. -/
  jobs : List (Id × JobType × JobStatus) := []
  bookVersions : List BookVersion := []
  parsedPages : List ParsedPage := []
  chapters : List Chapter := []
  scenes : List Scene := []
  sceneSemantics : List SceneSemantics := []
  audioScripts : List AudioScript := []
  audioScriptChunks : List AudioScriptChunk := []
  audioChunks : List AudioChunk := []
  chapterAudios : List ChapterAudio := []
  nextId : Id := 0
  deriving DecidableEq

/-! ## Counts -/

section Counts

variable (bookId : Id) (s : ProgressStore)

def currentVersion : Option BookVersion :=
  s.bookVersions.find? fun v => decide (v.bookId = bookId) && v.isCurrent

def currentScript : Option AudioScript :=
  s.audioScripts.find? fun script => decide (script.bookId = bookId) && script.isCurrent

/-- `parsedPage.groupBy`. -/
def pagesWith (statuses : List ParsedPageStatus) : ℕ :=
  s.parsedPages.countP fun p => decide (p.bookId = bookId ∧ p.status ∈ statuses)

/-- `scene.count`. -/
def sceneCount : ℕ := s.scenes.countP fun scene => decide (scene.bookId = bookId)

/-- `sceneSemantics.count`. -/
def semanticsCount : ℕ := s.sceneSemantics.countP fun r => decide (r.bookId = bookId)

/-- `audioScriptChunk.count`. -/
def chunkCount : ℕ :=
  s.audioScriptChunks.countP fun c => decide (c.bookId = bookId) && c.isCurrent

/-- `audioScriptChunk.count`, of the chunks with review flags. -/
def flaggedChunkCount : ℕ :=
  s.audioScriptChunks.countP fun c => decide (c.bookId = bookId) && c.isCurrent && c.flagged

/-- `audioChunk.groupBy`. -/
def audioWith (statuses : List AudioChunkStatus) : ℕ :=
  s.audioChunks.countP fun a => decide (a.bookId = bookId ∧ a.status ∈ statuses) && a.isCurrent

/-- `chapter.count`. -/
def chapterCount : ℕ := s.chapters.countP fun c => decide (c.bookId = bookId)

/-- `chapterAudio.groupBy`. -/
def chapterAudioWith (status : ChapterAudioStatus) : ℕ :=
  s.chapterAudios.countP fun a => decide (a.bookId = bookId ∧ a.status = status) && a.isCurrent

/-- `JobStatusIndex.count`. -/
def jobsWith (types : List JobType) (statuses : List JobStatus) : ℕ :=
  s.jobs.countP fun job => decide (job.1 = bookId ∧ job.2.1 ∈ types ∧ job.2.2 ∈ statuses)

end Counts

/-! ## Figures -/

/-- `round`: to four decimals, a half up. -/
def round (value : ℚ) : ℚ := (⌊value * 10000 + 1 / 2⌋ : ℚ) / 10000

/-- `round(Math.min(done, total) / total)`. -/
def share (done total : ℕ) : ℚ := round ((min done total : ℕ) / (total : ℚ))

def ratio (done : ℕ) (total : Option ℕ) (versionStatus : Option BookVersionStatus) : Option ℚ :=
  match total with
  | none | some 0 => if versionStatus = some .ready then some 1 else none
  | some total => some (share done total)

/-- A count that is a denominator only where it is not zero. -/
def positive (total : ℕ) : Option ℕ := if 0 < total then some total else none

/-! ## Statuses -/

inductive StageName
  | ingestion
  | analysis
  | director
  | tts
  | assembly
  deriving DecidableEq, Repr

inductive StageStatus
  | notStarted
  | queued
  | running
  | blocked
  | validating
  | partialOcr
  | needsReview
  | partialDone
  | completed
  | failed
  | cancelled
  deriving DecidableEq, Repr

/-- `STAGE_JOB_TYPES`. -/
def StageName.jobTypes : StageName → List JobType
  | ingestion => [.parseBook, .ocrPage, .normalizeText, .analyzeStructure]
  | analysis => [.analyzeScene, .buildStoryBibleDelta]
  | director => [.generateDirectorIr, .reviseDirectorIr]
  | tts => [.generateTtsChunk, .validateAudio, .processAudio, .verifyTranscript]
  | assembly => [.assembleChapter, .assembleAudiobook, .encodeDeliveryFormat]

section Statuses

variable (bookId : Id) (s : ProgressStore)

/-- `jobDerivedStatus`: anything that moves first, then the last word of a job. -/
def jobDerivedStatus (stage : StageName) : StageStatus :=
  let count := jobsWith bookId s stage.jobTypes
  if 0 < count [.running] then .running
  else if 0 < count [.retrying] then .running
  else if 0 < count [.created, .queued] then .queued
  else if 0 < count [.blocked] then .blocked
  else if 0 < count [.succeeded] then .completed
  else if 0 < count [.failed, .deadLettered] then .failed
  else if 0 < count [.cancelled] then .cancelled
  else .notStarted

def ingestionStatus (versionStatus : Option BookVersionStatus) : StageStatus :=
  match versionStatus with
  | some .ready => .completed
  | some .partialOcr => .partialOcr
  | some .needsReview => .needsReview
  | some .failed => .failed
  | _ => jobDerivedStatus bookId s .ingestion

def stageStatus (stage : StageName) (complete : Bool) : StageStatus :=
  if complete then .completed else jobDerivedStatus bookId s stage

def directorStatus (scriptState : Option AudioScriptState) : StageStatus :=
  let derived := jobDerivedStatus bookId s .director
  match scriptState with
  | some .validated => .completed
  | some .draft => if derived = .completed then .validating else derived
  | _ => derived

def ttsStatus (done : ℕ) (total : Option ℕ) : StageStatus :=
  let derived := jobDerivedStatus bookId s .tts
  match total with
  | none | some 0 => derived
  | some total =>
      if total ≤ done then .completed
      else if derived = .completed then .partialDone
      else derived

def assemblyStatus (assembled : ℕ) (total : Option ℕ) : StageStatus :=
  let derived := jobDerivedStatus bookId s .assembly
  if total.any fun total => decide (0 < total ∧ total ≤ assembled) then .completed
  else if derived = .notStarted ∧ 0 < jobsWith bookId s StageName.assembly.jobTypes [.blocked] then
    .blocked
  else derived

end Statuses

/-! ## Stages -/

structure StageProgress where
  stage : StageName
  status : StageStatus
  progress : Option ℚ
  completedUnits : ℕ
  totalUnits : Option ℕ
  failedUnits : ℕ
  flaggedUnits : ℕ
  deriving DecidableEq

section Stages

variable (bookId : Id) (s : ProgressStore)

/-- Ingestion: parsed pages are the unit, and the version has their number. -/
def ingestionStage : StageProgress :=
  let version := currentVersion bookId s
  let pagesTotal := version.bind BookVersion.pagesTotal
  let pagesDone := pagesWith bookId s [.ok, .needsReview]
  { stage := .ingestion
    status := ingestionStatus bookId s (version.map BookVersion.status)
    progress := ratio pagesDone pagesTotal (version.map BookVersion.status)
    completedUnits := pagesDone
    totalUnits := pagesTotal
    failedUnits := pagesWith bookId s [.failed]
    flaggedUnits := pagesWith bookId s [.needsReview] }

def analysisStage : StageProgress :=
  let sceneCount := sceneCount bookId s
  let semanticsCount := semanticsCount bookId s
  { stage := .analysis
    status := stageStatus bookId s .analysis
      (decide (0 < semanticsCount ∧ sceneCount ≤ semanticsCount))
    progress := (positive sceneCount).map (share semanticsCount)
    completedUnits := min semanticsCount sceneCount
    totalUnits := positive sceneCount
    failedUnits := 0
    flaggedUnits := 0 }

/-- The Director: script chunks are the unit, and they are done when the script is. -/
def directorStage : StageProgress :=
  let script := currentScript bookId s
  let done := decide (script.map AudioScript.state = some .validated)
  { stage := .director
    status := directorStatus bookId s (script.map AudioScript.state)
    progress := script.map fun _ => if done then 1 else 0
    completedUnits := if done then chunkCount bookId s else 0
    totalUnits := script.map fun _ => chunkCount bookId s
    failedUnits := 0
    flaggedUnits := flaggedChunkCount bookId s }

/-- Synthesis: audio chunks are the unit, out of the script chunks. -/
def ttsStage : StageProgress :=
  let ttsDone := audioWith bookId s [.generated, .validated, .assembled]
  let ttsTotal := positive (chunkCount bookId s)
  { stage := .tts
    status := ttsStatus bookId s ttsDone ttsTotal
    progress := ttsTotal.map (share ttsDone)
    completedUnits := ttsDone
    totalUnits := ttsTotal
    failedUnits := audioWith bookId s [.failed]
    flaggedUnits := audioWith bookId s [.invalid] }

def assemblyStage : StageProgress :=
  let assembledChapters := chapterAudioWith bookId s .assembled
  let assemblyTotal := positive (chapterCount bookId s)
  { stage := .assembly
    status := assemblyStatus bookId s assembledChapters assemblyTotal
    progress := assemblyTotal.map (share assembledChapters)
    completedUnits := assembledChapters
    totalUnits := assemblyTotal
    failedUnits := chapterAudioWith bookId s .invalid
    flaggedUnits := 0 }

def computeStages : List StageProgress :=
  [ingestionStage bookId s, analysisStage bookId s, directorStage bookId s, ttsStage bookId s,
    assemblyStage bookId s]

end Stages

/-! ## Progress Lies in the Unit Interval -/

theorem round_nonneg {value : ℚ} (h : 0 ≤ value) : 0 ≤ round value := by
  have hfloor : 0 ≤ ⌊value * 10000 + 1 / 2⌋ := Int.floor_nonneg.mpr (by positivity)
  unfold round
  positivity

theorem round_le_one {value : ℚ} (h : value ≤ 1) : round value ≤ 1 := by
  -- rounding half up does not go over a whole number of ten-thousandths
  have hlt : ⌊value * 10000 + 1 / 2⌋ < 10001 := Int.floor_lt.mpr (by push_cast; linarith)
  have hle : (⌊value * 10000 + 1 / 2⌋ : ℚ) ≤ 10000 := by exact_mod_cast Int.lt_add_one_iff.mp hlt
  unfold round
  rw [div_le_one (by norm_num)]
  exact hle

theorem share_mem_unit (done total : ℕ) : 0 ≤ share done total ∧ share done total ≤ 1 := by
  refine ⟨round_nonneg (by positivity), round_le_one ?_⟩
  apply div_le_one_of_le₀
  · exact_mod_cast min_le_right done total
  · positivity

theorem ratio_mem_unit {done : ℕ} {total : Option ℕ} {versionStatus : Option BookVersionStatus}
    {p : ℚ} (h : ratio done total versionStatus = some p) : 0 ≤ p ∧ p ≤ 1 := by
  unfold ratio at h
  split at h
  · split at h
    · cases h
      norm_num
    · cases h
  · split at h
    · cases h
      norm_num
    · cases h
  · cases h
    exact share_mem_unit _ _

/-- A stage's progress is a number between 0 and 1. -/
def StageProgress.InUnit (stage : StageProgress) : Prop :=
  ∀ p, stage.progress = some p → 0 ≤ p ∧ p ≤ 1

theorem map_share_mem_unit {done : ℕ} {total : Option ℕ} {p : ℚ}
    (h : total.map (share done) = some p) : 0 ≤ p ∧ p ≤ 1 := by
  obtain ⟨total, -, rfl⟩ := Option.map_eq_some_iff.mp h
  exact share_mem_unit done total

theorem progress_mem_unit (bookId : Id) (s : ProgressStore) :
    ∀ stage ∈ computeStages bookId s, stage.InUnit := by
  intro stage hstage p hp
  simp only [computeStages, List.mem_cons, List.not_mem_nil, or_false] at hstage
  rcases hstage with rfl | rfl | rfl | rfl | rfl
  · exact ratio_mem_unit hp
  · exact map_share_mem_unit hp
  · obtain ⟨script, -, rfl⟩ := Option.map_eq_some_iff.mp hp
    split <;> norm_num
  · exact map_share_mem_unit hp
  · exact map_share_mem_unit hp

/-! ## Completed Units -/

/-- A stage reports no more units than there are, where it says how many there are. -/
def StageProgress.WithinTotal (stage : StageProgress) : Prop :=
  ∀ total, stage.totalUnits = some total → stage.completedUnits ≤ total

theorem positive_eq_some_iff {n total : ℕ} : positive n = some total ↔ total = n ∧ 0 < n := by
  unfold positive
  split
  · rename_i hpos
    simp [hpos, eq_comm]
  · rename_i hpos
    simp [hpos]

theorem completed_le_total_iff (bookId : Id) (s : ProgressStore) :
    (∀ stage ∈ computeStages bookId s, stage.WithinTotal) ↔
      (∀ total, (currentVersion bookId s).bind BookVersion.pagesTotal = some total →
        pagesWith bookId s [.ok, .needsReview] ≤ total) ∧
      (0 < chunkCount bookId s →
        audioWith bookId s [.generated, .validated, .assembled] ≤ chunkCount bookId s) ∧
      (0 < chapterCount bookId s →
        chapterAudioWith bookId s .assembled ≤ chapterCount bookId s) := by
  simp only [computeStages, List.forall_mem_cons, List.not_mem_nil, false_implies, implies_true,
    and_true]
  constructor
  · rintro ⟨hingestion, -, -, htts, hassembly⟩
    refine ⟨hingestion, fun hpos => ?_, fun hpos => ?_⟩
    · exact htts _ (positive_eq_some_iff.mpr ⟨rfl, hpos⟩)
    · exact hassembly _ (positive_eq_some_iff.mpr ⟨rfl, hpos⟩)
  · rintro ⟨hpages, haudio, hchapters⟩
    refine ⟨hpages, fun total h => ?_, fun total h => ?_, fun total h => ?_, fun total h => ?_⟩
    · obtain ⟨rfl, -⟩ := positive_eq_some_iff.mp h
      exact min_le_right _ _
    · obtain ⟨script, -, rfl⟩ := Option.map_eq_some_iff.mp h
      show (if _ then _ else _) ≤ _
      split
      · exact le_refl _
      · exact Nat.zero_le _
    · obtain ⟨rfl, hpos⟩ := positive_eq_some_iff.mp h
      exact haudio hpos
    · obtain ⟨rfl, hpos⟩ := positive_eq_some_iff.mp h
      exact hchapters hpos

end AudioBook.Progress
