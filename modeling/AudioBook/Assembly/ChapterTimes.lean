import AudioBook.Numerics.BinaryRounding
import AudioBook.Schema.Rows

/-!
# Where the Chapters of an Audiobook Start

`assembleAudiobookMaster`: the chapter masters are brought to one loudness and put one behind the
other, and each chapter is recorded with the milliseconds of the chapters before it. The lengths are
probed, so they are milliseconds; the audio has lengths of its own. A chapter's length is probed from
its master, whatever the number of its chunks.

Main results:

- `timesKept_iff`: the starts keep to the audio as far as the roundings before them do; in all books
  of a number of chapters if and only if there are at most 151 of them.
-/

namespace AudioBook.Mastering

open Numerics

/-! ## Running Sums -/

section runningSums

variable {α : Type} (lengthOf : α → ℤ)

/-- Every element with what the elements before it come to, as `cumulativeMs` counts it. -/
def withStarts : ℤ → List α → List (α × ℤ)
  | _, [] => []
  | cumulativeMs, a :: rest => (a, cumulativeMs) :: withStarts (cumulativeMs + lengthOf a) rest

theorem getElem?_withStarts (cumulativeMs : ℤ) (as : List α) (i : ℕ) :
    (withStarts lengthOf cumulativeMs as)[i]? =
      as[i]?.map fun a => (a, cumulativeMs + ((as.take i).map lengthOf).sum) := by
  induction as generalizing cumulativeMs i with
  | nil => simp [withStarts]
  | cons a as ih =>
    cases i with
    | zero => simp [withStarts]
    | succ i => simp [withStarts, ih, add_assoc]

end runningSums

/-! ## The Master -/

/-- Audio files with their exact lengths, and what ffmpeg does with them. -/
structure AudioTools (File : Type) where
  exactMs : File → ℚ
  integratedLufs : File → ℚ
  applyGainAndConvert : File → ℚ → File
  concatDemuxCopy : List File → File
  exactMs_concatDemuxCopy : ∀ files, exactMs (concatDemuxCopy files) = (files.map exactMs).sum

/-- An element of `orderedChapterAudios`, with its downloaded master. -/
structure ChapterMaster (File : Type) where
  chapterId : Id
  chapterAudioId : Id
  title : Option Text
  file : File

/-- An element of `finalPieces`. -/
structure FinalPiece (File : Type) where
  chapterId : Id
  chapterAudioId : Id
  title : Option Text
  path : File
  durationMs : ℤ

structure AssembledAudiobookChapter where
  chapterId : Id
  chapterAudioId : Id
  title : Option Text
  startMs : ℤ
  durationMs : ℤ

structure AssembledAudiobook (File : Type) where
  masterPath : File
  durationMs : ℤ
  chapters : List AssembledAudiobookChapter

/-- What the error of the start-time assertion names. -/
structure StartMismatch where
  index : ℕ
  expectedMs : ℤ
  gotMs : ℤ

def loudnessConsistencyToleranceLu : ℚ := 1

/-- The nearest millisecond, as `Math.round` takes it. -/
def nearestMs (exactMs : ℚ) : ℤ := ⌊exactMs + 1 / 2⌋

section master

variable {File : Type} (tools : AudioTools File)

/-- `probeAudio`, as far as the length goes. -/
def probeDurationMs (file : File) : ℤ := nearestMs (tools.exactMs file)

def meanLufs (masters : List (ChapterMaster File)) : ℚ :=
  fl ((masters.foldl (fun sum c => fl (sum + tools.integratedLufs c.file)) 0) /
    max masters.length 1)

/-- The piece of a chapter: its master, or a gain-trimmed one, which is probed again. -/
def finalPiece (meanLufs : ℚ) (c : ChapterMaster File) : FinalPiece File :=
  let deviation := fl (tools.integratedLufs c.file - meanLufs)
  let path :=
    if loudnessConsistencyToleranceLu < |deviation| then
      tools.applyGainAndConvert c.file (-deviation)
    else c.file
  { chapterId := c.chapterId
    chapterAudioId := c.chapterAudioId
    title := c.title
    path := path
    durationMs := probeDurationMs tools path }

def finalPieces (masters : List (ChapterMaster File)) : List (FinalPiece File) :=
  masters.map (finalPiece tools (meanLufs tools masters))

def recordedChapters (pieces : List (FinalPiece File)) : List AssembledAudiobookChapter :=
  (withStarts FinalPiece.durationMs 0 pieces).map fun (piece, startMs) =>
    { chapterId := piece.chapterId
      chapterAudioId := piece.chapterAudioId
      title := piece.title
      startMs := startMs
      durationMs := piece.durationMs }

def checkStarts (chapters : List AssembledAudiobookChapter) :
    ℕ → List AssembledAudiobookChapter → Except StartMismatch Unit
  | _, [] => .ok ()
  | i, chapter :: rest =>
      let expectedStart := ((chapters.take i).map AssembledAudiobookChapter.durationMs).sum
      if chapter.startMs ≠ expectedStart then .error ⟨i, expectedStart, chapter.startMs⟩
      else checkStarts chapters (i + 1) rest

def assembleAudiobookMaster (masters : List (ChapterMaster File)) :
    Except StartMismatch (AssembledAudiobook File) := do
  let pieces := finalPieces tools masters
  let masterPath := tools.concatDemuxCopy (pieces.map FinalPiece.path)
  let chapters := recordedChapters pieces
  checkStarts chapters 0 chapters
  return {
    masterPath := masterPath
    durationMs := probeDurationMs tools masterPath
    chapters := chapters }

/-! ## The Starts and the Audio -/

def chapterMarkerToleranceMs : ℚ := 75

def chapterFiles (masters : List (ChapterMaster File)) : List File :=
  (finalPieces tools masters).map FinalPiece.path

/-- Where a chapter starts in the concatenated audio: behind the audio before it. -/
def exactOffset (masters : List (ChapterMaster File)) (i : ℕ) : ℚ :=
  tools.exactMs (tools.concatDemuxCopy ((chapterFiles tools masters).take i))

/-- Every chapter is recorded, starts where the audio does but for the tolerance, and ends where
the next one starts. -/
structure KeepsTime (masters : List (ChapterMaster File))
    (chapters : List AssembledAudiobookChapter) : Prop where
  length : chapters.length = masters.length
  starts : ∀ (i : ℕ) (chapter : AssembledAudiobookChapter), chapters[i]? = some chapter →
    |(chapter.startMs : ℚ) - exactOffset tools masters i| ≤ chapterMarkerToleranceMs
  meet : ∀ (i : ℕ) (chapter next : AssembledAudiobookChapter), chapters[i]? = some chapter →
    chapters[i + 1]? = some next → chapter.startMs + chapter.durationMs = next.startMs

/-- `assembleAudiobookMaster` records chapters that keep time. -/
def TimesKept (masters : List (ChapterMaster File)) : Prop :=
  ∃ audiobook, assembleAudiobookMaster tools masters = .ok audiobook ∧
    KeepsTime tools masters audiobook.chapters

/-- How far the nearest millisecond is behind a length. -/
def excessMs (exactMs : ℚ) : ℚ := nearestMs exactMs - exactMs

/-- What the roundings of the chapters before one come to. -/
def driftMs (masters : List (ChapterMaster File)) (i : ℕ) : ℚ :=
  (((chapterFiles tools masters).take i).map fun file => excessMs (tools.exactMs file)).sum

end master

/-! ## What Is Recorded -/

section recorded

variable {File : Type} (tools : AudioTools File)

theorem durationMs_of_mem {masters : List (ChapterMaster File)} {piece : FinalPiece File}
    (h : piece ∈ finalPieces tools masters) :
    piece.durationMs = probeDurationMs tools piece.path := by
  obtain ⟨c, -, rfl⟩ := List.mem_map.mp h
  rfl

variable (pieces : List (FinalPiece File))

theorem getElem?_recordedChapters (i : ℕ) :
    (recordedChapters pieces)[i]? = pieces[i]?.map fun piece =>
      { chapterId := piece.chapterId
        chapterAudioId := piece.chapterAudioId
        title := piece.title
        startMs := ((pieces.take i).map FinalPiece.durationMs).sum
        durationMs := piece.durationMs } := by
  rw [recordedChapters, List.getElem?_map, getElem?_withStarts]
  cases pieces[i]? <;> simp

theorem length_recordedChapters : (recordedChapters pieces).length = pieces.length := by
  have hlength (start : ℤ) (pieces : List (FinalPiece File)) :
      (withStarts FinalPiece.durationMs start pieces).length = pieces.length := by
    induction pieces generalizing start with
    | nil => rfl
    | cons piece pieces ih => simp [withStarts, ih]
  rw [recordedChapters, List.length_map, hlength]

theorem map_durationMs_recordedChapters :
    (recordedChapters pieces).map AssembledAudiobookChapter.durationMs =
      pieces.map FinalPiece.durationMs := by
  refine List.ext_getElem? fun i => ?_
  rw [List.getElem?_map, List.getElem?_map, getElem?_recordedChapters, Option.map_map]
  rfl

theorem checkStarts_eq_ok (chapters rest : List AssembledAudiobookChapter) (i : ℕ)
    (h : ∀ j chapter, rest[j]? = some chapter → chapter.startMs =
      ((chapters.take (i + j)).map AssembledAudiobookChapter.durationMs).sum) :
    checkStarts chapters i rest = .ok () := by
  induction rest generalizing i with
  | nil => rfl
  | cons chapter rest ih =>
    have hstart := h 0 chapter rfl
    rw [checkStarts]
    -- the loop stands at index `i`, so the rest of it is one further on
    simp only [Nat.add_zero] at hstart
    rw [if_neg (not_not.mpr hstart)]
    refine ih (i + 1) fun j next hnext => ?_
    rw [Nat.add_right_comm, Nat.add_assoc]
    exact h (j + 1) next hnext

theorem checkStarts_recordedChapters :
    checkStarts (recordedChapters pieces) 0 (recordedChapters pieces) = .ok () := by
  refine checkStarts_eq_ok _ _ 0 fun j chapter hchapter => ?_
  rw [getElem?_recordedChapters, Option.map_eq_some_iff] at hchapter
  obtain ⟨piece, -, rfl⟩ := hchapter
  rw [Nat.zero_add, List.map_take, List.map_take, map_durationMs_recordedChapters]

variable (masters : List (ChapterMaster File))

theorem assembleAudiobookMaster_ok :
    ∃ audiobook, assembleAudiobookMaster tools masters = .ok audiobook ∧
      audiobook.chapters = recordedChapters (finalPieces tools masters) := by
  rw [assembleAudiobookMaster, checkStarts_recordedChapters]
  exact ⟨_, rfl, rfl⟩

/-! ## How Far the Starts Are Off -/

theorem startMs_sub_exactOffset (i : ℕ) :
    ((((finalPieces tools masters).take i).map FinalPiece.durationMs).sum : ℚ) -
      exactOffset tools masters i = driftMs tools masters i := by
  rw [exactOffset, tools.exactMs_concatDemuxCopy, driftMs, chapterFiles]
  have hpieces : ∀ piece ∈ (finalPieces tools masters).take i,
      piece.durationMs = probeDurationMs tools piece.path :=
    fun piece h => durationMs_of_mem tools (List.mem_of_mem_take h)
  rw [← List.map_take]
  -- by induction on the pieces before the chapter
  generalize (finalPieces tools masters).take i = pieces at hpieces ⊢
  induction pieces with
  | nil => simp
  | cons piece pieces ih =>
    have hpiece : (piece.durationMs : ℚ) - tools.exactMs piece.path =
        excessMs (tools.exactMs piece.path) := by
      rw [hpieces piece List.mem_cons_self, probeDurationMs, excessMs]
    have ih := ih fun p hp => hpieces p (List.mem_cons_of_mem _ hp)
    simp only [List.map_cons, List.sum_cons, Int.cast_add, ← hpiece, ← ih]
    ring

theorem timesKept_iff_driftMs :
    TimesKept tools masters ↔
      ∀ i < masters.length, |driftMs tools masters i| ≤ chapterMarkerToleranceMs := by
  obtain ⟨audiobook, heq, hchapters⟩ := assembleAudiobookMaster_ok tools masters
  have hlength : (finalPieces tools masters).length = masters.length := by
    rw [finalPieces, List.length_map]
  constructor
  · rintro ⟨audiobook', heq', hkeeps⟩ i hi
    obtain rfl := Except.ok.inj (heq.symm.trans heq')
    obtain ⟨piece, hpiece⟩ : ∃ piece, (finalPieces tools masters)[i]? = some piece :=
      ⟨_, List.getElem?_eq_getElem (hlength ▸ hi)⟩
    have hstart := hkeeps.starts i _ (by rw [hchapters, getElem?_recordedChapters, hpiece]; rfl)
    rwa [startMs_sub_exactOffset] at hstart
  · intro hdrift
    refine ⟨audiobook, heq, ?_⟩
    rw [hchapters]
    refine ⟨(length_recordedChapters _).trans hlength, ?_, ?_⟩
    · intro i chapter hchapter
      rw [getElem?_recordedChapters, Option.map_eq_some_iff] at hchapter
      obtain ⟨piece, hpiece, rfl⟩ := hchapter
      rw [startMs_sub_exactOffset]
      exact hdrift i (hlength ▸ (List.getElem?_eq_some_iff.mp hpiece).1)
    · intro i chapter next hchapter hnext
      rw [getElem?_recordedChapters, Option.map_eq_some_iff] at hchapter hnext
      obtain ⟨piece, hpiece, rfl⟩ := hchapter
      obtain ⟨piece', -, rfl⟩ := hnext
      simp [List.take_add_one, hpiece]

theorem abs_excessMs_le (exactMs : ℚ) : |excessMs exactMs| ≤ 1 / 2 := by
  have hle := Int.floor_le (exactMs + 1 / 2)
  have hlt := Int.lt_floor_add_one (exactMs + 1 / 2)
  rw [excessMs, nearestMs, abs_le]
  constructor <;> linarith

theorem abs_driftMs_le (i : ℕ) : |driftMs tools masters i| ≤ i / 2 := by
  have hsum (files : List File) :
      |(files.map fun file => excessMs (tools.exactMs file)).sum| ≤ files.length / 2 := by
    induction files with
    | nil => simp
    | cons file files ih =>
      have hfile := abs_excessMs_le (tools.exactMs file)
      rw [List.map_cons, List.sum_cons, List.length_cons, Nat.cast_add_one]
      exact (abs_add_le _ _).trans (by linarith)
  have hle : ((chapterFiles tools masters).take i).length ≤ i := List.length_take_le _ _
  have hcast : (((chapterFiles tools masters).take i).length : ℚ) ≤ i := by exact_mod_cast hle
  exact (hsum _).trans (by linarith)

end recorded

/-! ## Half a Millisecond in Every Chapter -/

/-- Files that are their lengths, all of one loudness. -/
def plainTools : AudioTools ℚ where
  exactMs := id
  integratedLufs _ := -18
  applyGainAndConvert file _ := file
  concatDemuxCopy := List.sum
  exactMs_concatDemuxCopy files := by simp

/-- Chapters of half an hour and twelve samples. -/
def halfMillisecondChapters (n : ℕ) : List (ChapterMaster ℚ) :=
  List.replicate n { chapterId := 0, chapterAudioId := 0, title := none, file := 1800000 + 1 / 2 }

theorem driftMs_halfMillisecondChapters {n i : ℕ} (h : i ≤ n) :
    driftMs plainTools (halfMillisecondChapters n) i = i / 2 := by
  have hfiles : chapterFiles plainTools (halfMillisecondChapters n) =
      List.replicate n (1800000 + 1 / 2 : ℚ) := by
    simp [chapterFiles, finalPieces, halfMillisecondChapters, finalPiece, plainTools]
  have hexcess : excessMs (1800000 + 1 / 2) = 1 / 2 := by
    norm_num [excessMs, nearestMs]
  rw [driftMs, hfiles, List.take_replicate, List.map_replicate, List.sum_replicate, min_eq_left h]
  simp only [plainTools, id, hexcess, nsmul_eq_mul]
  ring

theorem not_timesKept_halfMillisecondChapters {n : ℕ} (h : 151 < n) :
    ¬ TimesKept plainTools (halfMillisecondChapters n) := by
  intro hkept
  have hindex : 151 < (halfMillisecondChapters n).length := by
    rwa [halfMillisecondChapters, List.length_replicate]
  have hdrift := (timesKept_iff_driftMs _ _).mp hkept 151 hindex
  rw [driftMs_halfMillisecondChapters h.le, chapterMarkerToleranceMs] at hdrift
  norm_num at hdrift

/-- The starts keep to the audio as far as the roundings before them do, and in all books of `n`
chapters if and only if there are not too many of them. -/
theorem timesKept_iff (n : ℕ) :
    ((∀ (File : Type) (tools : AudioTools File) (masters : List (ChapterMaster File)),
        masters.length = n → TimesKept tools masters) ↔ n ≤ 151) ∧
      ∀ (File : Type) (tools : AudioTools File) (masters : List (ChapterMaster File)),
        masters.length = n → (TimesKept tools masters ↔
          ∀ i < n, |driftMs tools masters i| ≤ chapterMarkerToleranceMs) := by
  refine ⟨⟨fun h => ?_, fun hn File tools masters hlength => ?_⟩, ?_⟩
  · by_contra hn
    exact not_timesKept_halfMillisecondChapters (Nat.lt_of_not_le hn)
      (h ℚ plainTools _ List.length_replicate)
  · refine (timesKept_iff_driftMs tools masters).mpr fun i hi => ?_
    -- half a millisecond for each of the chapters before the last one
    have hi : (i : ℚ) ≤ 150 := by exact_mod_cast (by omega : i ≤ 150)
    refine (abs_driftMs_le tools masters i).trans ?_
    rw [chapterMarkerToleranceMs]
    linarith
  · rintro File tools masters rfl
    exact timesKept_iff_driftMs tools masters

theorem not_forall_timesKept :
    ¬ ∀ (File : Type) (tools : AudioTools File) (masters : List (ChapterMaster File)),
      TimesKept tools masters := fun h =>
  not_timesKept_halfMillisecondChapters (by decide : 151 < 152)
    (h ℚ plainTools (halfMillisecondChapters 152))

end AudioBook.Mastering
