import AudioBook.Ingestion.Structure
import AudioBook.Relational.Table
import Mathlib.Algebra.BigOperators.Group.List.Basic
import Mathlib.Algebra.GroupWithZero.Nat

/-!
# The Result of an Ingestion Run

`runIngestionPipeline` on a parsed document: the detected structure, the quality report on it, and
the hashes. The parsers and SHA-256 are outside: a document is what a parser returned, and the
digest is a parameter.
-/

namespace AudioBook.Structure

inductive QcOutcome
  | pass
  | warn
  | needsReview
  deriving DecidableEq, Repr

/-- `OUTCOME_RANK`. -/
def QcOutcome.rank : QcOutcome → ℕ
  | pass => 0
  | warn => 1
  | needsReview => 2

inductive ParsedPageOutcome
  | ok
  | needsReview
  | failed
  deriving DecidableEq, Repr

structure ExtractedPage where
  pageNumber : ℕ
  extractionMethod : ExtractionMethod
  status : ParsedPageOutcome
  failureReasonCode : Option String := none
  charCount : ℕ
  confidence : Option ℚ := none

/-- What a parser returns: the blocks, and the pages where the format has any. -/
structure ParsedDocument extends ExtractedDocument where
  pages : Option (List ExtractedPage) := none

structure PipelineConfig extends IngestionConfig where
  pipelineVersion : ℕ := 1

/-- `length` of a string: its UTF-16 code units. -/
def utf16Length (text : Text) : ℕ :=
  (text.map fun c => if c.toNat < 0x10000 then 1 else 2).sum

def paragraphTexts (chapters : List CanonicalChapter) : List Text :=
  chapters.flatMap fun chapter => chapter.paragraphs.map fun paragraph => paragraph.text

/-! ## The Quality Report -/

/-- `checkContentLossRatio`: less than 40% or 70% of the characters are retained. -/
def checkContentLossRatio (rawCharCount normalizedCharCount : ℕ) : QcOutcome :=
  if rawCharCount = 0 then .pass
  else if 10 * normalizedCharCount < 4 * rawCharCount then .needsReview
  else if 10 * normalizedCharCount < 7 * rawCharCount then .warn
  else .pass

def checkEmptyChapters (chapters : List CanonicalChapter) : QcOutcome :=
  if chapters.any fun chapter => chapter.paragraphs.isEmpty then .needsReview else .pass

/-- `checkDuplicateParagraphs`. Short lines may repeat. -/
def checkDuplicateParagraphs (chapters : List CanonicalChapter) : QcOutcome :=
  if ((paragraphTexts chapters).filter fun text => decide (40 ≤ utf16Length text)).Nodup then .pass
  else .warn

def checkPageCoverage (pages : List ExtractedPage) : QcOutcome :=
  let pageNumbers := pages.map ExtractedPage.pageNumber
  let maxPage := pageNumbers.max?.getD 0
  if (List.range' 1 maxPage).any fun n => decide (n ∉ pageNumbers) then .needsReview
  else if pages.any fun page => decide (page.status ≠ .ok) then .warn
  else .pass

/-- The outcome of `buildQualityReport`: the worst of its checks. -/
def buildQualityReport (chapters : List CanonicalChapter) (rawCharCount normalizedCharCount : ℕ)
    (pages : Option (List ExtractedPage)) : QcOutcome :=
  let checks := [checkContentLossRatio rawCharCount normalizedCharCount,
    checkEmptyChapters chapters, checkDuplicateParagraphs chapters] ++
      (pages.map checkPageCoverage).toList
  checks.foldl (fun worst check => if worst.rank < check.rank then check else worst) .pass

/-! ## The Run -/

/-- `join('\n')`. -/
def joinLines (texts : List Text) : Text := (texts.intersperse ['\n']).flatten

/-- `IngestionResult`. -/
structure PipelineResult where
  sourceKind : SourceKind
  chapters : List CanonicalChapter
  pages : Option (List ExtractedPage)
  warnings : List String
  qualityOutcome : QcOutcome
  rawTextContentHash : Hash
  contentHash : Hash

variable (sha256Hex : Text → Hash)

/-- The hash by which an ingested text is recognized. -/
def contentHash (chapters : List CanonicalChapter) : Hash :=
  sha256Hex (joinLines (paragraphTexts chapters))

def runIngestionPipeline (u : UnicodeData) (config : PipelineConfig) (document : ParsedDocument) :
    PipelineResult :=
  let detected := detectStructure u document.toExtractedDocument config.toIngestionConfig
  let rawCharCount := (document.blocks.map fun block => utf16Length block.text).sum
  let normalizedCharCount := ((paragraphTexts detected.chapters).map utf16Length).sum
  { sourceKind := document.sourceKind
    chapters := detected.chapters
    pages := document.pages
    warnings := detected.warnings
    qualityOutcome :=
      buildQualityReport detected.chapters rawCharCount normalizedCharCount document.pages
    rawTextContentHash := sha256Hex (joinLines (document.blocks.map ExtractedBlock.text))
    contentHash := contentHash sha256Hex detected.chapters }

end AudioBook.Structure
