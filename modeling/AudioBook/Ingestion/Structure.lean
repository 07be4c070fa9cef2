import AudioBook.Ingestion.Persist
import AudioBook.Ingestion.Text
import Mathlib.Data.Rat.Defs

/-!
# Structure Detection

`detectStructure` of `structure/detect-structure.ts`: the blocks of a parsed book are split into
chapters, the blocks of a chapter into sections and paragraphs, and the paragraphs are numbered
along the spine of the book.
-/

namespace AudioBook.Structure

inductive SourceKind
  | pdf
  | epub
  | imageSet
  deriving DecidableEq, Repr

inductive ExtractionMethod
  | digitalText
  | ocr
  | epubSpine
  | imageOcr
  deriving DecidableEq, Repr

inductive BlockType
  | heading
  | paragraph
  | listItem
  | blockquote
  | table
  | caption
  | footnote
  | pageArtifact
  deriving DecidableEq, Repr

inductive SourceLocator
  | pdf (page blockIndex : ℕ)
  | epub (spineIndex : ℕ) (xpath : Text) (charOffset : ℕ)
  | image (imageIndex : ℕ)
  deriving DecidableEq

def SourceLocator.spineIndex : SourceLocator → Option ℕ
  | .epub spineIndex _ _ => some spineIndex
  | _ => none

def SourceLocator.page : SourceLocator → Option ℕ
  | .pdf page _ => some page
  | _ => none

structure ExtractedBlock where
  type : BlockType
  text : Text
  headingLevel : Option ℕ := none
  locator : SourceLocator
  extractionMethod : ExtractionMethod
  confidence : Option ℚ := none

structure ExtractedDocument where
  sourceKind : SourceKind
  blocks : List ExtractedBlock

/-- A paragraph of `splitChapterIntoSections`, which is not numbered yet. -/
structure RawParagraph where
  text : Text
  rawText : Text
  sectionOrderIndex : Option ℕ
  sourcePageNumber : Option ℕ
  sourcePageEndNumber : Option ℕ
  sourceLocator : SourceLocator
  extractionMethod : ExtractionMethod
  extractionConfidence : Option ℚ

structure CanonicalParagraph extends RawParagraph where
  orderIndex : ℕ
  spinePosition : ℕ

/-- A section of `splitChapterIntoSections`. -/
structure RawSection where
  orderIndex : ℕ
  title : Text

structure CanonicalSection extends RawSection where
  spineStart : ℕ
  spineEnd : ℕ

structure CanonicalChapter where
  orderIndex : ℕ
  spineStart : ℕ
  spineEnd : ℕ
  title : Option Text
  matterType : MatterType
  sections : List CanonicalSection
  paragraphs : List CanonicalParagraph

structure StructureResult where
  chapters : List CanonicalChapter
  warnings : List String

/-! ## Chapters -/

structure RawChapter where
  title : Option Text := none
  blocks : List ExtractedBlock := []

/-- The variables of `splitIntoChapters`: the chapters, of which `current` is the last, and the
last spine item. -/
structure ChapterSplit where
  closed : List RawChapter := []
  current : Option RawChapter := none
  lastSpineIndex : Option ℕ := none

def startsNewChapter (u : UnicodeData) (isEpub : Bool) (split : ChapterSplit)
    (block : ExtractedBlock) : Bool :=
  let spineIndex := block.locator.spineIndex
  let newSpineItem := isEpub && spineIndex.isSome && decide (spineIndex ≠ split.lastSpineIndex)
  let isHeading := decide (block.type = .heading)
  split.current.isNone || newSpineItem || (isHeading && !isEpub && isChapterHeading u block.text) ||
    (isHeading && isEpub && decide (block.headingLevel.getD 2 = 1))

/-- One block of `splitIntoChapters`. A heading that starts a chapter is its title and no block of
it. -/
def ChapterSplit.step (u : UnicodeData) (isEpub : Bool) (split : ChapterSplit)
    (block : ExtractedBlock) : ChapterSplit :=
  let lastSpineIndex := block.locator.spineIndex.or split.lastSpineIndex
  if startsNewChapter u isEpub split block then
    { closed := split.closed ++ split.current.toList
      current :=
        if block.type = .heading then some { title := some block.text }
        else some { blocks := [block] }
      lastSpineIndex := lastSpineIndex }
  else
    { split with
      current := split.current.map fun chapter => { chapter with blocks := chapter.blocks ++ [block] }
      lastSpineIndex := lastSpineIndex }

def ChapterSplit.chapters (split : ChapterSplit) : List RawChapter :=
  split.closed ++ split.current.toList

def splitIntoChapters (u : UnicodeData) (blocks : List ExtractedBlock) (isEpub : Bool) :
    List RawChapter :=
  (blocks.foldl (ChapterSplit.step u isEpub) {}).chapters

/-! ## Sections and Paragraphs -/

/-- `/\p{Ll}-$/u`. -/
def endsHyphenated (u : UnicodeData) (text : Text) : Bool :=
  match text.reverse with
  | '-' :: c :: _ => u.isLowercaseLetter c
  | _ => false

/-- `/^\p{Ll}/u`. -/
def startsLowercase (u : UnicodeData) : Text → Bool
  | c :: _ => u.isLowercaseLetter c
  | [] => false

/-- The variables of `splitChapterIntoSections`. -/
structure SectionSplit where
  sectionsList : List RawSection := []
  paragraphs : List RawParagraph := []
  currentSectionIndex : Option ℕ := none

def ExtractedBlock.toParagraph (block : ExtractedBlock) (text : Text)
    (sectionOrderIndex : Option ℕ) : RawParagraph where
  text := text
  rawText := block.text
  sectionOrderIndex := sectionOrderIndex
  sourcePageNumber := block.locator.page
  sourcePageEndNumber := block.locator.page
  sourceLocator := block.locator
  extractionMethod := block.extractionMethod
  extractionConfidence := block.confidence

/-- A block with text goes on with the word that the previous paragraph breaks off. -/
def continues (u : UnicodeData) (config : IngestionConfig) (previous : RawParagraph)
    (currentSectionIndex : Option ℕ) (text : Text) : Bool :=
  config.dehyphenate && decide (previous.sectionOrderIndex = currentSectionIndex) &&
    endsHyphenated u previous.text && startsLowercase u text

def RawParagraph.merge (previous : RawParagraph) (block : ExtractedBlock) (text : Text) :
    RawParagraph :=
  { previous with
    text := previous.text.dropLast ++ text
    rawText := previous.rawText ++ ('\n' :: block.text)
    sourcePageEndNumber := block.locator.page.or previous.sourcePageEndNumber }

def SectionSplit.addText (u : UnicodeData) (config : IngestionConfig) (split : SectionSplit)
    (block : ExtractedBlock) (text : Text) : SectionSplit :=
  let opened := split.paragraphs ++ [block.toParagraph text split.currentSectionIndex]
  match split.paragraphs.getLast? with
  | none => { split with paragraphs := opened }
  | some previous =>
      if continues u config previous split.currentSectionIndex text then
        { split with paragraphs := split.paragraphs.dropLast ++ [previous.merge block text] }
      else { split with paragraphs := opened }

/-- One block of `splitChapterIntoSections`. -/
def SectionSplit.step (u : UnicodeData) (config : IngestionConfig) (split : SectionSplit)
    (block : ExtractedBlock) : SectionSplit :=
  if block.type = .heading then
    { split with
      sectionsList := split.sectionsList ++ [⟨split.sectionsList.length, block.text⟩]
      currentSectionIndex := some split.sectionsList.length }
  else if block.type = .pageArtifact then split
  else if isPageNumberLike u block.text then split
  else
    let text := normalizeText u config block.text
    if text = [] then split else split.addText u config block text

def splitChapterIntoSections (u : UnicodeData) (config : IngestionConfig)
    (blocks : List ExtractedBlock) : SectionSplit :=
  blocks.foldl (SectionSplit.step u config) {}

/-! ## The Spine -/

/-- The paragraphs of a chapter, numbered from a place in the chapter and on the spine on. -/
def numberParagraphs : ℕ → ℕ → List RawParagraph → List CanonicalParagraph
  | _, _, [] => []
  | paragraphOrder, spineCounter, paragraph :: paragraphs =>
      { paragraph with orderIndex := paragraphOrder, spinePosition := spineCounter } ::
        numberParagraphs (paragraphOrder + 1) (spineCounter + 1) paragraphs

/-- `spineValues.length > 0 ? Math.min(...spineValues) : fallback`. -/
def spineMin (paragraphs : List CanonicalParagraph) (fallback : ℕ) : ℕ :=
  (paragraphs.map CanonicalParagraph.spinePosition).min?.getD fallback

/-- `spineValues.length > 0 ? Math.max(...spineValues) : fallback`. -/
def spineMax (paragraphs : List CanonicalParagraph) (fallback : ℕ) : ℕ :=
  (paragraphs.map CanonicalParagraph.spinePosition).max?.getD fallback

def sectionParagraphs (paragraphs : List CanonicalParagraph) (orderIndex : ℕ) :
    List CanonicalParagraph :=
  paragraphs.filter fun paragraph => decide (paragraph.sectionOrderIndex = some orderIndex)

/-- The chapter that is made of a raw chapter when the spine counter is at `spineCounter`. -/
def canonicalChapter (u : UnicodeData) (config : IngestionConfig) (chapterIndex spineCounter : ℕ)
    (raw : RawChapter) : CanonicalChapter :=
  let split := splitChapterIntoSections u config raw.blocks
  let paragraphs := numberParagraphs 0 spineCounter split.paragraphs
  let spineStart := spineMin paragraphs (spineCounter + paragraphs.length)
  let spineEnd := spineMax paragraphs (spineCounter + paragraphs.length)
  { orderIndex := chapterIndex
    spineStart := spineStart
    spineEnd := spineEnd
    title := raw.title
    matterType := classifyMatterType u raw.title
    sections := split.sectionsList.map fun s =>
      { s with
        spineStart := spineMin (sectionParagraphs paragraphs s.orderIndex) spineStart
        spineEnd := spineMax (sectionParagraphs paragraphs s.orderIndex) spineEnd }
    paragraphs := paragraphs }

/-- The chapters from number `chapterIndex` and spine counter `spineCounter` on. -/
def canonicalChapters (u : UnicodeData) (config : IngestionConfig) :
    ℕ → ℕ → List RawChapter → List CanonicalChapter
  | _, _, [] => []
  | chapterIndex, spineCounter, raw :: rest =>
      let chapter := canonicalChapter u config chapterIndex spineCounter raw
      chapter ::
        canonicalChapters u config (chapterIndex + 1) (spineCounter + chapter.paragraphs.length) rest

def chapterWarning (chapter : CanonicalChapter) : Option String :=
  let index := chapter.orderIndex
  let title := String.ofList (chapter.title.getD "untitled".toList)
  if chapter.paragraphs.isEmpty then
    some s!"POSSIBLE_MISSING_TEXT: chapter {index} (\"{title}\") has no paragraphs."
  else none

def detectStructure (u : UnicodeData) (document : ExtractedDocument) (config : IngestionConfig) :
    StructureResult :=
  let rawChapters := splitIntoChapters u document.blocks (decide (document.sourceKind = .epub))
  let chapters := canonicalChapters u config 0 0 rawChapters
  { chapters := chapters
    warnings :=
      (if rawChapters.isEmpty then
        ["POSSIBLE_MISSING_TEXT: no chapters could be identified from the extracted content."]
      else []) ++ chapters.filterMap chapterWarning }

end AudioBook.Structure
