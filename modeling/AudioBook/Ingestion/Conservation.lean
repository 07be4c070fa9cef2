import AudioBook.Ingestion.SpineRanges
import Mathlib.Data.List.Forall2

/-!
# Conservation of Text

Every block with text that `detectStructure` keeps goes into one paragraph, and the paragraphs
hold these texts in the order of the document and nothing else. Where a block breaks off within a
word and the next one goes on with it, the two share a paragraph and the hyphen between them is
dropped.
-/

namespace AudioBook.Structure

variable (u : UnicodeData) (config : IngestionConfig)

/-- A block of text, neither a heading nor an artifact of a page. -/
def narrates (block : ExtractedBlock) : Bool :=
  decide (block.type ≠ .heading) && decide (block.type ≠ .pageArtifact) &&
    decide (normalizeText u config block.text ≠ [])

/-- The blocks that one paragraph is made of: the one that opens it and those that go on with it. -/
structure Passage where
  first : ExtractedBlock
  rest : List ExtractedBlock

def Passage.blocks (passage : Passage) : List ExtractedBlock := passage.first :: passage.rest

/-- The text that is broken off, without its hyphen, and the text of a block that goes on with
it. -/
def rejoin (text : Text) (block : ExtractedBlock) : Text :=
  text.dropLast ++ normalizeText u config block.text

/-- Every block goes on with a word that the text before it breaks off. -/
def Rejoins : Text → List ExtractedBlock → Prop
  | _, [] => True
  | text, block :: blocks =>
      (endsHyphenated u text = true ∧ startsLowercase u (normalizeText u config block.text) = true) ∧
        Rejoins (rejoin u config text block) blocks

/-- A paragraph holds the text of a passage. -/
structure Carries (passage : Passage) (paragraph : RawParagraph) : Prop where
  /-- The texts of the blocks, without the hyphens at which they are rejoined. -/
  text : paragraph.text = passage.rest.foldl (rejoin u config)
    (normalizeText u config passage.first.text)
  /-- Texts are rejoined only if dehyphenation is on. -/
  dehyphenates : passage.rest ≠ [] → config.dehyphenate = true
  /-- Texts are rejoined only at a broken word. -/
  rejoins : Rejoins u config (normalizeText u config passage.first.text) passage.rest

/-- The paragraphs hold the texts of the blocks. -/
def Conserved (blocks : List ExtractedBlock) (paragraphs : List RawParagraph) : Prop :=
  ∃ passages : List Passage, passages.flatMap Passage.blocks = blocks ∧
    List.Forall₂ (Carries u config) passages paragraphs

/-- A block of text that is not taken for a page number. -/
def keeps (block : ExtractedBlock) : Bool :=
  narrates u config block && !isPageNumberLike u block.text

variable {u config}

section passages

theorem Conserved.nil : Conserved u config [] [] := ⟨[], rfl, List.Forall₂.nil⟩

variable {blocks : List ExtractedBlock}

theorem Conserved.append {blocks' : List ExtractedBlock}
    {paragraphs paragraphs' : List RawParagraph} (h : Conserved u config blocks paragraphs)
    (h' : Conserved u config blocks' paragraphs') :
    Conserved u config (blocks ++ blocks') (paragraphs ++ paragraphs') := by
  obtain ⟨passages, rfl, hcarries⟩ := h
  obtain ⟨passages', rfl, hcarries'⟩ := h'
  exact ⟨passages ++ passages', List.flatMap_append, List.rel_append hcarries hcarries'⟩

theorem Conserved.singleton (u : UnicodeData) (config : IngestionConfig)
    (block : ExtractedBlock) (sectionOrderIndex : Option ℕ) :
    Conserved u config [block]
      [block.toParagraph (normalizeText u config block.text) sectionOrderIndex] := by
  refine ⟨[⟨block, []⟩], rfl, List.Forall₂.cons ⟨rfl, ?_, trivial⟩ List.Forall₂.nil⟩
  exact fun h => absurd rfl h

variable {block : ExtractedBlock}

theorem Rejoins.append {text : Text} (h : Rejoins u config text blocks)
    (hends : endsHyphenated u (blocks.foldl (rejoin u config) text) = true)
    (hstarts : startsLowercase u (normalizeText u config block.text) = true) :
    Rejoins u config text (blocks ++ [block]) := by
  induction blocks generalizing text with
  | nil => exact ⟨⟨hends, hstarts⟩, trivial⟩
  | cons b blocks ih => exact ⟨h.1, ih h.2 hends⟩

theorem Carries.merge {passage : Passage} {previous : RawParagraph} {section' : Option ℕ}
    (h : Carries u config passage previous)
    (hcontinues : continues u config previous section' (normalizeText u config block.text) = true) :
    Carries u config ⟨passage.first, passage.rest ++ [block]⟩
      (previous.merge block (normalizeText u config block.text)) := by
  unfold continues at hcontinues
  simp only [Bool.and_eq_true] at hcontinues
  obtain ⟨⟨⟨hdehyphenate, -⟩, hends⟩, hstarts⟩ := hcontinues
  refine ⟨?_, fun _ => hdehyphenate, h.rejoins.append (h.text ▸ hends) hstarts⟩
  rw [List.foldl_append, ← h.text]
  rfl

theorem Conserved.merge {paragraphs : List RawParagraph} {previous : RawParagraph}
    {section' : Option ℕ} (h : Conserved u config blocks paragraphs)
    (hlast : paragraphs.getLast? = some previous)
    (hcontinues : continues u config previous section' (normalizeText u config block.text) = true) :
    Conserved u config (blocks ++ [block])
      (paragraphs.dropLast ++ [previous.merge block (normalizeText u config block.text)]) := by
  obtain ⟨init, rfl⟩ := List.getLast?_eq_some_iff.mp hlast
  obtain ⟨passages, rfl, hcarries⟩ := h
  rw [List.dropLast_concat]
  -- the last passage is that of the last paragraph
  have hinit := List.forall₂_take_append _ _ _ hcarries
  have hend := List.forall₂_drop_append _ _ _ hcarries
  have hsplit := List.take_append_drop init.length passages
  generalize passages.take init.length = front at hinit hsplit
  generalize passages.drop init.length = back at hend hsplit
  obtain ⟨passage, back, hpassage, hnil, rfl⟩ := List.forall₂_cons_right_iff.mp hend
  rw [List.forall₂_nil_right_iff.mp hnil] at hsplit
  refine ⟨front ++ [⟨passage.first, passage.rest ++ [block]⟩], ?_,
    List.rel_append hinit (List.Forall₂.cons (hpassage.merge hcontinues) List.Forall₂.nil)⟩
  rw [← hsplit, List.flatMap_append, List.flatMap_append, List.append_assoc]
  simp [Passage.blocks]

end passages

section blocks

theorem keeps_eq_false_of_type (u : UnicodeData) (config : IngestionConfig) {block : ExtractedBlock}
    (h : block.type = .heading ∨ block.type = .pageArtifact) : keeps u config block = false := by
  unfold keeps narrates
  rcases h with h | h <;> simp [h]

theorem Conserved.step {blocks : List ExtractedBlock} {split : SectionSplit}
    (h : Conserved u config (blocks.filter (keeps u config)) split.paragraphs)
    (block : ExtractedBlock) :
    Conserved u config ((blocks ++ [block]).filter (keeps u config))
      (split.step u config block).paragraphs := by
  rw [List.filter_append]
  have hskip : keeps u config block = false →
      Conserved u config (blocks.filter (keeps u config) ++ [block].filter (keeps u config))
        split.paragraphs := by
    intro hkeeps
    rw [List.filter_singleton, hkeeps, cond_false, List.append_nil]
    exact h
  unfold SectionSplit.step
  split_ifs with hheading hartifact hnumber
  · exact hskip (keeps_eq_false_of_type u config (Or.inl hheading))
  · exact hskip (keeps_eq_false_of_type u config (Or.inr hartifact))
  · exact hskip (by simp [keeps, hnumber])
  · simp only
    split_ifs with hempty
    · exact hskip (by simp [keeps, narrates, hempty])
    · have hkeeps : keeps u config block = true := by
        simp [keeps, narrates, hheading, hartifact, hnumber, hempty]
      rw [List.filter_singleton, hkeeps, cond_true]
      have hopen := h.append
        (Conserved.singleton u config block split.currentSectionIndex)
      unfold SectionSplit.addText
      cases hlast : split.paragraphs.getLast? with
      | none => exact hopen
      | some previous =>
          simp only
          split_ifs with hcontinues
          · exact h.merge hlast hcontinues
          · exact hopen

theorem splitChapterIntoSections_conserved (blocks : List ExtractedBlock) :
    Conserved u config (blocks.filter (keeps u config))
      (splitChapterIntoSections u config blocks).paragraphs := by
  unfold splitChapterIntoSections
  induction blocks using List.reverseRecOn with
  | nil => exact Conserved.nil
  | append_singleton blocks block ih =>
      rw [List.foldl_append]
      exact ih.step block

end blocks

section chapters

def ChapterSplit.blocks (split : ChapterSplit) : List ExtractedBlock :=
  split.chapters.flatMap RawChapter.blocks

theorem ChapterSplit.blocks_step (isEpub : Bool) (split : ChapterSplit) (block : ExtractedBlock) :
    (split.step u isEpub block).blocks = split.blocks ++
      if startsNewChapter u isEpub split block = true ∧ block.type = .heading then []
      else [block] := by
  unfold ChapterSplit.blocks ChapterSplit.chapters ChapterSplit.step
  by_cases hstarts : startsNewChapter u isEpub split block = true
  · by_cases hheading : block.type = .heading
    · simp [hstarts, hheading]
    · simp [hstarts, hheading]
  · -- a chapter is open, or the block would start one
    cases hcurrent : split.current with
    | none => exact absurd (by simp [startsNewChapter, hcurrent]) hstarts
    | some chapter => simp [hstarts]

theorem splitIntoChapters_filter (blocks : List ExtractedBlock) (isEpub : Bool) :
    ((splitIntoChapters u blocks isEpub).flatMap RawChapter.blocks).filter (keeps u config)
      = blocks.filter (keeps u config) := by
  show (blocks.foldl (ChapterSplit.step u isEpub) {}).blocks.filter _ = _
  induction blocks using List.reverseRecOn with
  | nil => rfl
  | append_singleton blocks block ih =>
      rw [List.foldl_append, List.foldl_cons, List.foldl_nil, ChapterSplit.blocks_step,
        List.filter_append, ih, List.filter_append]
      congr 1
      split_ifs with htitle
      · simp [keeps_eq_false_of_type u config (Or.inl htitle.2)]
      · rfl

theorem canonicalChapters_conserved (u : UnicodeData) (config : IngestionConfig) (chapterIndex spineCounter : ℕ)
    (rawChapters : List RawChapter) :
    Conserved u config ((rawChapters.flatMap RawChapter.blocks).filter (keeps u config))
      (((canonicalChapters u config chapterIndex spineCounter rawChapters).flatMap
        CanonicalChapter.paragraphs).map CanonicalParagraph.toRawParagraph) := by
  induction rawChapters generalizing chapterIndex spineCounter with
  | nil => exact Conserved.nil
  | cons raw rest ih =>
      rw [canonicalChapters, List.flatMap_cons, List.flatMap_cons, List.filter_append,
        List.map_append]
      refine Conserved.append ?_ (ih _ _)
      show Conserved u config _ ((numberParagraphs 0 spineCounter _).map _)
      rw [numberParagraphs_toRawParagraph]
      exact splitChapterIntoSections_conserved raw.blocks

end chapters

variable (u config)

/-- Every block of text goes into exactly one paragraph, and the paragraphs, which follow each
other on the spine, hold these texts in the order of the document and nothing else. What happens to
blocks that are taken for page numbers is left open. -/
theorem detectStructure_conserved (document : ExtractedDocument) :
    ((detectStructure u document config).chapters.flatMap CanonicalChapter.paragraphs).map
        CanonicalParagraph.spinePosition
      = List.range' 0 ((detectStructure u document config).chapters.flatMap
          CanonicalChapter.paragraphs).length ∧
    ∃ removed : ExtractedBlock → Bool,
      (∀ block, removed block = true → isPageNumberLike u block.text = true) ∧
      Conserved u config
        (document.blocks.filter fun block => narrates u config block && !removed block)
        (((detectStructure u document config).chapters.flatMap
          CanonicalChapter.paragraphs).map CanonicalParagraph.toRawParagraph) := by
  refine ⟨canonicalChapters_positions u config 0 0 _, fun block => isPageNumberLike u block.text,
    fun _ h => h, ?_⟩
  have h := canonicalChapters_conserved u config 0 0
    (splitIntoChapters u document.blocks (decide (document.sourceKind = .epub)))
  rw [splitIntoChapters_filter] at h
  exact h

/-- The paragraphs hold the normalised texts of the blocks unchanged. -/
def ConservedExactly (blocks : List ExtractedBlock) (paragraphs : List RawParagraph) : Prop :=
  ∃ passages : List Passage, passages.flatMap Passage.blocks = blocks ∧
    List.Forall₂ (fun passage paragraph => paragraph.text
      = passage.blocks.flatMap fun block => normalizeText u config block.text) passages paragraphs

variable {u config} in
theorem ConservedExactly.flatMap_text {blocks : List ExtractedBlock}
    {paragraphs : List RawParagraph} (h : ConservedExactly u config blocks paragraphs) :
    paragraphs.flatMap RawParagraph.text
      = blocks.flatMap fun block => normalizeText u config block.text := by
  obtain ⟨passages, rfl, hcarries⟩ := h
  induction hcarries with
  | nil => rfl
  | cons htext _ ih =>
      rw [List.flatMap_cons, List.flatMap_cons, List.flatMap_append, ih, htext]

/-- A word that a page break splits. -/
def brokenWord : ExtractedDocument where
  sourceKind := .pdf
  blocks := [pdfBlock 0 .paragraph "It was an extra-", pdfBlock 1 .paragraph "ordinary afternoon."]

/-- The hyphen of a broken word is dropped. -/
theorem not_forall_conservedExactly :
    ¬ ∀ (u : UnicodeData) (document : ExtractedDocument) (config : IngestionConfig),
      ConservedExactly u config (document.blocks.filter (keeps u config))
        (((detectStructure u document config).chapters.flatMap
          CanonicalChapter.paragraphs).map CanonicalParagraph.toRawParagraph) := by
  intro hall
  have h := (hall asciiData brokenWord {}).flatMap_text
  revert h
  decide +kernel

end AudioBook.Structure
