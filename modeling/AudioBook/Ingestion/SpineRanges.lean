import AudioBook.Ingestion.Structure
import Mathlib.Data.List.Infix
import Mathlib.Order.Lattice

/-!
# Spine Ranges

The positions that `detectStructure` gives to paragraphs and the ranges that it gives to chapters
and sections. A chapter without paragraphs has no position of its own: its range is the position of
the next paragraph of the book. A section without paragraphs has the range of its chapter.
-/

namespace AudioBook.Structure

/-! ## Numbering -/

section numbering

theorem numberParagraphs_length (paragraphOrder spineCounter : ℕ) (paragraphs : List RawParagraph) :
    (numberParagraphs paragraphOrder spineCounter paragraphs).length = paragraphs.length := by
  induction paragraphs generalizing paragraphOrder spineCounter with
  | nil => rfl
  | cons paragraph paragraphs ih => rw [numberParagraphs, List.length_cons, ih, List.length_cons]

theorem numberParagraphs_spinePosition (paragraphOrder spineCounter : ℕ)
    (paragraphs : List RawParagraph) :
    (numberParagraphs paragraphOrder spineCounter paragraphs).map CanonicalParagraph.spinePosition
      = List.range' spineCounter paragraphs.length := by
  induction paragraphs generalizing paragraphOrder spineCounter with
  | nil => rfl
  | cons paragraph paragraphs ih =>
      rw [numberParagraphs, List.map_cons, ih, List.length_cons, List.range'_succ]

theorem numberParagraphs_toRawParagraph (paragraphOrder spineCounter : ℕ)
    (paragraphs : List RawParagraph) :
    (numberParagraphs paragraphOrder spineCounter paragraphs).map CanonicalParagraph.toRawParagraph
      = paragraphs := by
  induction paragraphs generalizing paragraphOrder spineCounter with
  | nil => rfl
  | cons paragraph paragraphs ih => rw [numberParagraphs, List.map_cons, ih]

end numbering

/-! ## Ranges of Consecutive Positions -/

section ranges

variable {paragraphs : List CanonicalParagraph} {start n fallback : ℕ}

theorem spineMin_of_range' (h : paragraphs.map CanonicalParagraph.spinePosition = List.range' start n)
    (hpos : 0 < n) : spineMin paragraphs fallback = start := by
  unfold spineMin
  rw [h]
  have hmin : (List.range' start n).min? = some start := by
    rw [List.min?_eq_some_iff]
    refine ⟨List.mem_range'_1.mpr ⟨le_refl _, by omega⟩, fun x hx => (List.mem_range'_1.mp hx).1⟩
  rw [hmin]
  rfl

theorem spineMax_of_range' (h : paragraphs.map CanonicalParagraph.spinePosition = List.range' start n)
    (hpos : 0 < n) : spineMax paragraphs fallback = start + n - 1 := by
  unfold spineMax
  rw [h]
  have hmax : (List.range' start n).max? = some (start + n - 1) := by
    rw [List.max?_eq_some_iff]
    refine ⟨List.mem_range'_1.mpr ⟨by omega, by omega⟩, fun x hx => ?_⟩
    have hlt := (List.mem_range'_1.mp hx).2
    omega
  rw [hmax]
  rfl

/-- What the smallest and the largest of consecutive positions say. -/
structure Brackets (paragraphs : List CanonicalParagraph) (spineStart spineEnd : ℕ) : Prop where
  positions : paragraphs.map CanonicalParagraph.spinePosition
    = List.range' spineStart (spineEnd + 1 - spineStart)
  le : spineStart ≤ spineEnd

theorem Brackets.of_range' {fallback' : ℕ} (h : paragraphs.map CanonicalParagraph.spinePosition
    = List.range' start n) (hne : paragraphs ≠ []) :
    Brackets paragraphs (spineMin paragraphs fallback) (spineMax paragraphs fallback') ∧
      spineMin paragraphs fallback = start ∧ spineMax paragraphs fallback' + 1 = start + n := by
  have hlen := congrArg List.length h
  rw [List.length_map, List.length_range'] at hlen
  have hpos : 0 < n := by
    rw [← hlen]
    exact List.length_pos_iff.mpr hne
  rw [spineMin_of_range' h hpos, spineMax_of_range' h hpos]
  refine ⟨⟨?_, by omega⟩, rfl, by omega⟩
  rw [h]
  congr 1
  omega

theorem Brackets.mem_range {paragraph : CanonicalParagraph} {spineStart spineEnd : ℕ}
    (h : Brackets paragraphs spineStart spineEnd) (hmem : paragraph ∈ paragraphs) :
    spineStart ≤ paragraph.spinePosition ∧ paragraph.spinePosition ≤ spineEnd := by
  have hpos := List.mem_map_of_mem (f := CanonicalParagraph.spinePosition) hmem
  rw [h.positions, List.mem_range'_1] at hpos
  omega

theorem Brackets.exists_eq {spineStart spineEnd position : ℕ}
    (h : Brackets paragraphs spineStart spineEnd) (hstart : spineStart ≤ position)
    (hend : position ≤ spineEnd) :
    ∃ paragraph ∈ paragraphs, paragraph.spinePosition = position := by
  have hmem : position ∈ paragraphs.map CanonicalParagraph.spinePosition := by
    rw [h.positions, List.mem_range'_1]
    omega
  exact List.mem_map.mp hmem

end ranges

/-! ## Sections -/

section sections

/-- The place of a section in its chapter: paragraphs before the first section come first. -/
def sectionRank (sectionOrderIndex : Option ℕ) : ℕ := sectionOrderIndex.elim 0 (· + 1)

theorem sectionRank_eq_iff {sectionOrderIndex : Option ℕ} {i : ℕ} :
    sectionRank sectionOrderIndex = i + 1 ↔ sectionOrderIndex = some i := by
  cases sectionOrderIndex <;> simp [sectionRank]

/-- What `splitChapterIntoSections` keeps: the sections are numbered in order, and the paragraphs
lie in sections that increase up to the current one, which is the last. -/
structure SectionSplit.Ordered (split : SectionSplit) : Prop where
  orderIndexes : split.sectionsList.map RawSection.orderIndex
    = List.range split.sectionsList.length
  current : sectionRank split.currentSectionIndex = split.sectionsList.length
  sorted : (split.paragraphs.map fun p => sectionRank p.sectionOrderIndex).Pairwise (· ≤ ·)
  bounded : ∀ paragraph ∈ split.paragraphs,
    sectionRank paragraph.sectionOrderIndex ≤ sectionRank split.currentSectionIndex

variable {u : UnicodeData} {config : IngestionConfig} {split : SectionSplit}

theorem SectionSplit.Ordered.append (h : split.Ordered) {paragraph : RawParagraph}
    (hsection : paragraph.sectionOrderIndex = split.currentSectionIndex) :
    SectionSplit.Ordered { split with paragraphs := split.paragraphs ++ [paragraph] } where
  orderIndexes := h.orderIndexes
  current := h.current
  sorted := by
    rw [List.map_append, List.pairwise_append]
    refine ⟨h.sorted, List.pairwise_singleton _ _, fun a ha b hb => ?_⟩
    obtain ⟨p, hp, rfl⟩ := List.mem_map.mp ha
    rw [List.map_singleton, List.mem_singleton] at hb
    rw [hb, hsection]
    exact h.bounded p hp
  bounded p hp := by
    rcases List.mem_append.mp hp with hp | hp
    · exact h.bounded p hp
    · rw [List.mem_singleton.mp hp, hsection]

theorem merge_sectionOrderIndex {paragraphs : List RawParagraph} {previous : RawParagraph}
    (hlast : paragraphs.getLast? = some previous) (block : ExtractedBlock) (text : Text) :
    (paragraphs.dropLast ++ [previous.merge block text]).map RawParagraph.sectionOrderIndex
      = paragraphs.map RawParagraph.sectionOrderIndex := by
  obtain ⟨init, rfl⟩ := List.getLast?_eq_some_iff.mp hlast
  rw [List.dropLast_concat, List.map_append, List.map_append]
  rfl

theorem SectionSplit.Ordered.merge (h : split.Ordered) {previous : RawParagraph}
    (hlast : split.paragraphs.getLast? = some previous) (block : ExtractedBlock) (text : Text) :
    SectionSplit.Ordered
      { split with paragraphs := split.paragraphs.dropLast ++ [previous.merge block text] } where
  orderIndexes := h.orderIndexes
  current := h.current
  sorted := by
    have hsame := congrArg (List.map sectionRank) (merge_sectionOrderIndex hlast block text)
    rw [List.map_map, List.map_map] at hsame
    have hsorted := h.sorted
    rw [show (split.paragraphs.map fun p => sectionRank p.sectionOrderIndex)
      = split.paragraphs.map (sectionRank ∘ RawParagraph.sectionOrderIndex) from rfl, ← hsame]
      at hsorted
    exact hsorted
  bounded p hp := by
    have hmem := List.mem_map_of_mem (f := RawParagraph.sectionOrderIndex) hp
    rw [merge_sectionOrderIndex hlast block text] at hmem
    obtain ⟨p', hp', heq⟩ := List.mem_map.mp hmem
    rw [← heq]
    exact h.bounded p' hp'

theorem SectionSplit.Ordered.addText (h : split.Ordered) (block : ExtractedBlock) (text : Text) :
    (split.addText u config block text).Ordered := by
  unfold SectionSplit.addText
  cases hlast : split.paragraphs.getLast? with
  | none => exact h.append rfl
  | some previous =>
      simp only
      split_ifs
      · exact h.merge hlast block text
      · exact h.append rfl

theorem SectionSplit.Ordered.step (h : split.Ordered) (block : ExtractedBlock) :
    (split.step u config block).Ordered := by
  unfold SectionSplit.step
  split_ifs with hheading hartifact hnumber
  · -- a heading opens the next section
    refine ⟨?_, ?_, h.sorted, fun p hp => ?_⟩
    · rw [List.map_append, h.orderIndexes, List.length_append, List.length_singleton,
        List.range_succ]
      rfl
    · rw [List.length_append]
      rfl
    · have hle := h.bounded p hp
      rw [h.current] at hle
      exact hle.trans (Nat.le_succ _)
  · exact h
  · exact h
  · simp only
    split_ifs
    · exact h
    · exact h.addText block _

theorem splitChapterIntoSections_ordered (u : UnicodeData) (config : IngestionConfig)
    (blocks : List ExtractedBlock) : (splitChapterIntoSections u config blocks).Ordered := by
  unfold splitChapterIntoSections
  have hinit : SectionSplit.Ordered {} := ⟨rfl, rfl, List.Pairwise.nil, by simp⟩
  generalize ({} : SectionSplit) = split at hinit
  induction blocks generalizing split with
  | nil => exact hinit
  | cons block blocks ih => exact ih (split.step u config block) (hinit.step block)

end sections

/-! ## The Ranges of a Chapter -/

section chapter

theorem filter_rank_append {α : Type*} {rank : α → ℕ} {l : List α}
    (h : (l.map rank).Pairwise (· ≤ ·)) (k : ℕ) :
    l = l.filter (fun a => decide (rank a < k)) ++ (l.filter (fun a => decide (rank a = k)) ++
      l.filter fun a => decide (k < rank a)) := by
  induction l with
  | nil => rfl
  | cons a l ih =>
      rw [List.map_cons, List.pairwise_cons] at h
      have hle : ∀ b ∈ l, rank a ≤ rank b := fun b hb => h.1 _ (List.mem_map_of_mem hb)
      have hrest := ih h.2
      rcases Nat.lt_trichotomy (rank a) k with hlt | heq | hgt
      · have hne : ¬ rank a = k := by omega
        have hng : ¬ k < rank a := by omega
        simp only [List.filter_cons, hlt, hne, hng, decide_true, decide_false, if_true,
          Bool.false_eq_true, if_false]
        exact congrArg (a :: ·) hrest
      · have hnone : l.filter (fun b => decide (rank b < k)) = [] :=
          List.filter_eq_nil_iff.mpr fun b hb => by
            have hb := hle b hb
            simp only [decide_eq_true_eq]
            omega
        rw [hnone, List.nil_append] at hrest
        have hnl : ¬ rank a < k := by omega
        have hng : ¬ k < rank a := by omega
        simp only [List.filter_cons, heq, hnone, Nat.lt_irrefl, decide_true, decide_false, if_true,
          Bool.false_eq_true, if_false]
        exact congrArg (a :: ·) hrest
      · have hrank : ∀ b ∈ a :: l, k < rank b := fun b hb => by
          rcases List.mem_cons.mp hb with rfl | hb
          · exact hgt
          · exact hgt.trans_le (hle b hb)
        have hnone : ∀ p : α → Bool, (∀ b ∈ a :: l, p b = false) → (a :: l).filter p = [] :=
          fun p hp => List.filter_eq_nil_iff.mpr fun b hb => by
            rw [hp b hb]
            exact Bool.false_ne_true
        rw [List.filter_eq_self.mpr fun b hb => decide_eq_true (hrank b hb),
          hnone _ fun b hb => decide_eq_false (Nat.not_lt.mpr (hrank b hb).le),
          hnone _ fun b hb => decide_eq_false (hrank b hb).ne']
        rfl

variable {paragraphs : List CanonicalParagraph} {start : ℕ}

theorem sectionParagraphs_spinePosition
    (hpositions : paragraphs.map CanonicalParagraph.spinePosition
      = List.range' start paragraphs.length)
    (hsorted : (paragraphs.map fun p => sectionRank p.sectionOrderIndex).Pairwise (· ≤ ·)) (i : ℕ) :
    ∃ first, (sectionParagraphs paragraphs i).map CanonicalParagraph.spinePosition
      = List.range' first (sectionParagraphs paragraphs i).length := by
  have hsplit := filter_rank_append hsorted (i + 1)
  have hsection : paragraphs.filter (fun p => decide (sectionRank p.sectionOrderIndex = i + 1))
      = sectionParagraphs paragraphs i := by
    unfold sectionParagraphs
    simp only [sectionRank_eq_iff]
  rw [hsection] at hsplit
  generalize paragraphs.filter (fun p => decide (sectionRank p.sectionOrderIndex < i + 1)) = front
    at hsplit
  generalize paragraphs.filter (fun p => decide (i + 1 < sectionRank p.sectionOrderIndex)) = back
    at hsplit
  refine ⟨start + front.length, ?_⟩
  generalize sectionParagraphs paragraphs i = inside at hsplit
  have hlen : paragraphs.length = front.length + (inside.length + back.length) := by
    rw [hsplit, List.length_append, List.length_append]
  rw [hlen, ← List.range'_append_1, ← List.range'_append_1, hsplit, List.map_append,
    List.map_append] at hpositions
  have htail := (List.append_inj hpositions (by simp)).2
  exact (List.append_inj htail (by simp)).1

theorem spinePosition_lt_of_sectionRank_lt
    (hpositions : paragraphs.map CanonicalParagraph.spinePosition
      = List.range' start paragraphs.length)
    (hsorted : (paragraphs.map fun p => sectionRank p.sectionOrderIndex).Pairwise (· ≤ ·))
    {p q : CanonicalParagraph} (hp : p ∈ paragraphs) (hq : q ∈ paragraphs)
    (hlt : sectionRank p.sectionOrderIndex < sectionRank q.sectionOrderIndex) :
    p.spinePosition < q.spinePosition := by
  have hpos : paragraphs.Pairwise fun a b => a.spinePosition < b.spinePosition := by
    rw [← List.pairwise_map, hpositions]
    exact List.pairwise_lt_range'
  rw [List.pairwise_map] at hsorted
  let agree := fun a b : CanonicalParagraph =>
    (sectionRank a.sectionOrderIndex < sectionRank b.sectionOrderIndex →
      a.spinePosition < b.spinePosition) ∧
    (sectionRank b.sectionOrderIndex < sectionRank a.sectionOrderIndex →
      b.spinePosition < a.spinePosition)
  have hagree : paragraphs.Pairwise agree :=
    (hsorted.and hpos).imp fun h => ⟨fun _ => h.2, fun h' => absurd h' (Nat.not_lt.mpr h.1)⟩
  have : Std.Symm agree := ⟨fun a b h => ⟨h.2, h.1⟩⟩
  have hrefl : ∀ a ∈ paragraphs, agree a a :=
    fun a _ => ⟨fun h => absurd h (Nat.lt_irrefl _), fun h => absurd h (Nat.lt_irrefl _)⟩
  exact (hagree.forall_of_forall hrefl hp hq).1 hlt

structure SectionRanges (chapter : CanonicalChapter) : Prop where
  /-- Every section lies in the range of the chapter. -/
  within : ∀ s ∈ chapter.sections, chapter.spineStart ≤ s.spineStart ∧
    s.spineStart ≤ s.spineEnd ∧ s.spineEnd ≤ chapter.spineEnd
  /-- The range of a section with paragraphs is exactly their positions. -/
  brackets : ∀ s ∈ chapter.sections, sectionParagraphs chapter.paragraphs s.orderIndex ≠ [] →
    Brackets (sectionParagraphs chapter.paragraphs s.orderIndex) s.spineStart s.spineEnd
  /-- Sections with paragraphs are disjoint and increase. -/
  increasing : chapter.sections.Pairwise fun s t =>
    sectionParagraphs chapter.paragraphs s.orderIndex ≠ [] →
    sectionParagraphs chapter.paragraphs t.orderIndex ≠ [] → s.spineEnd < t.spineStart
  /-- A section without paragraphs has the range of the chapter. -/
  empty : ∀ s ∈ chapter.sections, sectionParagraphs chapter.paragraphs s.orderIndex = [] →
    s.spineStart = chapter.spineStart ∧ s.spineEnd = chapter.spineEnd

variable (u : UnicodeData) (config : IngestionConfig) (chapterIndex spineCounter : ℕ)
  (raw : RawChapter)

theorem canonicalChapter_spinePosition :
    (canonicalChapter u config chapterIndex spineCounter raw).paragraphs.map
        CanonicalParagraph.spinePosition
      = List.range' spineCounter
          (canonicalChapter u config chapterIndex spineCounter raw).paragraphs.length := by
  unfold canonicalChapter
  simp only
  rw [numberParagraphs_spinePosition, numberParagraphs_length]

theorem canonicalChapter_sorted :
    ((canonicalChapter u config chapterIndex spineCounter raw).paragraphs.map fun p =>
      sectionRank p.sectionOrderIndex).Pairwise (· ≤ ·) := by
  have hsorted := (splitChapterIntoSections_ordered u config raw.blocks).sorted
  have hraw := numberParagraphs_toRawParagraph 0 spineCounter
    (splitChapterIntoSections u config raw.blocks).paragraphs
  rw [← hraw, List.map_map] at hsorted
  exact hsorted

theorem canonicalChapter_brackets
    (hne : (canonicalChapter u config chapterIndex spineCounter raw).paragraphs ≠ []) :
    Brackets (canonicalChapter u config chapterIndex spineCounter raw).paragraphs
        (canonicalChapter u config chapterIndex spineCounter raw).spineStart
        (canonicalChapter u config chapterIndex spineCounter raw).spineEnd ∧
      (canonicalChapter u config chapterIndex spineCounter raw).spineStart = spineCounter ∧
      (canonicalChapter u config chapterIndex spineCounter raw).spineEnd + 1
        = spineCounter
          + (canonicalChapter u config chapterIndex spineCounter raw).paragraphs.length :=
  Brackets.of_range' (canonicalChapter_spinePosition u config chapterIndex spineCounter raw) hne

theorem canonicalChapter_of_nil
    (hnil : (canonicalChapter u config chapterIndex spineCounter raw).paragraphs = []) :
    (canonicalChapter u config chapterIndex spineCounter raw).spineStart = spineCounter ∧
      (canonicalChapter u config chapterIndex spineCounter raw).spineEnd = spineCounter := by
  unfold canonicalChapter at hnil ⊢
  simp only at hnil ⊢
  rw [hnil]
  exact ⟨rfl, rfl⟩

theorem canonicalChapter_sectionRanges :
    SectionRanges (canonicalChapter u config chapterIndex spineCounter raw) := by
  have hpositions := canonicalChapter_spinePosition u config chapterIndex spineCounter raw
  have hsorted := canonicalChapter_sorted u config chapterIndex spineCounter raw
  have hbrackets := canonicalChapter_brackets u config chapterIndex spineCounter raw
  have hnil := canonicalChapter_of_nil u config chapterIndex spineCounter raw
  have hordered := (splitChapterIntoSections_ordered u config raw.blocks).orderIndexes
  -- the sections of the chapter, with their ranges
  have hsections : (canonicalChapter u config chapterIndex spineCounter raw).sections
      = (splitChapterIntoSections u config raw.blocks).sectionsList.map fun s =>
        { s with
          spineStart := spineMin (sectionParagraphs
            (canonicalChapter u config chapterIndex spineCounter raw).paragraphs s.orderIndex)
            (canonicalChapter u config chapterIndex spineCounter raw).spineStart
          spineEnd := spineMax (sectionParagraphs
            (canonicalChapter u config chapterIndex spineCounter raw).paragraphs s.orderIndex)
            (canonicalChapter u config chapterIndex spineCounter raw).spineEnd } := rfl
  generalize canonicalChapter u config chapterIndex spineCounter raw = chapter at *
  have hempty : ∀ s ∈ chapter.sections, sectionParagraphs chapter.paragraphs s.orderIndex = [] →
      s.spineStart = chapter.spineStart ∧ s.spineEnd = chapter.spineEnd := by
    intro s hs h
    rw [hsections] at hs
    obtain ⟨s', -, rfl⟩ := List.mem_map.mp hs
    simp only at h ⊢
    rw [h]
    exact ⟨rfl, rfl⟩
  have hsection : ∀ s ∈ chapter.sections,
      sectionParagraphs chapter.paragraphs s.orderIndex ≠ [] →
      Brackets (sectionParagraphs chapter.paragraphs s.orderIndex) s.spineStart s.spineEnd := by
    intro s hs h
    rw [hsections] at hs
    obtain ⟨s', -, rfl⟩ := List.mem_map.mp hs
    obtain ⟨first, hfirst⟩ :=
      sectionParagraphs_spinePosition hpositions hsorted s'.orderIndex
    exact (Brackets.of_range' hfirst h).1
  have hle : chapter.spineStart ≤ chapter.spineEnd := by
    by_cases h : chapter.paragraphs = []
    · rw [(hnil h).1, (hnil h).2]
    · exact (hbrackets h).1.le
  refine ⟨fun s hs => ?_, hsection, ?_, hempty⟩
  · by_cases h : sectionParagraphs chapter.paragraphs s.orderIndex = []
    · rw [(hempty s hs h).1, (hempty s hs h).2]
      exact ⟨le_refl _, hle, le_refl _⟩
    · -- both ends are positions of paragraphs of the chapter
      have hs' := hsection s hs h
      obtain ⟨p, hp, hstart⟩ := hs'.exists_eq (le_refl _) hs'.le
      obtain ⟨q, hq, hend⟩ := hs'.exists_eq hs'.le (le_refl _)
      have hp' : p ∈ chapter.paragraphs := (List.mem_filter.mp hp).1
      have hq' : q ∈ chapter.paragraphs := (List.mem_filter.mp hq).1
      have hchapter := (hbrackets (List.ne_nil_of_mem hp')).1
      rw [← hstart, ← hend]
      refine ⟨(hchapter.mem_range hp').1, ?_, (hchapter.mem_range hq').2⟩
      rw [hstart, hend]
      exact hs'.le
  · have hindexes : chapter.sections.Pairwise fun s t => s.orderIndex < t.orderIndex := by
      rw [← List.pairwise_map, hsections, List.map_map]
      show (List.map RawSection.orderIndex _).Pairwise (· < ·)
      rw [hordered]
      exact List.pairwise_lt_range
    refine hindexes.imp_of_mem fun {s t} hs ht hlt hne hne' => ?_
    have hs' := hsection s hs hne
    have ht' := hsection t ht hne'
    obtain ⟨p, hp, hend⟩ := hs'.exists_eq hs'.le (le_refl _)
    obtain ⟨q, hq, hstart⟩ := ht'.exists_eq (le_refl _) ht'.le
    rw [← hend, ← hstart]
    have hp' := List.mem_filter.mp hp
    have hq' := List.mem_filter.mp hq
    refine spinePosition_lt_of_sectionRank_lt hpositions hsorted hp'.1 hq'.1 ?_
    rw [of_decide_eq_true hp'.2, of_decide_eq_true hq'.2]
    exact Nat.succ_lt_succ hlt

end chapter

/-! ## The Ranges of a Book -/

/-- The numbering of the paragraphs of a book and the ranges of its chapters and sections. -/
structure SpineRanges (chapters : List CanonicalChapter) : Prop where
  /-- The paragraphs have the positions 0, 1, … in the order of the document. -/
  positions : (chapters.flatMap CanonicalChapter.paragraphs).map CanonicalParagraph.spinePosition
    = List.range (chapters.flatMap CanonicalChapter.paragraphs).length
  /-- The range of a chapter with paragraphs is exactly their positions. -/
  brackets : ∀ chapter ∈ chapters, chapter.paragraphs ≠ [] →
    Brackets chapter.paragraphs chapter.spineStart chapter.spineEnd
  /-- The ranges of chapters increase, and a chapter with paragraphs ends before any later one
  starts. -/
  increasing : chapters.Pairwise fun a b =>
    a.spineEnd ≤ b.spineStart ∧ (a.paragraphs ≠ [] → a.spineEnd < b.spineStart)
  /-- The range of a chapter without paragraphs is the position after the paragraphs before it. -/
  empty : ∀ front chapter rest, chapters = front ++ chapter :: rest → chapter.paragraphs = [] →
    chapter.spineStart = (front.flatMap CanonicalChapter.paragraphs).length ∧
      chapter.spineEnd = (front.flatMap CanonicalChapter.paragraphs).length
  sections : ∀ chapter ∈ chapters, SectionRanges chapter

section book

variable (u : UnicodeData) (config : IngestionConfig)

theorem canonicalChapters_positions (chapterIndex spineCounter : ℕ) (rawChapters : List RawChapter) :
    ((canonicalChapters u config chapterIndex spineCounter rawChapters).flatMap
        CanonicalChapter.paragraphs).map CanonicalParagraph.spinePosition
      = List.range' spineCounter ((canonicalChapters u config chapterIndex spineCounter
          rawChapters).flatMap CanonicalChapter.paragraphs).length := by
  induction rawChapters generalizing chapterIndex spineCounter with
  | nil => rfl
  | cons raw rest ih =>
      rw [canonicalChapters, List.flatMap_cons, List.map_append, ih, List.length_append,
        canonicalChapter_spinePosition, List.range'_append_1]

theorem canonicalChapters_eq_append {chapterIndex spineCounter : ℕ} {rawChapters : List RawChapter}
    {front rest : List CanonicalChapter} {chapter : CanonicalChapter}
    (h : canonicalChapters u config chapterIndex spineCounter rawChapters
      = front ++ chapter :: rest) :
    ∃ index raw, chapter = canonicalChapter u config index
      (spineCounter + (front.flatMap CanonicalChapter.paragraphs).length) raw := by
  induction rawChapters generalizing chapterIndex spineCounter front with
  | nil => simp [canonicalChapters] at h
  | cons raw rawChapters ih =>
      rw [canonicalChapters] at h
      cases front with
      | nil => exact ⟨chapterIndex, raw, (List.cons.inj h).1.symm⟩
      | cons first front =>
          obtain ⟨hfirst, htail⟩ := List.cons.inj h
          obtain ⟨index, raw', hchapter⟩ := ih htail
          refine ⟨index, raw', ?_⟩
          rw [hchapter, ← hfirst, List.flatMap_cons, List.length_append, Nat.add_assoc]

theorem exists_canonicalChapter_of_mem {chapterIndex spineCounter : ℕ}
    {rawChapters : List RawChapter} {chapter : CanonicalChapter}
    (h : chapter ∈ canonicalChapters u config chapterIndex spineCounter rawChapters) :
    ∃ index counter raw, spineCounter ≤ counter ∧
      chapter = canonicalChapter u config index counter raw := by
  obtain ⟨front, rest, hsplit⟩ := List.append_of_mem h
  obtain ⟨index, raw, hchapter⟩ := canonicalChapters_eq_append u config hsplit
  exact ⟨index, _, raw, Nat.le_add_right _ _, hchapter⟩

theorem canonicalChapter_range (chapterIndex spineCounter : ℕ) (raw : RawChapter) :
    (canonicalChapter u config chapterIndex spineCounter raw).spineStart = spineCounter ∧
      (canonicalChapter u config chapterIndex spineCounter raw).spineEnd
        ≤ spineCounter + (canonicalChapter u config chapterIndex spineCounter raw).paragraphs.length
      ∧ ((canonicalChapter u config chapterIndex spineCounter raw).paragraphs ≠ [] →
        (canonicalChapter u config chapterIndex spineCounter raw).spineEnd
          < spineCounter
            + (canonicalChapter u config chapterIndex spineCounter raw).paragraphs.length) := by
  by_cases hnil : (canonicalChapter u config chapterIndex spineCounter raw).paragraphs = []
  · obtain ⟨hstart, hend⟩ := canonicalChapter_of_nil u config chapterIndex spineCounter raw hnil
    exact ⟨hstart, hend.le.trans (Nat.le_add_right _ _), fun h => absurd hnil h⟩
  · obtain ⟨-, hstart, hend⟩ :=
      canonicalChapter_brackets u config chapterIndex spineCounter raw hnil
    exact ⟨hstart, by omega, fun _ => by omega⟩

theorem canonicalChapters_increasing (chapterIndex spineCounter : ℕ)
    (rawChapters : List RawChapter) :
    (canonicalChapters u config chapterIndex spineCounter rawChapters).Pairwise fun a b =>
      a.spineEnd ≤ b.spineStart ∧ (a.paragraphs ≠ [] → a.spineEnd < b.spineStart) := by
  induction rawChapters generalizing chapterIndex spineCounter with
  | nil => exact List.Pairwise.nil
  | cons raw rest ih =>
      rw [canonicalChapters, List.pairwise_cons]
      refine ⟨fun b hb => ?_, ih _ _⟩
      obtain ⟨index, counter, raw', hcounter, rfl⟩ := exists_canonicalChapter_of_mem u config hb
      obtain ⟨-, hend, hlt⟩ := canonicalChapter_range u config chapterIndex spineCounter raw
      rw [(canonicalChapter_range u config index counter raw').1]
      exact ⟨hend.trans hcounter, fun hne => (hlt hne).trans_le hcounter⟩

/-- Structure detection numbers the paragraphs along the spine; ranges of chapters and sections
are those of their paragraphs, and only ranges without paragraphs overlap others. -/
theorem detectStructure_spineRanges (document : ExtractedDocument) :
    SpineRanges (detectStructure u document config).chapters where
  positions := by
    rw [List.range_eq_range']
    exact canonicalChapters_positions u config 0 0 _
  brackets chapter hmem hne := by
    obtain ⟨index, counter, raw, -, rfl⟩ := exists_canonicalChapter_of_mem u config hmem
    exact (canonicalChapter_brackets u config index counter raw hne).1
  increasing := canonicalChapters_increasing u config 0 0 _
  empty front chapter rest hsplit hnil := by
    obtain ⟨index, raw, hchapter⟩ := canonicalChapters_eq_append u config hsplit
    rw [Nat.zero_add] at hchapter
    rw [hchapter] at hnil ⊢
    exact canonicalChapter_of_nil u config _ _ raw hnil
  sections chapter hmem := by
    obtain ⟨index, counter, raw, -, rfl⟩ := exists_canonicalChapter_of_mem u config hmem
    exact canonicalChapter_sectionRanges u config index counter raw

end book

def asciiData : UnicodeData where
  nfc := id
  toLowerCase := List.map Char.toLower
  isLetter := Char.isAlpha
  isLowercaseLetter := Char.isLower

def pdfBlock (order : ℕ) (type : BlockType) (text : String) : ExtractedBlock where
  type := type
  text := text.toList
  locator := .pdf 1 order
  extractionMethod := .digitalText

/-- Two chapter headings in a row, and a paragraph. -/
def consecutiveHeadings : ExtractedDocument where
  sourceKind := .pdf
  blocks := [pdfBlock 0 .heading "Part 1", pdfBlock 1 .heading "Chapter 1",
    pdfBlock 2 .paragraph "First paragraph of chapter one."]

/-- The ranges of chapters are disjoint, increase and bracket exactly their own paragraphs, and
the ranges of sections are disjoint and lie in their chapter. -/
structure ExactRanges (chapters : List CanonicalChapter) : Prop where
  positions : (chapters.flatMap CanonicalChapter.paragraphs).map CanonicalParagraph.spinePosition
    = List.range (chapters.flatMap CanonicalChapter.paragraphs).length
  increasing : chapters.Pairwise fun a b => a.spineEnd < b.spineStart
  brackets : ∀ chapter ∈ chapters,
    Brackets chapter.paragraphs chapter.spineStart chapter.spineEnd
  disjoint : ∀ chapter ∈ chapters, chapter.sections.Pairwise fun s t =>
    s.spineEnd < t.spineStart ∨ t.spineEnd < s.spineStart
  within : ∀ chapter ∈ chapters, ∀ s ∈ chapter.sections,
    chapter.spineStart ≤ s.spineStart ∧ s.spineEnd ≤ chapter.spineEnd

/-- A chapter without paragraphs shares its position with the next chapter. -/
theorem not_forall_exactRanges :
    ¬ ∀ (u : UnicodeData) (document : ExtractedDocument) (config : IngestionConfig),
      ExactRanges (detectStructure u document config).chapters := by
  intro hall
  have hincreasing := (hall asciiData consecutiveHeadings {}).increasing
  have hranges : (detectStructure asciiData consecutiveHeadings {}).chapters.map
      (fun chapter => (chapter.spineStart, chapter.spineEnd)) = [(0, 0), (0, 0)] := by
    decide +kernel
  have hpairs : ((detectStructure asciiData consecutiveHeadings {}).chapters.map
      fun chapter => (chapter.spineStart, chapter.spineEnd)).Pairwise fun a b => a.2 < b.1 :=
    List.pairwise_map.mpr hincreasing
  rw [hranges] at hpairs
  exact absurd hpairs (by decide)

end AudioBook.Structure
