import AudioBook.Director.Writes
import AudioBook.Intervals.Tiling
import Mathlib.Data.List.Induction

/-!
# Coverage of a Script

`validate_coverage` of `director/validation.py`: the spans that chunks speak are grouped by
paragraph, and for each paragraph they are swept in order while the furthest end is kept.

`validateCoverage_verified_iff` says what the result means. The sweep starts at the first
character and asks that the last end is not before the last character, so the spans of a verified
paragraph cover every character once; it does not ask that they stop there, and it never looks at
the spans of paragraphs it was not given.
-/

namespace AudioBook

open Intervals

/-- `spans_by_paragraph`: the spans of each paragraph, in the order of the chunks. -/
abbrev SpansByParagraph := List (Id × List Span)

/-- `spans_by_paragraph.setdefault(pid, []).append(span)`. -/
def SpansByParagraph.append (pid : Id) (span : Span) : SpansByParagraph → SpansByParagraph
  | [] => [(pid, [span])]
  | (key, spans) :: rest =>
      if key = pid then (key, spans ++ [span]) :: rest
      else (key, spans) :: SpansByParagraph.append pid span rest

/-- `spans_by_paragraph.get(pid, [])`. -/
def SpansByParagraph.get (pid : Id) : SpansByParagraph → List Span
  | [] => []
  | (key, spans) :: rest => if key = pid then spans else SpansByParagraph.get pid rest

def ChunkSource.span (source : ChunkSource) : Span where
  start := source.paragraphCharStart
  stop := source.paragraphCharEnd

/-- The grouping loop of `validate_coverage`. -/
def spansByParagraph (chunks : List ChunkSource) : SpansByParagraph :=
  chunks.foldl (fun spans chunk => spans.append chunk.paragraphId chunk.span) []

/-- The counters of `validate_coverage` and the furthest end seen in the current paragraph. -/
structure CoverageSweep where
  gapCount : ℕ
  overlapCount : ℕ
  cursor : ℤ

def CoverageSweep.step (sweep : CoverageSweep) (span : Span) : CoverageSweep where
  gapCount := if sweep.cursor < span.start then sweep.gapCount + 1 else sweep.gapCount
  overlapCount := if span.start < sweep.cursor then sweep.overlapCount + 1 else sweep.overlapCount
  cursor := max sweep.cursor span.stop

/-- One paragraph of `validate_coverage`, from the counters of the paragraphs before it. -/
def sweepParagraph (spans : SpansByParagraph) (counts : ℕ × ℕ) (paragraph : Paragraph) : ℕ × ℕ :=
  let swept := (sort (spans.get paragraph.id)).foldl CoverageSweep.step ⟨counts.1, counts.2, 0⟩
  let gapCount :=
    if swept.cursor < paragraph.text.length then swept.gapCount + 1 else swept.gapCount
  (gapCount, swept.overlapCount)

def validateCoverage (paragraphs : List Paragraph) (chunks : List ChunkSource) : CoverageResult :=
  let counts := paragraphs.foldl (sweepParagraph (spansByParagraph chunks)) (0, 0)
  { verified := decide (counts.1 = 0 ∧ counts.2 = 0)
    gapCount := counts.1
    overlapCount := counts.2 }

def spansOf (pid : Id) (chunks : List ChunkSource) : List Span :=
  (chunks.filter fun chunk => decide (chunk.paragraphId = pid)).map ChunkSource.span

section grouping

theorem SpansByParagraph.get_append (pid key : Id) (span : Span) (spans : SpansByParagraph) :
    SpansByParagraph.get key (spans.append pid span)
      = SpansByParagraph.get key spans ++ if pid = key then [span] else [] := by
  induction spans with
  | nil => simp [SpansByParagraph.append, SpansByParagraph.get]
  | cons entry rest ih =>
      obtain ⟨k, l⟩ := entry
      unfold SpansByParagraph.append
      by_cases hk : k = pid
      · subst hk
        rw [if_pos rfl]
        unfold SpansByParagraph.get
        by_cases hkey : k = key
        · simp [hkey]
        · simp [hkey]
      · rw [if_neg hk]
        unfold SpansByParagraph.get
        by_cases hkey : k = key
        · have hpid : pid ≠ key := fun h => hk (hkey.trans h.symm)
          simp [hkey, hpid]
        · rw [if_neg hkey, if_neg hkey, ih]

theorem get_spansByParagraph (pid : Id) (chunks : List ChunkSource) :
    (spansByParagraph chunks).get pid = spansOf pid chunks := by
  unfold spansByParagraph
  induction chunks using List.reverseRecOn with
  | nil => rfl
  | append_singleton chunks chunk ih =>
      rw [List.foldl_append, List.foldl_cons, List.foldl_nil, SpansByParagraph.get_append, ih]
      unfold spansOf
      rw [List.filter_append, List.map_append]
      by_cases hid : chunk.paragraphId = pid
      · simp [hid]
      · simp [hid]

end grouping

section sweep

theorem foldl_step_cursor (spans : List Span) (sweep : CoverageSweep) :
    (spans.foldl CoverageSweep.step sweep).cursor = furthest sweep.cursor spans := by
  induction spans generalizing sweep with
  | nil => rfl
  | cons span spans ih =>
      rw [List.foldl_cons, ih]
      rfl

theorem foldl_step_counts (spans : List Span) (sweep : CoverageSweep) :
    sweep.gapCount ≤ (spans.foldl CoverageSweep.step sweep).gapCount ∧
      sweep.overlapCount ≤ (spans.foldl CoverageSweep.step sweep).overlapCount ∧
      ((spans.foldl CoverageSweep.step sweep).gapCount = sweep.gapCount ∧
          (spans.foldl CoverageSweep.step sweep).overlapCount = sweep.overlapCount ↔
        Chained sweep.cursor spans) := by
  induction spans generalizing sweep with
  | nil => simp [Chained]
  | cons span spans ih =>
      obtain ⟨hgap, hoverlap, hiff⟩ := ih (sweep.step span)
      rw [List.foldl_cons]
      -- the counters after this span
      have hgap' : sweep.gapCount ≤ (sweep.step span).gapCount := by
        unfold CoverageSweep.step
        split_ifs <;> simp
      have hoverlap' : sweep.overlapCount ≤ (sweep.step span).overlapCount := by
        unfold CoverageSweep.step
        split_ifs <;> simp
      have hsame : (sweep.step span).gapCount = sweep.gapCount ∧
          (sweep.step span).overlapCount = sweep.overlapCount ↔ span.start = sweep.cursor := by
        unfold CoverageSweep.step
        simp only
        split_ifs <;> omega
      refine ⟨hgap'.trans hgap, hoverlap'.trans hoverlap, ?_⟩
      show _ ↔ span.start = sweep.cursor ∧ Chained (sweep.step span).cursor spans
      rw [← hiff, ← hsame]
      omega

theorem sweepParagraph_counts (spans : SpansByParagraph) (counts : ℕ × ℕ) (paragraph : Paragraph) :
    counts.1 ≤ (sweepParagraph spans counts paragraph).1 ∧
      counts.2 ≤ (sweepParagraph spans counts paragraph).2 ∧
      (sweepParagraph spans counts paragraph = counts ↔
        Tiles 0 (spans.get paragraph.id) ∧
          paragraph.text.length ≤ furthest 0 (spans.get paragraph.id)) := by
  obtain ⟨hgap, hoverlap, hiff⟩ :=
    foldl_step_counts (sort (spans.get paragraph.id)) ⟨counts.1, counts.2, 0⟩
  have hcursor := foldl_step_cursor (sort (spans.get paragraph.id)) ⟨counts.1, counts.2, 0⟩
  rw [chained_sort_iff_tiles] at hiff
  rw [furthest_perm (sort_perm _)] at hcursor
  unfold sweepParagraph
  simp only at hgap hoverlap hiff hcursor ⊢
  rw [hcursor, Prod.ext_iff]
  simp only
  refine ⟨by split_ifs <;> omega, hoverlap, ?_⟩
  rw [← hiff]
  split_ifs <;> omega

theorem foldl_sweepParagraph_counts (spans : SpansByParagraph) (paragraphs : List Paragraph)
    (counts : ℕ × ℕ) :
    counts.1 ≤ (paragraphs.foldl (sweepParagraph spans) counts).1 ∧
      counts.2 ≤ (paragraphs.foldl (sweepParagraph spans) counts).2 ∧
      (paragraphs.foldl (sweepParagraph spans) counts = counts ↔
        ∀ paragraph ∈ paragraphs, Tiles 0 (spans.get paragraph.id) ∧
          paragraph.text.length ≤ furthest 0 (spans.get paragraph.id)) := by
  induction paragraphs generalizing counts with
  | nil => simp
  | cons paragraph paragraphs ih =>
      obtain ⟨hgap, hoverlap, hiff⟩ := ih (sweepParagraph spans counts paragraph)
      obtain ⟨hgap', hoverlap', hiff'⟩ := sweepParagraph_counts spans counts paragraph
      rw [List.foldl_cons, List.forall_mem_cons, ← hiff', ← hiff]
      refine ⟨hgap'.trans hgap, hoverlap'.trans hoverlap, ?_⟩
      simp only [Prod.ext_iff]
      omega

end sweep

/-- Coverage is verified exactly when, for every paragraph given, the spans that name it tile the
positions from its first character to their furthest end, which is not before its last one. -/
theorem validateCoverage_verified_iff (paragraphs : List Paragraph) (chunks : List ChunkSource) :
    (validateCoverage paragraphs chunks).verified = true ↔
      ∀ paragraph ∈ paragraphs, Tiles 0 (spansOf paragraph.id chunks) ∧
        paragraph.text.length ≤ furthest 0 (spansOf paragraph.id chunks) := by
  have hiff := (foldl_sweepParagraph_counts (spansByParagraph chunks) paragraphs (0, 0)).2.2
  simp only [get_spansByParagraph] at hiff
  rw [← hiff, Prod.ext_iff]
  unfold validateCoverage
  simp

/-- The chunks speak every character of every paragraph once, and nothing else. -/
def CoversExactly (paragraphs : List Paragraph) (chunks : List ChunkSource) : Prop :=
  (∀ paragraph ∈ paragraphs, ∀ x : ℤ, 0 ≤ x → x < paragraph.text.length →
    cover (spansOf paragraph.id chunks) x = 1) ∧
  ∀ chunk ∈ chunks, ∃ paragraph ∈ paragraphs, paragraph.id = chunk.paragraphId ∧
    0 ≤ chunk.paragraphCharStart ∧ chunk.paragraphCharEnd ≤ paragraph.text.length

def testParagraph : Paragraph where
  id := 1
  bookVersionId := 1
  chapterId := 1
  orderIndex := 0
  spinePosition := 0
  text := "Hello world, this is a test.".toList

/-- The spans of the coverage test. The second one stops after the last of the 28 characters. -/
def testSources : List ChunkSource := [⟨1, 0, 12⟩, ⟨1, 12, 29⟩]

/-- A verified script need not be exact: a chunk may run past the end of its paragraph. -/
theorem not_forall_verified_iff_coversExactly :
    ¬ ∀ (paragraphs : List Paragraph) (chunks : List ChunkSource),
      (validateCoverage paragraphs chunks).verified = true ↔ CoversExactly paragraphs chunks := by
  intro hall
  have hverified : (validateCoverage [testParagraph] testSources).verified = true := by
    decide +kernel
  have hexact := (hall [testParagraph] testSources).mp hverified
  obtain ⟨paragraph, hmem, -, -, hstop⟩ := hexact.2 ⟨1, 12, 29⟩ (by decide)
  rw [List.mem_singleton.mp hmem] at hstop
  exact absurd hstop (by decide)

end AudioBook
