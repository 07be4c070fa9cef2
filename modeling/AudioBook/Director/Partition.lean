import AudioBook.Director.Chunker
import AudioBook.Intervals.Tiling

/-!
# The Chunker Partitions a Paragraph

Whatever the text and the budget, the spans that `chunk_paragraph` makes of a paragraph that is not
empty are consecutive: they are in order, none is empty, and together they are the whole text.
-/

namespace AudioBook

open Intervals

variable {maxChars : ℕ}

/-! ## Quotes -/

theorem quoteSpans_consecutive {start pos : ℕ} (h : start ≤ pos) (inQuote : Bool) (text : Text) :
    Consecutive start (pos + text.length)
      ((quoteSpans start pos inQuote text).map fun span => (span.1, span.2.1)) := by
  -- the induction follows the scan; a span is emitted where it ends
  induction text generalizing start pos inQuote with
  | nil =>
      rw [quoteSpans, List.length_nil, Nat.add_zero]
      by_cases hlt : start < pos
      · rw [if_pos hlt]
        exact ⟨rfl, hlt, rfl⟩
      · rw [if_neg hlt]
        show start = pos
        omega
  | cons c cs ih =>
      have hlength : pos + (c :: cs).length = pos + 1 + cs.length := by
        rw [List.length_cons]
        omega
      rw [quoteSpans, hlength]
      by_cases hquote : inQuote = true
      · rw [if_pos hquote]
        by_cases hclose : c = '"' ∨ c = '”'
        · rw [if_pos hclose]
          show start = start ∧ start < pos + 1 ∧ _
          exact ⟨rfl, by omega, ih (le_refl _) false⟩
        · rw [if_neg hclose]
          exact ih (by omega) true
      · rw [if_neg hquote]
        by_cases hopen : c = '"' ∨ c = '“'
        · rw [if_pos hopen]
          by_cases hlt : start < pos
          · rw [if_pos hlt]
            show start = start ∧ start < pos ∧ _
            exact ⟨rfl, hlt, ih (Nat.le_succ pos) true⟩
          · -- nothing lies between the two spans
            obtain rfl : start = pos := by omega
            rw [if_neg hlt]
            exact ih (by omega) true
        · rw [if_neg hopen]
          exact ih (by omega) false

/-! ## The Budget -/

theorem sentenceBoundaries_sorted (pos : ℕ) (armed inRun : Bool) (text : Text) :
    (sentenceBoundaries pos armed inRun text).Pairwise (· ≤ ·) ∧
      ∀ boundary ∈ sentenceBoundaries pos armed inRun text,
        pos ≤ boundary ∧ boundary ≤ pos + text.length := by
  induction text generalizing pos armed inRun with
  | nil =>
      rw [sentenceBoundaries]
      split
      · simp
      · simp
  | cons c cs ih =>
      have hlength : pos + (c :: cs).length = pos + 1 + cs.length := by
        rw [List.length_cons]
        omega
      rw [sentenceBoundaries, hlength]
      split
      · obtain ⟨hsorted, hbounds⟩ := ih (pos + 1) false true
        refine ⟨hsorted, fun boundary hmem => ?_⟩
        have h := hbounds boundary hmem
        omega
      · obtain ⟨hsorted, hbounds⟩ := ih (pos + 1) (endsSentence c) false
        split
        · refine ⟨.cons (fun boundary hmem => ?_) hsorted, fun boundary hmem => ?_⟩
          · have h := hbounds boundary hmem
            omega
          · rcases List.mem_cons.mp hmem with rfl | hmem
            · omega
            · have h := hbounds boundary hmem
              omega
        · refine ⟨hsorted, fun boundary hmem => ?_⟩
          have h := hbounds boundary hmem
          omega

theorem hardSplit_consecutive (hmax : 0 < maxChars) {boundary cursor : ℕ} (hle : cursor ≤ boundary)
    {fuel : ℕ} (hfuel : boundary - cursor ≤ fuel) :
    Consecutive cursor boundary (hardSplit maxChars boundary fuel cursor) := by
  induction fuel generalizing cursor with
  | zero =>
      show cursor = boundary
      omega
  | succ fuel ih =>
      rw [hardSplit]
      by_cases hlt : cursor < boundary
      · rw [if_pos hlt]
        have hpiece : cursor < min (cursor + maxChars) boundary :=
          lt_min (Nat.lt_add_of_pos_right hmax) hlt
        have hstop : min (cursor + maxChars) boundary ≤ boundary := min_le_right _ _
        exact ⟨rfl, hpiece, ih hstop (by omega)⟩
      · rw [if_neg hlt]
        show cursor = boundary
        omega

theorem splitAtBoundaries_consecutive (hmax : 0 < maxChars) {pieceStart last : ℕ}
    {boundaries : List ℕ} (hle : pieceStart ≤ last)
    (hsorted : boundaries.Pairwise (· ≤ ·))
    (hbounds : ∀ boundary ∈ boundaries, pieceStart ≤ boundary ∧ boundary ≤ last) :
    Consecutive pieceStart last
      ((splitAtBoundaries maxChars last pieceStart (boundaries ++ [last])).filter fun piece =>
        decide (piece.1 < piece.2)) := by
  induction boundaries generalizing pieceStart with
  | nil =>
      -- the last boundary is never skipped
      rw [List.nil_append, splitAtBoundaries, if_neg (by simp), splitAtBoundaries]
      split
      · have hpieces := hardSplit_consecutive hmax hle (le_refl (last - pieceStart))
        rw [List.append_nil, hpieces.filter_eq]
        exact hpieces
      · by_cases hlt : pieceStart < last
        · rw [List.filter_cons_of_pos (by simpa using hlt)]
          exact ⟨rfl, hlt, rfl⟩
        · rw [List.filter_cons_of_neg (by simpa using hlt)]
          show pieceStart = last
          omega
  | cons boundary boundaries ih =>
      obtain ⟨hfirst, hsorted⟩ := List.pairwise_cons.mp hsorted
      obtain ⟨hstart, hlast⟩ := hbounds boundary List.mem_cons_self
      have hrest := ih hlast hsorted fun later hmem =>
        ⟨hfirst later hmem, (hbounds later (List.mem_cons_of_mem _ hmem)).2⟩
      rw [List.cons_append, splitAtBoundaries]
      split
      · exact ih hle hsorted fun later hmem => hbounds later (List.mem_cons_of_mem _ hmem)
      · split
        · have hpieces := hardSplit_consecutive hmax hstart (le_refl (boundary - pieceStart))
          rw [List.filter_append, hpieces.filter_eq]
          exact hpieces.append hrest
        · by_cases hlt : pieceStart < boundary
          · rw [List.filter_cons_of_pos (by simpa using hlt)]
            exact ⟨rfl, hlt, hrest⟩
          · obtain rfl : pieceStart = boundary := by omega
            rw [List.filter_cons_of_neg (by simp)]
            exact hrest

variable {text : Text}

theorem sentenceBoundaries_of_span {start stop : ℕ} (hle : start ≤ stop)
    (hstop : stop ≤ text.length) (armed : Bool) :
    (sentenceBoundaries start armed false (slice text start stop)).Pairwise (· ≤ ·) ∧
      ∀ boundary ∈ sentenceBoundaries start armed false (slice text start stop),
        start ≤ boundary ∧ boundary ≤ stop := by
  obtain ⟨hsorted, hbounds⟩ := sentenceBoundaries_sorted start armed false (slice text start stop)
  refine ⟨hsorted, fun boundary hmem => ?_⟩
  have h := hbounds boundary hmem
  have hlength : (slice text start stop).length = stop - start := by
    unfold slice
    rw [List.length_take, List.length_drop]
    omega
  omega

theorem splitToBudget_consecutive (hmax : 0 < maxChars) {start stop : ℕ} (hlt : start < stop)
    (hstop : stop ≤ text.length) :
    Consecutive start stop (splitToBudget text maxChars start stop) := by
  unfold splitToBudget
  split
  · exact ⟨rfl, hlt, rfl⟩
  · obtain ⟨hsorted, hbounds⟩ := sentenceBoundaries_of_span hlt.le hstop
      (((text.take start).getLast?.map endsSentence).getD false)
    exact splitAtBoundaries_consecutive hmax hlt.le hsorted hbounds

/-! ## The Paragraph -/

def ChunkSpan.piece (span : ChunkSpan) : ℕ × ℕ := (span.charStart, span.charEnd)

theorem chunkParagraph_consecutive (hmax : 0 < maxChars) (hne : text ≠ []) :
    Consecutive 0 text.length ((chunkParagraph text maxChars).map ChunkSpan.piece) := by
  have hquotes := quoteSpans_consecutive (le_refl 0) false text
  rw [Nat.zero_add] at hquotes
  -- cutting a span to the budget forgets whether it is a quote
  have hpieces : (chunkParagraph text maxChars).map ChunkSpan.piece
      = ((quoteSpans 0 0 false text).map fun span => (span.1, span.2.1)).flatMap
          fun piece => splitToBudget text maxChars piece.1 piece.2 := by
    unfold chunkParagraph
    rw [if_neg hne, List.map_flatMap, List.flatMap_map]
    congr 1
    funext ⟨start, stop, isDialogue⟩
    rw [List.map_map]
    exact List.map_id _
  rw [hpieces]
  refine hquotes.flatMap fun piece hmem => ?_
  obtain ⟨-, hlt, hstop⟩ := hquotes.bounds hmem
  exact splitToBudget_consecutive hmax hlt hstop

theorem chunkParagraph_nil : (chunkParagraph [] maxChars).map ChunkSpan.piece = [(0, 0)] := rfl

theorem chunkParagraph_bounds (hmax : 0 < maxChars) {span : ChunkSpan}
    (hmem : span ∈ chunkParagraph text maxChars) :
    span.charStart ≤ span.charEnd ∧ span.charEnd ≤ text.length := by
  have hpiece : span.piece ∈ (chunkParagraph text maxChars).map ChunkSpan.piece :=
    List.mem_map_of_mem hmem
  by_cases hne : text = []
  · subst hne
    rw [chunkParagraph_nil, List.mem_singleton] at hpiece
    obtain ⟨hstart, hstop⟩ := Prod.ext_iff.mp hpiece
    have h₁ : span.charStart = 0 := hstart
    have h₂ : span.charEnd = 0 := hstop
    simp [h₁, h₂]
  · obtain ⟨-, hlt, hstop⟩ := (chunkParagraph_consecutive hmax hne).bounds hpiece
    exact ⟨hlt.le, hstop⟩

theorem chunkParagraph_pairwise (hmax : 0 < maxChars) (text : Text) :
    (chunkParagraph text maxChars).Pairwise fun span later => span.charEnd ≤ later.charStart := by
  by_cases hne : text = []
  · subst hne
    exact List.pairwise_singleton _ _
  · exact List.pairwise_map.mp (chunkParagraph_consecutive hmax hne).pairwise

end AudioBook
