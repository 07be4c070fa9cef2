import AudioBook.Director.Partition
import AudioBook.Semantic.Matches

/-!
# Quoted Segments

The quoted segments of a text are the matches of `_QUOTE_RE`. The dialogue spans of the chunker are
these (`quoteSpans_dialogue`), so no chunk mixes dialogue with narration, whatever the budget
(`chunkParagraph_partition`).
-/

namespace AudioBook

open Intervals

/-! ## The Quote Scanner -/

/-- `["“]`. -/
def opensQuote (c : Char) : Bool :=
  decide (c = '"' ∨ c = '“')

/-- `["”]`. -/
def closesQuote (c : Char) : Bool :=
  decide (c = '"' ∨ c = '”')

def quoteRe : Pattern :=
  .seqAll [.chars opensQuote, .star (.chars fun c => !closesQuote c), .upTo 1 (.chars closesQuote)]

def quotedSegments (text : Text) : List (ℕ × ℕ) :=
  (quoteRe.findMatches none 0 0 text).map fun found => (found.start, found.stop)

/-- What follows a quote: the text after its first closing mark. -/
def afterQuote (text : Text) : Text :=
  (text.dropWhile fun c => !closesQuote c).tail

theorem length_afterQuote (text : Text) : (afterQuote text).length ≤ text.length := by
  unfold afterQuote
  rw [List.length_tail]
  have h : (text.dropWhile fun c => !closesQuote c).length ≤ text.length :=
    (List.dropWhile_suffix _).length_le
  omega

theorem afterQuote_eq_drop (text : Text) :
    afterQuote text = text.drop (text.length - (afterQuote text).length) := by
  have hsuffix : afterQuote text <:+ text :=
    (List.tail_suffix _).trans (List.dropWhile_suffix _)
  exact List.suffix_iff_eq_drop.mp hsuffix

theorem matchAt_quoteRe (before : Option Char) (c : Char) (text : Text) :
    if opensQuote c then ∃ m, quoteRe.matchAt ⟨before, c :: text⟩ = some m ∧
      m.cursor.rest = afterQuote text
    else quoteRe.matchAt ⟨before, c :: text⟩ = none := by
  by_cases hopen : opensQuote c
  · rw [if_pos hopen]
    obtain ⟨body, hbody, hrest, -⟩ := Pattern.head?_matchesFrom_star_chars
      (fun c => !closesQuote c) ⟨⟨some c, text⟩, []⟩
    obtain ⟨m, hm, hstop, -⟩ := Pattern.head?_matchesFrom_upTo_chars closesQuote body
    refine ⟨m, ?_, ?_⟩
    · refine Pattern.head?_matchesFrom_seq ⟨⟨some c, text⟩, []⟩ ?_
        (Pattern.head?_matchesFrom_seq body hbody hm)
      simp [hopen]
    · rw [hstop, hrest, afterQuote]
      -- where the class stops there is a closing mark, or nothing
      cases hdrop : text.dropWhile fun c => !closesQuote c with
      | nil => rfl
      | cons x rest =>
          have hclose := List.head?_dropWhile_not (fun c => !closesQuote c) text
          rw [hdrop] at hclose
          simp at hclose
          simp [hclose]
  · rw [if_neg hopen]
    simp [quoteRe, Pattern.matchAt, Pattern.seqAll, Pattern.matchesFrom, Cursor.next, hopen]

theorem findMatches_skip (p : Pattern) (before : Option Char) (pos skip : ℕ) (text : Text) :
    ∃ before', p.findMatches before pos skip text
      = p.findMatches before' (pos + skip) 0 (text.drop skip) := by
  induction text generalizing before pos skip with
  | nil => exact ⟨before, by simp [Pattern.findMatches]⟩
  | cons x text ih =>
      cases skip with
      | zero => exact ⟨before, rfl⟩
      | succ skip =>
          obtain ⟨before', h⟩ := ih (some x) (pos + 1) skip
          refine ⟨before', ?_⟩
          rw [Pattern.findMatches, h, List.drop_succ_cons]
          congr 1
          omega

/-! ## The Spans of the Chunker -/

theorem quoteSpans_inQuote {start pos : ℕ} (hlt : start < pos) (text : Text) :
    quoteSpans start pos true text
      = (start, pos + (text.length - (afterQuote text).length), true) ::
        quoteSpans (pos + (text.length - (afterQuote text).length))
          (pos + (text.length - (afterQuote text).length)) false (afterQuote text) := by
  induction text generalizing pos with
  | nil => simp [quoteSpans, afterQuote, hlt]
  | cons c cs ih =>
      rw [quoteSpans, if_pos rfl]
      by_cases hclose : c = '"' ∨ c = '”'
      · have hcloses : closesQuote c = true := decide_eq_true hclose
        have hafter : afterQuote (c :: cs) = cs := by simp [afterQuote, hcloses]
        rw [if_pos hclose, hafter, List.length_cons, Nat.add_sub_cancel_left]
      · have hcloses : closesQuote c = false := decide_eq_false hclose
        have hafter : afterQuote (c :: cs) = afterQuote cs := by simp [afterQuote, hcloses]
        have hle := length_afterQuote cs
        have hstop : pos + 1 + (cs.length - (afterQuote cs).length)
            = pos + ((c :: cs).length - (afterQuote cs).length) := by
          rw [List.length_cons]
          omega
        rw [if_neg hclose, ih (by omega), hafter, hstop]

theorem quoteSpans_dialogue_from (before : Option Char) {start pos : ℕ} (text : Text) :
    ((quoteSpans start pos false text).filter fun span => span.2.2).map
        (fun span => (span.1, span.2.1))
      = (quoteRe.findMatches before pos 0 text).map fun found => (found.start, found.stop) := by
  -- a match may take many characters, so the induction is on the length
  induction hlength : text.length using Nat.strong_induction_on generalizing before start pos text
    with
  | _ n ih =>
    subst hlength
    cases text with
    | nil =>
        rw [quoteSpans, Pattern.findMatches]
        split <;> rfl
    | cons c cs =>
        have hmatch := matchAt_quoteRe before c cs
        rw [Pattern.findMatches, quoteSpans, if_neg (by simp)]
        by_cases hopen : c = '"' ∨ c = '“'
        · rw [if_pos (by simpa [opensQuote] using hopen)] at hmatch
          obtain ⟨m, hm, hrest⟩ := hmatch
          obtain ⟨before', hskip⟩ := findMatches_skip quoteRe (some c) (pos + 1)
            (cs.length - (afterQuote cs).length) cs
          have hle := length_afterQuote cs
          have hquote := quoteSpans_inQuote (Nat.lt_succ_self pos) cs
          have hrec := @ih (afterQuote cs).length (by simp only [List.length_cons]; omega) before'
            (pos + 1 + (cs.length - (afterQuote cs).length))
            (pos + 1 + (cs.length - (afterQuote cs).length)) (afterQuote cs) rfl
          have hstop : pos + 1 + cs.length - (afterQuote cs).length
              = pos + 1 + (cs.length - (afterQuote cs).length) := by omega
          rw [if_pos hopen]
          have hspans : ((quoteSpans pos (pos + 1) true cs).filter fun span => span.2.2).map
              (fun span => (span.1, span.2.1))
              = (pos, pos + 1 + (cs.length - (afterQuote cs).length)) ::
                (quoteRe.findMatches before' (pos + 1 + (cs.length - (afterQuote cs).length)) 0
                  (afterQuote cs)).map fun found => (found.start, found.stop) := by
            rw [hquote, ← hrec]
            rfl
          rw [hm]
          simp only [hrest, hskip, List.map_cons, hstop, ← afterQuote_eq_drop]
          split
          · -- the narrative span before the quote is left out
            rw [List.filter_cons_of_neg (by simp)]
            exact hspans
          · exact hspans
        · rw [if_neg (by simpa [opensQuote] using hopen)] at hmatch
          rw [if_neg hopen, hmatch]
          exact ih cs.length (by simp) (some c) cs rfl

theorem quoteSpans_dialogue (text : Text) :
    ((quoteSpans 0 0 false text).filter fun span => span.2.2).map (fun span => (span.1, span.2.1))
      = quotedSegments text :=
  quoteSpans_dialogue_from none text

variable {text : Text}

theorem mem_quotedSegments_iff {segment : ℕ × ℕ} :
    segment ∈ quotedSegments text ↔ (segment.1, segment.2, true) ∈ quoteSpans 0 0 false text := by
  rw [← quoteSpans_dialogue, List.mem_map]
  constructor
  · rintro ⟨⟨start, stop, isDialogue⟩, hmem, rfl⟩
    obtain ⟨hmem, hdialogue⟩ := List.mem_filter.mp hmem
    obtain rfl : isDialogue = true := hdialogue
    exact hmem
  · intro hmem
    exact ⟨_, List.mem_filter.mpr ⟨hmem, rfl⟩, rfl⟩

/-! ## The Chunks -/

variable {maxChars : ℕ}

theorem length_le_of_mem_hardSplit {boundary fuel cursor : ℕ} {piece : ℕ × ℕ}
    (hmem : piece ∈ hardSplit maxChars boundary fuel cursor) : piece.2 - piece.1 ≤ maxChars := by
  induction fuel generalizing cursor with
  | zero => simp [hardSplit] at hmem
  | succ fuel ih =>
      rw [hardSplit] at hmem
      split at hmem
      · rcases List.mem_cons.mp hmem with rfl | hmem
        · simp only
          omega
        · exact ih hmem
      · simp at hmem

theorem length_le_of_mem_splitAtBoundaries {last pieceStart : ℕ} {boundaries : List ℕ}
    {piece : ℕ × ℕ} (hmem : piece ∈ splitAtBoundaries maxChars last pieceStart boundaries) :
    piece.2 - piece.1 ≤ maxChars := by
  induction boundaries generalizing pieceStart with
  | nil => simp [splitAtBoundaries] at hmem
  | cons boundary boundaries ih =>
      rw [splitAtBoundaries] at hmem
      split at hmem
      · exact ih hmem
      · split at hmem
        · rcases List.mem_append.mp hmem with hmem | hmem
          · exact length_le_of_mem_hardSplit hmem
          · exact ih hmem
        · next hle =>
            rcases List.mem_cons.mp hmem with rfl | hmem
            · exact Nat.le_of_not_lt hle
            · exact ih hmem

theorem length_le_of_mem_splitToBudget {start stop : ℕ} {piece : ℕ × ℕ}
    (hmem : piece ∈ splitToBudget text maxChars start stop) : piece.2 - piece.1 ≤ maxChars := by
  unfold splitToBudget at hmem
  split at hmem
  · next hle =>
      rw [List.mem_singleton.mp hmem]
      exact hle
  · exact length_le_of_mem_splitAtBoundaries (List.mem_filter.mp hmem).1

theorem exists_quoteSpan_of_mem (hne : text ≠ []) {span : ChunkSpan}
    (hmem : span ∈ chunkParagraph text maxChars) :
    ∃ quoteSpan ∈ quoteSpans 0 0 false text,
      span.piece ∈ splitToBudget text maxChars quoteSpan.1 quoteSpan.2.1 ∧
      span.text = slice text span.charStart span.charEnd ∧
      span.isDialogueHint = quoteSpan.2.2 := by
  unfold chunkParagraph at hmem
  rw [if_neg hne, List.mem_flatMap] at hmem
  obtain ⟨quoteSpan, hquote, hmem⟩ := hmem
  obtain ⟨piece, hpiece, rfl⟩ := List.mem_map.mp hmem
  exact ⟨quoteSpan, hquote, hpiece, rfl, rfl⟩

def InsideOrOutside (piece segment : ℕ × ℕ) : Prop :=
  (segment.1 ≤ piece.1 ∧ piece.2 ≤ segment.2) ∨ piece.2 ≤ segment.1 ∨ segment.2 ≤ piece.1

theorem quoteSpans_eq_or_disjoint {span segment : ℕ × ℕ × Bool}
    (hspan : span ∈ quoteSpans 0 0 false text) (hsegment : segment ∈ quoteSpans 0 0 false text) :
    span = segment ∨ span.2.1 ≤ segment.1 ∨ segment.2.1 ≤ span.1 := by
  have hpairwise := List.pairwise_map.mp (quoteSpans_consecutive (le_refl 0) false text).pairwise
  exact List.Pairwise.forall_of_forall_of_flip
    (R := fun span segment => span = segment ∨ span.2.1 ≤ segment.1 ∨ segment.2.1 ≤ span.1)
    (fun _ _ => Or.inl rfl) (hpairwise.imp fun h => Or.inr (Or.inl h))
    (hpairwise.imp fun h => Or.inr (Or.inr h)) hspan hsegment

/-- The chunks of a paragraph cut its text in order, each of them keeps to the budget and has the
text between its offsets, and none mixes dialogue with narration. -/
theorem chunkParagraph_partition {text : Text} (hne : text ≠ []) (hmax : 1 ≤ maxChars) :
    Consecutive 0 text.length ((chunkParagraph text maxChars).map ChunkSpan.piece) ∧
      ∀ span ∈ chunkParagraph text maxChars,
        span.charEnd - span.charStart ≤ maxChars ∧
        span.text = slice text span.charStart span.charEnd ∧
        span.text.length = span.charEnd - span.charStart ∧
        ∀ segment ∈ quotedSegments text, InsideOrOutside span.piece segment := by
  refine ⟨chunkParagraph_consecutive hmax hne, fun span hmem => ?_⟩
  obtain ⟨quoteSpan, hquote, hpiece, htext, -⟩ := exists_quoteSpan_of_mem hne hmem
  obtain ⟨hle, hstop⟩ := chunkParagraph_bounds hmax hmem
  refine ⟨length_le_of_mem_splitToBudget hpiece, htext, ?_, fun segment hsegment => ?_⟩
  · rw [htext, slice, List.length_take, List.length_drop]
    omega
  · -- the piece is inside of the span that it was cut from
    have hquoteBounds := (quoteSpans_consecutive (le_refl 0) false text).bounds
      (List.mem_map_of_mem (f := fun span => (span.1, span.2.1)) hquote)
    have hbounds := (splitToBudget_consecutive hmax hquoteBounds.2.1
      (by simpa using hquoteBounds.2.2)).bounds hpiece
    unfold InsideOrOutside
    obtain rfl | hbefore | hafter :=
      quoteSpans_eq_or_disjoint hquote (mem_quotedSegments_iff.mp hsegment)
    · exact .inl ⟨hbounds.1, hbounds.2.2⟩
    · exact .inr (.inl (le_trans hbounds.2.2 hbefore))
    · exact .inr (.inr (le_trans hafter hbounds.1))

theorem chunkParagraph_partition_example :
    Consecutive 0 (['"', 'h', 'i', '.', '"', ' ', 'H', 'e'] : Text).length
      ((chunkParagraph ['"', 'h', 'i', '.', '"', ' ', 'H', 'e'] 3).map ChunkSpan.piece) ∧
      ∀ span ∈ chunkParagraph ['"', 'h', 'i', '.', '"', ' ', 'H', 'e'] 3,
        span.charEnd - span.charStart ≤ 3 ∧
        span.text = slice ['"', 'h', 'i', '.', '"', ' ', 'H', 'e'] span.charStart span.charEnd ∧
        span.text.length = span.charEnd - span.charStart ∧
        ∀ segment ∈ quotedSegments ['"', 'h', 'i', '.', '"', ' ', 'H', 'e'],
          InsideOrOutside span.piece segment :=
  chunkParagraph_partition (by decide) (by decide)

end AudioBook
