import AudioBook.Schema.Rows

/-!
# Cutting a Paragraph into Chunks

`chunk_paragraph` of `director/chunker.py`: a paragraph is cut into quoted and narrative spans,
and a span over the budget is cut again, at the ends of its sentences where that is enough.
Positions are offsets into the text of the paragraph.
-/

namespace AudioBook

/-- `ChunkSpan`, less the paragraph it belongs to. -/
structure ChunkSpan where
  charStart : ℕ
  charEnd : ℕ
  text : Text
  isDialogueHint : Bool
  deriving DecidableEq

def defaultMaxChars : ℕ := 4000

/-- `text[start:end]`. -/
def slice (text : Text) (start stop : ℕ) : Text :=
  (text.drop start).take (stop - start)

/-! ## Quotes -/

/-- The matches of `_QUOTE_RE` and what lies between them, as start, end, and whether it is a
match. The scan stands at `pos`; the span it is in began at `start`. -/
def quoteSpans (start pos : ℕ) (inQuote : Bool) : Text → List (ℕ × ℕ × Bool)
  | [] => if start < pos then [(start, pos, inQuote)] else []
  | c :: cs =>
      if inQuote then
        -- `[^"”]*["”]?`: the quote takes everything up to the first closing mark.
        if c = '"' ∨ c = '”' then
          (start, pos + 1, true) :: quoteSpans (pos + 1) (pos + 1) false cs
        else quoteSpans start (pos + 1) true cs
      else if c = '"' ∨ c = '“' then
        if start < pos then (start, pos, false) :: quoteSpans pos (pos + 1) true cs
        else quoteSpans pos (pos + 1) true cs
      else quoteSpans start (pos + 1) false cs

/-! ## The Budget -/

/-- `\s` of a Python pattern over text. -/
def isPatternSpace (c : Char) : Bool :=
  decide (c.toNat ∈ [0x09, 0x0A, 0x0B, 0x0C, 0x0D, 0x1C, 0x1D, 0x1E, 0x1F, 0x20, 0x85, 0xA0, 0x1680,
    0x2000, 0x2001, 0x2002, 0x2003, 0x2004, 0x2005, 0x2006, 0x2007, 0x2008, 0x2009, 0x200A, 0x2028,
    0x2029, 0x202F, 0x205F, 0x3000])

/-- `[.!?]`. -/
def endsSentence (c : Char) : Bool :=
  decide (c = '.' ∨ c = '!' ∨ c = '?')

/-- The ends of the matches of `_SENTENCE_BOUNDARY_RE`. The scan stands at `pos`; `armed` says that
a sentence ended right before it, and `inRun` that it is in a match. -/
def sentenceBoundaries (pos : ℕ) (armed inRun : Bool) : Text → List ℕ
  | [] => if inRun then [pos] else []
  | c :: cs =>
      if isPatternSpace c && (inRun || armed) then sentenceBoundaries (pos + 1) false true cs
      else if inRun then pos :: sentenceBoundaries (pos + 1) (endsSentence c) false cs
      else sentenceBoundaries (pos + 1) (endsSentence c) false cs

/-- The last-resort split: pieces of `maxChars` up to a boundary. -/
def hardSplit (maxChars boundary : ℕ) : ℕ → ℕ → List (ℕ × ℕ)
  | 0, _ => []
  | fuel + 1, cursor =>
      if cursor < boundary then
        (cursor, min (cursor + maxChars) boundary) ::
          hardSplit maxChars boundary fuel (min (cursor + maxChars) boundary)
      else []

/-- The loop of `_split_to_budget` over the boundaries, the last of which is `last`. -/
def splitAtBoundaries (maxChars last : ℕ) : ℕ → List ℕ → List (ℕ × ℕ)
  | _, [] => []
  | pieceStart, boundary :: boundaries =>
      if maxChars ≤ boundary - pieceStart ∧ boundary ≠ last then
        splitAtBoundaries maxChars last pieceStart boundaries
      else if maxChars < boundary - pieceStart then
        hardSplit maxChars boundary (boundary - pieceStart) pieceStart ++
          splitAtBoundaries maxChars last boundary boundaries
      else (pieceStart, boundary) :: splitAtBoundaries maxChars last boundary boundaries

def splitToBudget (text : Text) (maxChars start stop : ℕ) : List (ℕ × ℕ) :=
  if stop - start ≤ maxChars then [(start, stop)]
  else
    -- The look-behind sees the character before the span, too.
    let armed := ((text.take start).getLast?.map endsSentence).getD false
    let boundaries := sentenceBoundaries start armed false (slice text start stop) ++ [stop]
    (splitAtBoundaries maxChars stop start boundaries).filter fun piece => decide (piece.1 < piece.2)

def chunkParagraph (text : Text) (maxChars : ℕ) : List ChunkSpan :=
  if text = [] then [⟨0, 0, [], false⟩]
  else (quoteSpans 0 0 false text).flatMap fun (start, stop, isDialogue) =>
    (splitToBudget text maxChars start stop).map fun (pieceStart, pieceStop) =>
      { charStart := pieceStart
        charEnd := pieceStop
        text := slice text pieceStart pieceStop
        isDialogueHint := isDialogue }

end AudioBook
