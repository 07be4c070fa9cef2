import AudioBook.Ingestion.PdfLines
import AudioBook.Numerics.BinaryRounding
import Mathlib.Data.List.Dedup

/-!
# Running Headers and Footers

`stripHeaderFooterNoiseLines` of `parsers/pdf-parser.ts` removes lines that repeat at the top or the
bottom of the pages, and page numbers there. The evidence is the first and the last line of every
page; what is removed is every line with the text, wherever it stands.

Main results:

- `onlyNoiseRemoved_iff`: exactly when only justified lines are removed.
-/

namespace AudioBook.NoiseLines

open PdfLines Structure Numerics

/-! ## Evidence -/

/-- `positionOnPage`. -/
inductive Position
  | first
  | last
  | other
  deriving DecidableEq

structure PageLevelBlock where
  pageNumber : ℕ
  positionOnPage : Position
  text : Text

structure NoiseDetectionResult where
  removedTexts : List Text
  pageNumberPattern : Bool

/-- `PAGE_NUMBER_PATTERN` or `ROMAN_NUMERAL_PATTERN`, of a normalized text. -/
def isPageNumberKey (key : Text) : Bool := isPageNumber key || isRomanNumeral key

/-- `count / totalPages >= confidenceThreshold`. -/
def reaches (confidenceThreshold : ℚ) (count totalPages : ℕ) : Bool :=
  decide (confidenceThreshold ≤ binary64.round ((count : ℚ) / totalPages))

def countedKey (u : UnicodeData) (block : PageLevelBlock) : Option Text :=
  let key := normalizeForComparison u block.text
  if block.positionOnPage = .other ∨ utf16Length key = 0 ∨ 120 < utf16Length key then none
  else some key

/-- The entry of `numericPositions` for a position. -/
def numericCount (u : UnicodeData) (blocks : List PageLevelBlock) (position : Position) : ℕ :=
  blocks.countP fun block =>
    decide (block.positionOnPage = position) && isPageNumberLike u block.text

def detectNoise (u : UnicodeData) (blocks : List PageLevelBlock) (confidenceThreshold : ℚ) :
    NoiseDetectionResult :=
  let totalPages := (blocks.map PageLevelBlock.pageNumber).dedup.length
  if totalPages < 3 then { removedTexts := [], pageNumberPattern := false }
  else
    let keys := blocks.filterMap (countedKey u)
    let removedTexts := keys.dedup.filter fun key =>
      reaches confidenceThreshold (keys.count key) totalPages
    { removedTexts := removedTexts
      pageNumberPattern := removedTexts.any isPageNumberKey ||
        [Position.first, Position.last].any fun position =>
          decide (0 < numericCount u blocks position) &&
            reaches confidenceThreshold (numericCount u blocks position) totalPages }

/-- `linesByPage`: every page has an entry of its own. -/
structure LinesByPage where
  pages : List (ℕ × List PdfLine)
  nodup : (pages.map Prod.fst).Nodup

def boundaryBlocksOfPage (page : ℕ × List PdfLine) : List PageLevelBlock :=
  (page.2.head?.map fun line => ⟨page.1, .first, line.text⟩).toList ++
    if 1 < page.2.length then
      (page.2.getLast?.map fun line => ⟨page.1, .last, line.text⟩).toList
    else []

def boundaryBlocks (linesByPage : LinesByPage) : List PageLevelBlock :=
  linesByPage.pages.flatMap boundaryBlocksOfPage

/-- A line of a page is left out. -/
def isRemoved (u : UnicodeData) (noise : NoiseDetectionResult) (lines : List PdfLine) (index : ℕ)
    (line : PdfLine) : Bool :=
  decide (normalizeForComparison u line.text ∈ noise.removedTexts) ||
    (noise.pageNumberPattern && isPageNumberLike u line.text &&
      (decide (index = 0) || decide (index = lines.length - 1)))

def stripHeaderFooterNoiseLines (u : UnicodeData) (confidenceThreshold : ℚ)
    (linesByPage : LinesByPage) : List (ℕ × List PdfLine) :=
  let noise := detectNoise u (boundaryBlocks linesByPage) confidenceThreshold
  if noise.removedTexts = [] ∧ noise.pageNumberPattern = false then linesByPage.pages
  else linesByPage.pages.map fun page =>
    (page.1, (page.2.zipIdx.filter fun (line, index) =>
      !isRemoved u noise page.2 index line).map Prod.fst)

/-! ## Repetition -/

def lineAt (position : Position) (lines : List PdfLine) : Option PdfLine :=
  match position with
  | .first => lines.head?
  | .last => lines.getLast?
  | .other => none

/-- On how many pages the line at one end has a property. -/
def pagesWith (linesByPage : LinesByPage) (position : Position) (p : PdfLine → Bool) : ℕ :=
  linesByPage.pages.countP fun page => (lineAt position page.2).any p

/-- At one end of the threshold fraction of the pages stands the text, or, if it is one, a page
number. -/
def RepeatedAt (u : UnicodeData) (confidenceThreshold : ℚ) (linesByPage : LinesByPage)
    (position : Position) (text : Text) : Prop :=
  reaches confidenceThreshold (pagesWith linesByPage position fun line =>
      decide (normalizeForComparison u line.text = normalizeForComparison u text))
    linesByPage.pages.length ∨
  isPageNumberLike u text ∧ reaches confidenceThreshold (pagesWith linesByPage position fun line =>
      isPageNumberLike u line.text) linesByPage.pages.length

/-- A line stands at one end of its page, where its text or a page number is repeated. -/
def Justified (u : UnicodeData) (confidenceThreshold : ℚ) (linesByPage : LinesByPage)
    (lines : List PdfLine) (index : ℕ) (line : PdfLine) : Prop :=
  (index = 0 ∧ RepeatedAt u confidenceThreshold linesByPage .first line.text) ∨
    (index = lines.length - 1 ∧ RepeatedAt u confidenceThreshold linesByPage .last line.text)

/-- `stripHeaderFooterNoiseLines` leaves a line of a page out. -/
def Removes (u : UnicodeData) (confidenceThreshold : ℚ) (linesByPage : LinesByPage)
    (lines : List PdfLine) (index : ℕ) (line : PdfLine) : Bool :=
  isRemoved u (detectNoise u (boundaryBlocks linesByPage) confidenceThreshold) lines index line

/-- Every line that is removed is justified, and all other lines stay, in order. -/
structure OnlyNoiseRemoved (u : UnicodeData) (confidenceThreshold : ℚ) (linesByPage : LinesByPage) :
    Prop where
  others : stripHeaderFooterNoiseLines u confidenceThreshold linesByPage =
    linesByPage.pages.map fun page => (page.1, (page.2.zipIdx.filter fun (line, index) =>
      !Removes u confidenceThreshold linesByPage page.2 index line).map Prod.fst)
  removed : ∀ page ∈ linesByPage.pages, ∀ index line, page.2[index]? = some line →
    Removes u confidenceThreshold linesByPage page.2 index line →
    Justified u confidenceThreshold linesByPage page.2 index line

variable {u : UnicodeData} {confidenceThreshold : ℚ} {linesByPage : LinesByPage}
  {lines : List PdfLine} {line : PdfLine} {index : ℕ}

theorem stripHeaderFooterNoiseLines_eq (u : UnicodeData) (confidenceThreshold : ℚ)
    (linesByPage : LinesByPage) :
    stripHeaderFooterNoiseLines u confidenceThreshold linesByPage =
      linesByPage.pages.map fun page => (page.1, (page.2.zipIdx.filter fun (line, index) =>
        !Removes u confidenceThreshold linesByPage page.2 index line).map Prod.fst) := by
  rw [stripHeaderFooterNoiseLines]
  split
  case isTrue h =>
    refine ((List.map_congr_left fun page _ => ?_).trans (List.map_id linesByPage.pages)).symm
    have hkeep : page.2.zipIdx.filter (fun (line, index) =>
        !Removes u confidenceThreshold linesByPage page.2 index line) = page.2.zipIdx :=
      List.filter_eq_self.mpr fun a _ => by simp [Removes, isRemoved, h.1, h.2]
    rw [hkeep, List.zipIdx_map_fst]
    rfl
  case isFalse => rfl

/-! ## Counts -/

def nonEmptyPages (linesByPage : LinesByPage) : List (ℕ × List PdfLine) :=
  linesByPage.pages.filter fun page => page.2 ≠ []

/-- How often a property occurs among the boundary lines. -/
def boundaryCount (linesByPage : LinesByPage) (position : Position) (p : PdfLine → Bool) : ℕ :=
  linesByPage.pages.countP fun page =>
    (decide (position = .first) || decide (1 < page.2.length)) && (lineAt position page.2).any p

@[simp] theorem boundaryBlocksOfPage_nil (n : ℕ) : boundaryBlocksOfPage (n, []) = [] := rfl

@[simp] theorem boundaryBlocksOfPage_singleton (n : ℕ) (line : PdfLine) :
    boundaryBlocksOfPage (n, [line]) = [⟨n, .first, line.text⟩] := rfl

@[simp] theorem boundaryBlocksOfPage_cons_cons (n : ℕ) (line next : PdfLine)
    (lines : List PdfLine) : boundaryBlocksOfPage (n, line :: next :: lines) =
      [⟨n, .first, line.text⟩, ⟨n, .last, ((next :: lines).getLast (by simp)).text⟩] := by
  simp [boundaryBlocksOfPage, List.getLast?_eq_some_getLast]

theorem length_dedup_pageNumber (linesByPage : LinesByPage) :
    ((boundaryBlocks linesByPage).map PageLevelBlock.pageNumber).dedup.length =
      (nonEmptyPages linesByPage).length := by
  have hmem : ∀ n : ℕ, n ∈ (boundaryBlocks linesByPage).map PageLevelBlock.pageNumber ↔
      n ∈ (nonEmptyPages linesByPage).map Prod.fst := by
    intro n
    have hpage : ∀ page : ℕ × List PdfLine, (∃ block ∈ boundaryBlocksOfPage page,
        block.pageNumber = n) ↔ page.2 ≠ [] ∧ page.1 = n := by
      rintro ⟨m, lines⟩
      match lines with
      | [] => simp
      | [line] => simp
      | line :: next :: lines => simp
    simp only [boundaryBlocks, nonEmptyPages, List.mem_map, List.mem_flatMap, List.mem_filter,
      decide_eq_true_eq]
    constructor
    · rintro ⟨block, ⟨page, hmem, hblock⟩, hn⟩
      obtain ⟨hne, hfst⟩ := (hpage page).mp ⟨block, hblock, hn⟩
      exact ⟨page, ⟨hmem, hne⟩, hfst⟩
    · rintro ⟨page, ⟨hmem, hne⟩, hfst⟩
      obtain ⟨block, hblock, hn⟩ := (hpage page).mpr ⟨hne, hfst⟩
      exact ⟨block, ⟨page, hmem, hblock⟩, hn⟩
  have hnodup : ((nonEmptyPages linesByPage).map Prod.fst).Nodup :=
    linesByPage.nodup.sublist (List.filter_sublist.map _)
  have hperm : ((boundaryBlocks linesByPage).map PageLevelBlock.pageNumber).dedup.Perm
      ((nonEmptyPages linesByPage).map Prod.fst) :=
    (List.perm_ext_iff_of_nodup (List.nodup_dedup _) hnodup).mpr fun n =>
      List.mem_dedup.trans (hmem n)
  rw [hperm.length_eq, List.length_map]

variable {position : Position}

theorem countP_boundaryBlocks (linesByPage : LinesByPage) (q : Text → Bool)
    (hposition : position ≠ .other) :
    (boundaryBlocks linesByPage).countP (fun block =>
        decide (block.positionOnPage = position) && q block.text) =
      boundaryCount linesByPage position fun line => q line.text := by
  have hpage : ∀ page : ℕ × List PdfLine, (boundaryBlocksOfPage page).countP (fun block =>
      decide (block.positionOnPage = position) && q block.text) =
      if ((decide (position = .first) || decide (1 < page.2.length)) &&
        (lineAt position page.2).any fun line => q line.text) = true then 1 else 0 := by
    rintro ⟨n, lines⟩
    cases position with
    | other => exact absurd rfl hposition
    | first =>
      match lines with
      | [] => rfl
      | [line] => simp [lineAt, List.countP_cons]
      | line :: next :: lines => simp [lineAt, List.countP_cons]
    | last =>
      match lines with
      | [] => rfl
      | [line] => simp
      | line :: next :: lines =>
        simp [lineAt, List.countP_cons, List.getLast?_eq_some_getLast]
  rw [boundaryBlocks, List.countP_flatMap, boundaryCount]
  induction linesByPage.pages with
  | nil => rfl
  | cons page pages ih =>
    rw [List.map_cons, List.sum_cons, ih, List.countP_cons, Function.comp, hpage]
    omega

theorem countP_boundaryBlocks_text (linesByPage : LinesByPage) (q : Text → Bool) :
    (boundaryBlocks linesByPage).countP (fun block => q block.text) =
      boundaryCount linesByPage .first (fun line => q line.text) +
        boundaryCount linesByPage .last (fun line => q line.text) := by
  have hpage : ∀ page : ℕ × List PdfLine, (boundaryBlocksOfPage page).countP (fun block =>
      q block.text) = (boundaryBlocksOfPage page).countP (fun block =>
        decide (block.positionOnPage = .first) && q block.text) +
      (boundaryBlocksOfPage page).countP (fun block =>
        decide (block.positionOnPage = .last) && q block.text) := by
    rintro ⟨n, lines⟩
    match lines with
    | [] => rfl
    | [line] => simp [List.countP_cons]
    | line :: next :: lines => simp [List.countP_cons, Nat.add_comm]
  rw [← countP_boundaryBlocks linesByPage q (show Position.first ≠ .other by decide),
    ← countP_boundaryBlocks linesByPage q (show Position.last ≠ .other by decide), boundaryBlocks,
    List.countP_flatMap, List.countP_flatMap, List.countP_flatMap]
  induction linesByPage.pages with
  | nil => rfl
  | cons page pages ih =>
    simp only [List.map_cons, List.sum_cons, Function.comp] at ih ⊢
    rw [ih, hpage]
    omega

theorem positionOnPage_ne_other {block : PageLevelBlock} (h : block ∈ boundaryBlocks linesByPage) :
    block.positionOnPage ≠ .other := by
  obtain ⟨⟨n, lines⟩, -, hblock⟩ := List.mem_flatMap.mp h
  match lines with
  | [] => cases hblock
  | [line] => simp_all
  | line :: next :: lines =>
    rw [boundaryBlocksOfPage_cons_cons, List.mem_cons, List.mem_singleton] at hblock
    rcases hblock with rfl | rfl <;> simp

/-- How often a normalized text occurs among the boundary lines, at either end. -/
def keyCount (u : UnicodeData) (linesByPage : LinesByPage) (key : Text) : ℕ :=
  boundaryCount linesByPage .first (fun line => decide (normalizeForComparison u line.text = key)) +
    boundaryCount linesByPage .last (fun line => decide (normalizeForComparison u line.text = key))

/-- A normalized text is counted unless it is empty or too long. -/
def Counted (key : Text) : Prop := utf16Length key ≠ 0 ∧ utf16Length key ≤ 120

theorem count_keys {key : Text} (hkey : Counted key) :
    ((boundaryBlocks linesByPage).filterMap (countedKey u)).count key =
      keyCount u linesByPage key := by
  rw [keyCount, ← countP_boundaryBlocks_text linesByPage fun text =>
    decide (normalizeForComparison u text = key), List.count_filterMap]
  refine List.countP_congr fun block hblock => ?_
  have hother := positionOnPage_ne_other hblock
  simp only [beq_iff_eq, decide_eq_true_eq]
  constructor
  · intro h
    simp only [countedKey] at h
    split at h
    · cases h
    · exact Option.some.inj h
  · rintro rfl
    simp only [countedKey]
    rw [if_neg]
    rintro (h | h | h)
    · exact hother h
    · exact hkey.1 h
    · exact absurd hkey.2 (not_le.mpr h)

theorem counted_of_mem {key : Text}
    (h : key ∈ (boundaryBlocks linesByPage).filterMap (countedKey u)) : Counted key := by
  obtain ⟨block, -, hkey⟩ := List.mem_filterMap.mp h
  simp only [countedKey] at hkey
  split at hkey
  · cases hkey
  · cases hkey
    simp only [not_or, not_lt] at *
    tauto

/-- A normalized text occurs among the boundary lines, at both ends together, on enough pages. -/
def Often (u : UnicodeData) (confidenceThreshold : ℚ) (linesByPage : LinesByPage) (key : Text) :
    Prop :=
  3 ≤ (nonEmptyPages linesByPage).length ∧ Counted key ∧ 0 < keyCount u linesByPage key ∧
    reaches confidenceThreshold (keyCount u linesByPage key) (nonEmptyPages linesByPage).length

theorem mem_removedTexts_iff {key : Text} :
    key ∈ (detectNoise u (boundaryBlocks linesByPage) confidenceThreshold).removedTexts ↔
      Often u confidenceThreshold linesByPage key := by
  simp only [detectNoise, length_dedup_pageNumber, Often]
  split
  case isTrue hfew =>
    simp only [List.not_mem_nil, false_iff]
    exact fun h => absurd h.1 (by omega)
  case isFalse hpages =>
    rw [List.mem_filter, List.mem_dedup]
    constructor
    · rintro ⟨hmem, hreaches⟩
      have hkey := counted_of_mem hmem
      rw [count_keys hkey] at hreaches
      refine ⟨by omega, hkey, ?_, hreaches⟩
      rw [← count_keys hkey]
      exact List.count_pos_iff.mpr hmem
    · rintro ⟨-, hkey, hpos, hreaches⟩
      rw [count_keys hkey]
      rw [← count_keys hkey] at hpos
      exact ⟨List.count_pos_iff.mp hpos, hreaches⟩

/-- Page numbers stand at one end of enough pages, or such a text occurs often. -/
def NumbersOften (u : UnicodeData) (confidenceThreshold : ℚ) (linesByPage : LinesByPage) : Prop :=
  3 ≤ (nonEmptyPages linesByPage).length ∧
    ((∃ key, Often u confidenceThreshold linesByPage key ∧ isPageNumberKey key) ∨
      ∃ position ∈ [Position.first, .last],
        0 < boundaryCount linesByPage position (fun line => isPageNumberLike u line.text) ∧
        reaches confidenceThreshold
          (boundaryCount linesByPage position fun line => isPageNumberLike u line.text)
          (nonEmptyPages linesByPage).length)

theorem pageNumberPattern_iff :
    (detectNoise u (boundaryBlocks linesByPage) confidenceThreshold).pageNumberPattern ↔
      NumbersOften u confidenceThreshold linesByPage := by
  have htexts : (detectNoise u (boundaryBlocks linesByPage) confidenceThreshold).removedTexts.any
      isPageNumberKey = true ↔
      ∃ key, Often u confidenceThreshold linesByPage key ∧ isPageNumberKey key := by
    rw [List.any_eq_true]
    simp only [mem_removedTexts_iff]
  rw [NumbersOften, ← htexts]
  simp only [detectNoise, length_dedup_pageNumber]
  split
  case isTrue hfew =>
    simp only [Bool.false_eq_true, false_iff]
    exact fun h => absurd h.1 (by omega)
  case isFalse hpages =>
    have hcount : ∀ position ∈ [Position.first, .last],
        numericCount u (boundaryBlocks linesByPage) position =
          boundaryCount linesByPage position fun line => isPageNumberLike u line.text := by
      intro position hposition
      refine countP_boundaryBlocks linesByPage (isPageNumberLike u) ?_
      rintro rfl
      simp at hposition
    simp only [Bool.or_eq_true, List.any_eq_true, Bool.and_eq_true, decide_eq_true_eq]
    rw [and_iff_right (by omega)]
    refine or_congr Iff.rfl (exists_congr fun position => and_congr_right fun hposition => ?_)
    rw [hcount position hposition]

/-! ## Exactly When -/

/-- The other end of a page. -/
def Position.opposite : Position → Position
  | first => last
  | last => first
  | other => other

/-- Texts that occur often at the ends of pages stand nowhere else, and are repeated at the very end
where they stand; and so are page numbers. A line that is alone on its page stands at both ends. -/
structure Separated (u : UnicodeData) (confidenceThreshold : ℚ) (linesByPage : LinesByPage) :
    Prop where
  inside : ∀ page ∈ linesByPage.pages, ∀ line ∈ page.2.tail.dropLast,
    ¬ Often u confidenceThreshold linesByPage (normalizeForComparison u line.text)
  ends : ∀ page ∈ linesByPage.pages, ∀ position ∈ [Position.first, .last],
    ∀ line ∈ lineAt position page.2,
    Often u confidenceThreshold linesByPage (normalizeForComparison u line.text) ∨
      (NumbersOften u confidenceThreshold linesByPage ∧ isPageNumberLike u line.text) →
    RepeatedAt u confidenceThreshold linesByPage position line.text ∨
      (page.2.length = 1 ∧
        RepeatedAt u confidenceThreshold linesByPage position.opposite line.text)

theorem removes_iff : Removes u confidenceThreshold linesByPage lines index line ↔
    Often u confidenceThreshold linesByPage (normalizeForComparison u line.text) ∨
      (NumbersOften u confidenceThreshold linesByPage ∧ isPageNumberLike u line.text) ∧
        (index = 0 ∨ index = lines.length - 1) := by
  rw [Removes, isRemoved, Bool.or_eq_true, Bool.and_eq_true, Bool.and_eq_true, Bool.or_eq_true,
    decide_eq_true_eq, decide_eq_true_eq, decide_eq_true_eq, mem_removedTexts_iff,
    pageNumberPattern_iff]

theorem mem_tail_dropLast_iff :
    line ∈ lines.tail.dropLast ↔ ∃ index, 0 < index ∧ index < lines.length - 1 ∧
      lines[index]? = some line := by
  rw [List.mem_iff_getElem?]
  simp only [List.getElem?_dropLast, List.getElem?_tail, List.length_tail]
  constructor
  · rintro ⟨i, hi⟩
    split at hi
    · exact ⟨i + 1, by omega, by omega, hi⟩
    · cases hi
  · rintro ⟨index, hpos, hlt, hget⟩
    refine ⟨index - 1, ?_⟩
    rw [if_pos (by omega), Nat.sub_add_cancel hpos, hget]

theorem mem_lineAt_iff (hposition : position ∈ [Position.first, .last]) :
    line ∈ lineAt position lines ↔
      lines[if position = .first then 0 else lines.length - 1]? = some line := by
  cases position with
  | first => rw [lineAt, if_pos rfl, List.head?_eq_getElem?, Option.mem_def]
  | last => rw [lineAt, if_neg (by decide), List.getLast?_eq_getElem?, Option.mem_def]
  | other => simp at hposition

theorem justified_iff (hposition : position ∈ [Position.first, .last])
    (hline : line ∈ lineAt position lines) :
    Justified u confidenceThreshold linesByPage lines
        (if position = .first then 0 else lines.length - 1) line ↔
      RepeatedAt u confidenceThreshold linesByPage position line.text ∨ (lines.length = 1 ∧
        RepeatedAt u confidenceThreshold linesByPage position.opposite line.text) := by
  have hlength : 0 < lines.length := by
    rw [mem_lineAt_iff hposition] at hline
    exact lt_of_le_of_lt (Nat.zero_le _) (List.getElem?_eq_some_iff.mp hline).1
  cases position with
  | first =>
    rw [Justified, if_pos rfl, and_iff_right rfl, Position.opposite]
    refine or_congr Iff.rfl (and_congr_left fun _ => ?_)
    omega
  | last =>
    rw [Justified, if_neg (by decide), and_iff_right rfl, Position.opposite, or_comm]
    refine or_congr Iff.rfl (and_congr_left fun _ => ?_)
    omega
  | other => simp at hposition

/-- Only header and footer lines are removed, exactly if repeated texts and page numbers stand only
where they repeat. -/
theorem onlyNoiseRemoved_iff (u : UnicodeData) (confidenceThreshold : ℚ) (linesByPage : LinesByPage) :
    OnlyNoiseRemoved u confidenceThreshold linesByPage ↔
      Separated u confidenceThreshold linesByPage := by
  constructor
  · intro h
    refine ⟨fun page hpage line hline hoften => ?_,
      fun page hpage position hposition line hline hnoise => ?_⟩
    · obtain ⟨index, hpos, hlt, hget⟩ := mem_tail_dropLast_iff.mp hline
      rcases h.removed page hpage index line hget (removes_iff.mpr (.inl hoften)) with
        ⟨hindex, -⟩ | ⟨hindex, -⟩ <;> omega
    · refine (justified_iff hposition hline).mp (h.removed page hpage _ line
        ((mem_lineAt_iff hposition).mp hline) (removes_iff.mpr (hnoise.imp_right fun h => ⟨h, ?_⟩)))
      split
      · exact .inl rfl
      · exact .inr rfl
  · intro h
    refine ⟨stripHeaderFooterNoiseLines_eq u confidenceThreshold linesByPage,
      fun page hpage index line hget hremoved => ?_⟩
    rw [removes_iff] at hremoved
    have hends : ∀ position ∈ [Position.first, .last],
        index = (if position = .first then 0 else page.2.length - 1) →
        Justified u confidenceThreshold linesByPage page.2 index line := by
      intro position hposition hindex
      have hline : line ∈ lineAt position page.2 := by
        rw [mem_lineAt_iff hposition, ← hindex, hget]
      rw [hindex, justified_iff hposition hline]
      exact h.ends page hpage position hposition line hline (hremoved.imp_right And.left)
    by_cases hfirst : index = 0
    · exact hends .first (by simp) hfirst
    by_cases hlast : index = page.2.length - 1
    · exact hends .last (by simp) hlast
    -- a line inside a page is removed for its text alone
    have hlt : index < page.2.length := (List.getElem?_eq_some_iff.mp hget).1
    have hinside : line ∈ page.2.tail.dropLast :=
      mem_tail_dropLast_iff.mpr ⟨index, by omega, by omega, hget⟩
    rcases hremoved with hoften | ⟨-, hindex⟩
    · exact absurd hoften (h.inside page hpage line hinside)
    · exact absurd hindex (by omega)

/-! ## A Header in the Text -/

def plainLine (text : Text) : PdfLine where
  text := trim text
  y := 0
  fontSize := 12
  x := 0
  trimmed := trim_trim text

/-- Three pages with a header, of which the last one has its text in a line of the body, too. -/
def headedPages : LinesByPage where
  pages := [
    (1, ["Sand", "One.", "Two."].map (plainLine ∘ String.toList)),
    (2, ["Sand", "Three.", "Four."].map (plainLine ∘ String.toList)),
    (3, ["Sand", "Sand", "Five."].map (plainLine ∘ String.toList))]
  nodup := by decide

/-- The line of the body is removed. -/
theorem not_forall_onlyNoiseRemoved :
    ¬ ∀ (u : UnicodeData) (confidenceThreshold : ℚ) (linesByPage : LinesByPage),
      OnlyNoiseRemoved u confidenceThreshold linesByPage := by
  intro h
  rcases (h NormalForm.acuteData (3 / 5) headedPages).removed
      (3, ["Sand", "Sand", "Five."].map (plainLine ∘ String.toList)) (by simp [headedPages]) 1
      (plainLine "Sand".toList) rfl (by decide +kernel) with ⟨hindex, -⟩ | ⟨hindex, -⟩
  · cases hindex
  · cases hindex

end AudioBook.NoiseLines
