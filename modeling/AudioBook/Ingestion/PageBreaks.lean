import AudioBook.Ingestion.LineBreaks
import AudioBook.Ingestion.Structure
import Mathlib.Algebra.Ring.Parity

/-!
# Words Across Blocks

`splitChapterIntoSections` joins a word that a page break has split into two blocks. It is a second
copy of the rule of `dehyphenate`: it takes lower case letters of any script, sees the normalized
text of either block, and never keeps a hyphen.

Main results:

- `mergesAsOneBlock_iff`: exactly when they do.
-/

namespace AudioBook.PageBreaks

open NormalForm LineBreaks Structure

/-- What Unicode promises around line feeds and hyphens, and of lower case letters. -/
structure BreakLaws (u : UnicodeData) : Prop where
  nfc_newline : ∀ s t, u.nfc (s ++ '\n' :: t) = u.nfc s ++ '\n' :: u.nfc t
  nfc_hyphen : ∀ text, '-' ∈ u.nfc text → '-' ∈ text
  toLowerCase_hyphen : ∀ text, '-' ∈ text → '-' ∈ u.toLowerCase text
  ascii : ∀ c, isLowercaseAscii c = true → u.isLowercaseLetter c = true

variable {u : UnicodeData} {config : IngestionConfig} {line next : Text} {lines : List Text}

/-! ## Chains -/

/-- How many hyphenated breaks in a row lead up to a line, of the lines from this one back. -/
def chainLength (u : UnicodeData) : List Text → ℕ
  | line :: before :: lines =>
      if isFragment u line && endsBroken u before then chainLength u (before :: lines) + 1 else 0
  | _ => 0

theorem startsWord_joinAt (hu : LetterLaws u) (line rest : Text) :
    startsWord u (joinAt u line rest) = startsWord u line := by
  unfold joinAt
  split
  case isTrue h =>
    obtain ⟨word, before, rfl, -⟩ := endsBroken_iff.mp (Bool.and_eq_true_iff.mp h).1
    rw [dropLast_broken]
    split <;> cases word <;> rfl
  case isFalse =>
    cases line with
    | nil => exact hu.whitespace ' ' (by decide)
    | cons c line => rfl

theorem startsWord_dehyphenateLines (hu : LetterLaws u) (taken : Bool) :
    startsWord u (dehyphenateLines u taken (next :: lines)) = startsWord u next := by
  cases lines with
  | nil => rfl
  | cons after lines =>
    rw [dehyphenateLines]
    split
    case isTrue h =>
      obtain ⟨hfragment, -⟩ := Bool.and_eq_true_iff.mp h
      obtain ⟨c, word, rfl, -⟩ :=
        startsWord_iff.mp (startsWord_of_isFragment (Bool.and_eq_true_iff.mp hfragment).2)
      rfl
    case isFalse => exact startsWord_joinAt hu next _

theorem exists_dehyphenateLines_append (hu : LetterLaws u) (before : List Text) (line : Text) :
    ∃ taken start, (taken && isFragment u line) = decide (Odd (chainLength u (line :: before))) ∧
      ∀ lines, dehyphenateLines u false (before.reverse ++ line :: lines) =
        start ++ dehyphenateLines u taken (line :: lines) := by
  induction before generalizing line with
  | nil => exact ⟨false, [], by simp [chainLength], fun lines => rfl⟩
  | cons previous before ih =>
    obtain ⟨taken, start, htaken, hstart⟩ := ih previous
    have hsplit : ∀ lines, dehyphenateLines u false ((previous :: before).reverse ++ line :: lines) =
        start ++ dehyphenateLines u taken (previous :: line :: lines) := by
      intro lines
      rw [List.reverse_cons, List.append_assoc]
      exact hstart (line :: lines)
    -- the break before the line is joined if it is one and its own word is not taken
    let joined := endsBroken u previous && startsWord u line && !(taken && isFragment u previous)
    have hodd : (joined && isFragment u line) =
        decide (Odd (chainLength u (line :: previous :: before))) := by
      have hjoined : joined = (endsBroken u previous && startsWord u line &&
        !decide (Odd (chainLength u (previous :: before)))) := by rw [← htaken]
      rw [hjoined, chainLength]
      cases hfragment : isFragment u line with
      | false => simp
      | true =>
        rw [startsWord_of_isFragment hfragment]
        cases endsBroken u previous <;> simp [Nat.odd_add_one, -Nat.not_odd_iff_even]
    by_cases hmissed : (taken && isFragment u previous && startsWord u line) = true
    · refine ⟨joined, start ++ (previous ++ [' ']), hodd, fun lines => ?_⟩
      have hjoined : joined = false := by simp [joined, (Bool.and_eq_true_iff.mp hmissed).1]
      rw [hsplit, dehyphenateLines, if_pos hmissed, hjoined]
      simp
    · have hjoined : joined = (endsBroken u previous && startsWord u line) := by
        cases hstarts : startsWord u line with
        | false => simp [joined, hstarts]
        | true =>
          rw [hstarts, Bool.and_true] at hmissed
          simp [joined, hstarts, hmissed]
      have hrest : ∀ lines, dehyphenateLines u false ((previous :: before).reverse ++ line :: lines) =
          start ++ joinAt u previous (dehyphenateLines u joined (line :: lines)) := by
        intro lines
        rw [hsplit, dehyphenateLines, if_neg hmissed, hjoined]
      cases hstarts : startsWord u line with
      | false =>
        refine ⟨joined, start ++ (previous ++ [' ']), hodd, fun lines => ?_⟩
        rw [hrest, joinAt, startsWord_dehyphenateLines hu, hstarts]
        simp
      | true =>
        obtain ⟨glue, hglue⟩ := joinAt_eq_append u previous line.head?
        refine ⟨joined, start ++ glue, hodd, fun lines => ?_⟩
        rw [hrest, hglue _ (head?_dehyphenateLines hstarts), List.append_assoc]

/-! ## Two Texts with a Line Feed Between Them -/

/-- What is left of a text before its lines are joined, in NFC and without soft hyphens. -/
def tidy (text : Text) : Text := collapseRuns (· = '\n') '\n' false (spaced text)

theorem cleaned_eq (u : UnicodeData) (text : Text) :
    cleaned u text = tidy (withoutSoftHyphens (u.nfc text)) := rfl

variable {c : Char}

theorem unifyLineBreaks_cons (hc : c ≠ '\r') (t : Text) :
    unifyLineBreaks (c :: t) = c :: unifyLineBreaks t := by
  rw [unifyLineBreaks.eq_2 _ _ fun _ h => absurd h hc]

theorem unifyLineBreaks_append_cons (hbreak : c ≠ '\n') (hreturn : c ≠ '\r') (s t : Text) :
    unifyLineBreaks (s ++ c :: t) = unifyLineBreaks s ++ c :: unifyLineBreaks t := by
  fun_induction unifyLineBreaks s with
  | case1 s ih =>
    rw [List.cons_append, List.cons_append, unifyLineBreaks, ih]
    rfl
  | case2 d s hd ih =>
    rw [List.cons_append, unifyLineBreaks.eq_2 _ _ ?_, ih]
    · rfl
    · rintro rest rfl hrest
      cases s with
      | nil => exact hbreak (List.cons.inj hrest).1
      | cons e s => exact hd s rfl (by rw [(List.cons.inj hrest).1])
  | case3 => exact unifyLineBreaks_cons hreturn t

theorem tidy_append_cons (hc : c ∉ [' ', '\t', '\n', '\r']) (s t : Text) :
    tidy (s ++ c :: t) = tidy s ++ c :: tidy t := by
  simp only [List.mem_cons, List.not_mem_nil, or_false, not_or] at hc
  rw [tidy, spaced, unifyLineBreaks_append_cons hc.2.2.1 hc.2.2.2,
    collapseRuns_append_cons (by simp [hc.1, hc.2.1]), collapseRuns_append_cons (by simp [hc.2.2.1])]
  rfl

theorem tidy_cons (hc : c ∉ [' ', '\t', '\n', '\r']) (t : Text) :
    tidy (c :: t) = c :: tidy t := tidy_append_cons hc [] t

theorem tidy_newline_cons (hc : c ∉ [' ', '\t', '\n', '\r']) (t : Text) :
    tidy ('\n' :: c :: t) = '\n' :: tidy (c :: t) := by
  have hbreak : c ≠ '\n' := fun h => hc (by simp [h])
  have hspaced : ∀ t, spaced ('\n' :: t) = '\n' :: spaced t := by
    intro t
    rw [spaced, unifyLineBreaks_cons (by decide), collapseRuns, if_neg (by decide)]
    rfl
  have hcons : spaced (c :: t) = c :: spaced t := by
    simp only [List.mem_cons, List.not_mem_nil, or_false, not_or] at hc
    rw [spaced, unifyLineBreaks_cons hc.2.2.2, collapseRuns, if_neg (by simp [hc.1, hc.2.1])]
    rfl
  rw [tidy_cons hc, tidy, hspaced, hcons, collapseRuns, if_pos (by decide), if_neg (by decide),
    collapseRuns, if_neg (by simp [hbreak])]
  rfl

theorem not_mem_separators (hu : LetterLaws u) (hc : u.isLetter c) :
    c ∉ [' ', '\t', '\n', '\r'] := by
  intro hmem
  have hspace := hu.isWhitespace hc
  simp only [List.mem_cons, List.not_mem_nil, or_false] at hmem
  rcases hmem with rfl | rfl | rfl | rfl <;> exact absurd hspace (by decide)

theorem exists_splitOn_append (text : Text) : ∃ before line, ∀ rest : Text, '\n' ∉ rest →
    (text ++ rest).splitOn '\n' = before ++ [line ++ rest] := by
  induction text with
  | nil => exact ⟨[], [], fun rest hrest => List.splitOn_eq_singleton hrest⟩
  | cons c text ih =>
    obtain ⟨before, line, hsplit⟩ := ih
    by_cases hc : c = '\n'
    · refine ⟨[] :: before, line, fun rest hrest => ?_⟩
      rw [List.cons_append, List.splitOn_cons_eq_if_modifyHead, if_pos (by simp [hc]),
        hsplit rest hrest, List.cons_append]
    · cases before with
      | nil =>
        refine ⟨[], c :: line, fun rest hrest => ?_⟩
        rw [List.cons_append, List.splitOn_cons_eq_if_modifyHead, if_neg (by simp [hc]),
          hsplit rest hrest]
        rfl
      | cons first before =>
        refine ⟨(c :: first) :: before, line, fun rest hrest => ?_⟩
        rw [List.cons_append, List.splitOn_cons_eq_if_modifyHead, if_neg (by simp [hc]),
          hsplit rest hrest]
        rfl

theorem exists_splitOn_cons (hc : c ≠ '\n') (text : Text) :
    ∃ line lines, (c :: text).splitOn '\n' = (c :: line) :: lines := by
  obtain ⟨line, lines, hsplit⟩ := List.exists_cons_of_ne_nil (List.splitOn_ne_nil '\n' text)
  refine ⟨line, lines, ?_⟩
  rw [List.splitOn_cons_eq_if_modifyHead, if_neg (by simp [hc]), hsplit]
  rfl

/-- The text ends in a word that is broken off. -/
def EndsInFragment (u : UnicodeData) (text : Text) : Prop :=
  endsBroken u (withoutSoftHyphens (u.nfc text))

def BeginsWithLetter (u : UnicodeData) (text : Text) : Prop :=
  startsWord u (withoutSoftHyphens (u.nfc text))

/-- The word goes on from one text to the other in lower case letters of ASCII. -/
def GoesOn (u : UnicodeData) (a b : Text) : Prop :=
  looksLikeContinuation (withoutSoftHyphens (u.nfc a)) (withoutSoftHyphens (u.nfc b))

/-- The broken word is needed by no other break: an even number of breaks in a row leads up to it,
and no break follows the word that it goes on with. -/
def Unchained (u : UnicodeData) (a b : Text) : Prop :=
  ¬ Odd (chainLength u ((cleaned u a).splitOn '\n').reverse) ∧
    ¬ startsChain u ((cleaned u b).splitOn '\n')

instance (text : Text) : Decidable (EndsInFragment u text) := inferInstanceAs (Decidable (_ = true))

instance (text : Text) : Decidable (BeginsWithLetter u text) :=
  inferInstanceAs (Decidable (_ = true))

instance (a b : Text) : Decidable (GoesOn u a b) := inferInstanceAs (Decidable (_ = true))

instance (a b : Text) : Decidable (Unchained u a b) := inferInstanceAs (Decidable (_ ∧ _))

/-! ## The Junction -/

section junction

variable {a b : Text}

theorem dehyphenateLines_true_eq (h : ¬ startsChain u lines) :
    dehyphenateLines u true lines = dehyphenateLines u false lines := by
  match lines, h with
  | [], _ => rfl
  | [_], _ => rfl
  | line :: next :: lines, h =>
    rw [dehyphenateLines, dehyphenateLines, if_neg (by simpa [startsChain] using h),
      if_neg (by simp)]

theorem missed_of_startsChain (hu : LetterLaws u) (h : startsChain u lines) :
    Missed u (dehyphenateLines u true lines) (dehyphenateLines u false lines) := by
  match lines, h with
  | line :: next :: lines, h =>
    obtain ⟨hfragment, hstarts⟩ := Bool.and_eq_true_iff.mp h
    rw [dehyphenateLines, dehyphenateLines, if_pos (by simpa [startsChain] using h),
      if_neg (by simp)]
    refine missed_joinAt (Bool.and_eq_true_iff.mp hfragment).1 ?_ ?_
    · rw [startsWord_dehyphenateLines hu, hstarts]
    · rw [head?_dehyphenateLines hstarts, head?_dehyphenateLines hstarts]

theorem exists_oneLine_junction (hu : LetterLaws u) {before after : Char}
    (hbefore : u.isLetter before) (hafter : u.isLetter after) (lines lines' : List Text)
    (line word : Text) :
    ∃ start rest rest',
      oneLine (dehyphenateLines u false (lines ++ [line ++ [before, '-']])) =
        start ++ [before, '-'] ∧
      oneLine (dehyphenateLines u false ((after :: word) :: lines')) = after :: rest ∧
      (rest' = rest ↔ ¬ startsChain u ((after :: word) :: lines')) ∧
      oneLine (dehyphenateLines u false
          ((lines ++ [line ++ [before, '-']]) ++ (after :: word) :: lines')) = start ++ before ::
        if Odd (chainLength u (lines ++ [line ++ [before, '-']]).reverse) then
          '-' :: ' ' :: after :: rest
        else if isLowercaseAscii before && isLowercaseAscii after then after :: rest'
        else '-' :: after :: rest' := by
  have hspace := hu.isWhitespace hbefore
  have hspace' := hu.isWhitespace hafter
  have hends : endsBroken u (line ++ [before, '-']) := endsBroken_iff.mpr ⟨line, before, rfl, hbefore⟩
  -- both ways the second text starts with its word
  have hhead : ∀ taken, ∃ text, dehyphenateLines u taken ((after :: word) :: lines') = after :: text :=
    fun taken => List.head?_eq_some_iff.mp (head?_dehyphenateLines hafter)
  obtain ⟨text, htext⟩ := hhead false
  obtain ⟨text', htext'⟩ := hhead true
  obtain ⟨taken, start, htaken, hstart⟩ :=
    exists_dehyphenateLines_append hu lines.reverse (line ++ [before, '-'])
  rw [List.reverse_reverse] at hstart
  have hword : ∀ text : Text, oneLine (after :: text) = after :: lineEnd text := fun text =>
    oneLine_append_cons hspace' [] text
  have hfinish : ∀ text : Text, oneLine (start ++ (line ++ before :: text)) =
      (collapseRuns (· = ' ') ' ' false (start ++ line)).dropWhile isWhitespace ++
        before :: lineEnd text := by
    intro text
    rw [← List.append_assoc, oneLine_append_cons hspace]
  refine ⟨(collapseRuns (· = ' ') ' ' false (start ++ line)).dropWhile isWhitespace, lineEnd text,
    lineEnd text', ?_, ?_, ?_, ?_⟩
  · rw [hstart, dehyphenateLines, hfinish, lineEnd_cons (by decide)]
    rfl
  · rw [htext, hword]
  · constructor
    · intro heq hchain
      refine (missed_of_startsChain hu hchain).oneLine_ne hu ?_
      rw [htext, htext', hword, hword, heq]
    · intro hchain
      have heq := dehyphenateLines_true_eq hchain
      rw [htext, htext'] at heq
      rw [(List.cons.inj heq).2]
  · have hstarts : startsWord u (after :: word) = true := hafter
    have hreverse : (lines ++ [line ++ [before, '-']]).reverse =
        (line ++ [before, '-']) :: lines.reverse := by simp
    rw [List.append_assoc, List.singleton_append, hstart, dehyphenateLines, hstarts, Bool.and_true,
      htaken, hends, Bool.and_true, htext, htext', hreverse]
    by_cases hodd : Odd (chainLength u ((line ++ [before, '-']) :: lines.reverse))
    · rw [if_pos (decide_eq_true hodd), if_pos hodd, ← lineEnd_space_cons hspace',
        ← lineEnd_cons (by decide), ← hfinish]
      simp
    · rw [if_neg (by simpa using hodd), if_neg hodd, joinAt_broken hbefore hafter]
      split
      · rw [← lineEnd_cons hspace', ← hfinish]
      · rw [← lineEnd_cons hspace', ← lineEnd_cons (by decide), ← hfinish]

theorem exists_junction (hu : LetterLaws u) (hlaws : BreakLaws u) (ha : EndsInFragment u a)
    (hb : BeginsWithLetter u b) :
    ∃ before after start rest rest', u.isLetter before ∧ u.isLetter after ∧
      (GoesOn u a b ↔ (isLowercaseAscii before && isLowercaseAscii after) = true) ∧
      normalizeText u { dehyphenate := true } a = start ++ [before, '-'] ∧
      normalizeText u { dehyphenate := true } b = after :: rest ∧
      (rest' = rest ↔ ¬ startsChain u ((cleaned u b).splitOn '\n')) ∧
      normalizeText u { dehyphenate := true } (a ++ '\n' :: b) = start ++ before ::
        if Odd (chainLength u ((cleaned u a).splitOn '\n').reverse) then '-' :: ' ' :: after :: rest
        else if isLowercaseAscii before && isLowercaseAscii after then after :: rest'
        else '-' :: after :: rest' := by
  obtain ⟨word, before, hword, hbefore⟩ := endsBroken_iff.mp ha
  obtain ⟨after, tail, htail, hafter⟩ := startsWord_iff.mp hb
  have hbefore' := not_mem_separators hu hbefore
  have hafter' := not_mem_separators hu hafter
  have hcleanedA : cleaned u a = tidy word ++ [before, '-'] := by
    rw [cleaned_eq, hword, tidy_append_cons hbefore', tidy_cons (by decide)]
    rfl
  have hcleanedB : cleaned u b = after :: tidy tail := by rw [cleaned_eq, htail, tidy_cons hafter']
  have hcleaned : cleaned u (a ++ '\n' :: b) = cleaned u a ++ '\n' :: cleaned u b := by
    have hfilter : withoutSoftHyphens (u.nfc (a ++ '\n' :: b)) =
        withoutSoftHyphens (u.nfc a) ++ '\n' :: withoutSoftHyphens (u.nfc b) := by
      rw [hlaws.nfc_newline, withoutSoftHyphens, List.filter_append, List.filter_cons_of_pos (by decide)]
      rfl
    rw [cleaned_eq, hfilter, hword, htail, List.append_assoc, List.cons_append, List.cons_append,
      List.nil_append, tidy_append_cons hbefore', tidy_cons (by decide), tidy_newline_cons hafter',
      hcleanedA, hcleanedB, tidy_cons hafter']
    simp
  -- the lines of both texts
  obtain ⟨lines, line, hlines⟩ := exists_splitOn_append (tidy word)
  have hlinesA : (cleaned u a).splitOn '\n' = lines ++ [line ++ [before, '-']] := by
    rw [hcleanedA]
    refine hlines _ fun hmem => ?_
    simp only [List.mem_cons, List.not_mem_nil, or_false] at hmem
    rcases hmem with rfl | h
    · exact hbefore' (by simp)
    · exact absurd h (by decide)
  obtain ⟨line', lines', hlinesB⟩ : ∃ line' lines', (cleaned u b).splitOn '\n' =
      (after :: line') :: lines' := by
    rw [hcleanedB]
    exact exists_splitOn_cons (fun h => hafter' (by simp [h])) _
  obtain ⟨start, rest, rest', ha, hb, hrest, hab⟩ :=
    exists_oneLine_junction hu hbefore hafter lines lines' line line'
  refine ⟨before, after, start, rest, rest', hbefore, hafter, ?_, ?_, ?_, ?_, ?_⟩
  · rw [GoesOn, looksLikeContinuation, hword, htail, dropLast_broken, List.getLast?_concat]
    rfl
  · rw [normalizeText_dehyphenate hu, hlinesA, ha]
  · rw [normalizeText_dehyphenate hu, hlinesB, hb]
  · rw [hlinesB, hrest]
  · rw [normalizeText_dehyphenate hu, hcleaned, List.splitOn_append_cons_self, hlinesA, hlinesB, hab]

end junction

/-! ## Page Numbers -/

variable {text : Text}

theorem mem_collapseRuns_of_mem {kind : Char → Bool} {replacement : Char} {inRun : Bool}
    (hmem : c ∈ text) (hc : kind c = false) : c ∈ collapseRuns kind replacement inRun text := by
  obtain ⟨s, t, rfl⟩ := List.append_of_mem hmem
  rw [collapseRuns_append_cons hc]
  simp

theorem mem_trim_of_mem (hmem : c ∈ text) (hc : isWhitespace c = false) : c ∈ trim text := by
  obtain ⟨s, t, rfl⟩ := List.append_of_mem hmem
  rw [trim_append_cons hc]
  simp

theorem isNumber_eq_false {low high : ℕ} (hmem : '-' ∈ text) : isNumber low high text = false := by
  refine Bool.eq_false_iff.mpr fun h => ?_
  exact absurd (List.all_eq_true.mp (Bool.and_eq_true_iff.mp h).2 '-' hmem) (by decide)

theorem isPageNumberLike_eq_false (hlaws : BreakLaws u) (hmem : '-' ∈ text) :
    isPageNumberLike u text = false := by
  have hnormal : '-' ∈ normalizeForComparison u text :=
    hlaws.toLowerCase_hyphen _
      (mem_collapseRuns_of_mem (mem_trim_of_mem hmem (by decide)) (by decide))
  have hroman : isRomanNumeral (normalizeForComparison u text) = false := by
    refine Bool.eq_false_iff.mpr fun h => ?_
    exact absurd (List.all_eq_true.mp (Bool.and_eq_true_iff.mp h).2 '-' hnormal) (by decide)
  have hpage : ∀ rest, afterKeyword "page".toList (normalizeForComparison u text) = some rest →
      '-' ∈ rest := by
    intro rest hrest
    simp only [afterKeyword] at hrest
    split at hrest
    case isFalse => cases hrest
    case isTrue h =>
      cases hrest
      have hword := of_decide_eq_true (Bool.and_eq_true_iff.mp h).1
      rw [← List.take_append_drop "page".toList.length (normalizeForComparison u text)] at hnormal
      rcases List.mem_append.mp hnormal with hin | hin
      · have hlower : Char.toLower '-' ∈ "page".toList := hword ▸ List.mem_map_of_mem hin
        exact absurd hlower (by decide)
      · obtain ⟨s, t, hsplit⟩ := List.append_of_mem hin
        rw [hsplit, List.dropWhile_append]
        split <;> simp [isWhitespace]
  rw [isPageNumberLike, isPageNumber, hroman, isNumber_eq_false hnormal]
  cases hkeyword : afterKeyword "page".toList (normalizeForComparison u text) with
  | none => rfl
  | some rest => rw [Option.map_some, isNumber_eq_false (hpage rest hkeyword)]; rfl

/-! ## Blocks -/

section blocks

variable {a b block : ExtractedBlock} {split : SectionSplit} {text : Text}

theorem step_of_text (htype : block.type = .paragraph)
    (hnumber : isPageNumberLike u block.text = false) (htext : normalizeText u config block.text ≠ []) :
    split.step u config block =
      split.addText u config block (normalizeText u config block.text) := by
  rw [SectionSplit.step, if_neg (by simp [htype]), if_neg (by simp [htype]),
    if_neg (by simp [hnumber])]
  exact if_neg htext

theorem exists_addText (u : UnicodeData) (config : IngestionConfig) (split : SectionSplit)
    (block : ExtractedBlock) (text : Text) :
    ∃ paragraphs p before, (split.addText u config block text).paragraphs = paragraphs ++ [p] ∧
      p.text = before ++ text ∧ p.sectionOrderIndex =
        (split.addText u config block text).currentSectionIndex := by
  unfold SectionSplit.addText
  split
  case h_1 => exact ⟨split.paragraphs, _, [], rfl, rfl, rfl⟩
  case h_2 previous hprevious =>
    split
    case isTrue hcontinues =>
      have hsection : previous.sectionOrderIndex = split.currentSectionIndex := by
        simp only [continues, Bool.and_eq_true, decide_eq_true_eq] at hcontinues
        exact hcontinues.1.1.2
      exact ⟨split.paragraphs.dropLast, _, previous.text.dropLast, rfl, rfl, hsection⟩
    case isFalse => exact ⟨split.paragraphs, _, [], rfl, rfl, rfl⟩

variable {paragraphs : List RawParagraph}

theorem addText_of_continues {p : RawParagraph} (hlast : split.paragraphs = paragraphs ++ [p])
    (h : continues u config p split.currentSectionIndex text) :
    (split.addText u config block text).paragraphs = paragraphs ++ [p.merge block text] := by
  simp only [SectionSplit.addText, hlast, List.getLast?_concat, h, if_true, List.dropLast_concat]

theorem addText_of_not_continues (block : ExtractedBlock) {p : RawParagraph}
    (hlast : split.paragraphs = paragraphs ++ [p])
    (h : ¬ continues u config p split.currentSectionIndex text) :
    (split.addText u config block text).paragraphs.length = paragraphs.length + 2 := by
  simp [SectionSplit.addText, hlast, h]

theorem splitChapterIntoSections_concat (blocks : List ExtractedBlock) :
    splitChapterIntoSections u config (blocks ++ [block]) =
      (splitChapterIntoSections u config blocks).step u config block := by
  rw [splitChapterIntoSections, List.foldl_append]
  rfl

/-- The paragraph that the first block is in goes on with the second one, as if both were one block
with a line feed between them. -/
def MergesAsOneBlock (u : UnicodeData) (config : IngestionConfig) (blocks : List ExtractedBlock)
    (a b : ExtractedBlock) : Prop :=
  ∃ paragraphs p p' before,
    (splitChapterIntoSections u config (blocks ++ [a])).paragraphs = paragraphs ++ [p] ∧
    (splitChapterIntoSections u config (blocks ++ [a] ++ [b])).paragraphs = paragraphs ++ [p'] ∧
    p'.rawText = p.rawText ++ '\n' :: b.text ∧
    p.text = before ++ normalizeText u config a.text ∧
    p'.text = before ++ normalizeText u config (a.text ++ '\n' :: b.text)

theorem continues_of_rawText (htype : block.type = .paragraph) {p p' : RawParagraph}
    (hlast : split.paragraphs = paragraphs ++ [p])
    (hstep : (split.step u config block).paragraphs = paragraphs ++ [p'])
    (hraw : p'.rawText = p.rawText ++ '\n' :: block.text) :
    isPageNumberLike u block.text = false ∧
      continues u config p split.currentSectionIndex (normalizeText u config block.text) ∧
      p' = p.merge block (normalizeText u config block.text) := by
  have hne : split.step u config block ≠ split := by
    intro heq
    rw [heq, hlast, List.append_cancel_left_eq, List.cons.injEq] at hstep
    have hlength := congrArg List.length hraw
    rw [← hstep.1] at hlength
    simp at hlength
  have hnumber : isPageNumberLike u block.text = false := by
    refine Bool.eq_false_iff.mpr fun h => hne ?_
    rw [SectionSplit.step, if_neg (by simp [htype]), if_neg (by simp [htype]), if_pos h]
  have htext : normalizeText u config block.text ≠ [] := by
    intro h
    refine hne ?_
    rw [SectionSplit.step, if_neg (by simp [htype]), if_neg (by simp [htype]),
      if_neg (by simp [hnumber])]
    exact if_pos h
  rw [step_of_text htype hnumber htext] at hstep
  by_cases hcontinues :
      continues u config p split.currentSectionIndex (normalizeText u config block.text) = true
  · rw [addText_of_continues hlast hcontinues, List.append_cancel_left_eq, List.cons.injEq] at hstep
    exact ⟨hnumber, hcontinues, hstep.1.symm⟩
  · have hlength := addText_of_not_continues block hlast hcontinues
    rw [hstep] at hlength
    simp at hlength

theorem endsHyphenated_append (text : Text) (before : Char) :
    endsHyphenated u (text ++ [before, '-']) = u.isLowercaseLetter before := by
  simp [endsHyphenated]

theorem hyphen_mem (hlaws : BreakLaws u) {text : Text} (h : EndsInFragment u text) : '-' ∈ text := by
  obtain ⟨word, before, hword, -⟩ := endsBroken_iff.mp h
  have hmem : '-' ∈ withoutSoftHyphens (u.nfc text) := by simp [hword]
  exact hlaws.nfc_hyphen text (List.mem_filter.mp hmem).1

/-- Two blocks that a broken word goes through give the text of one block exactly if the word goes
on in lower case letters of ASCII, no other break needs it, and the second block is not taken for a
page number. -/
theorem mergesAsOneBlock_iff (hu : LetterLaws u) (hlaws : BreakLaws u) (config : IngestionConfig)
    (blocks : List ExtractedBlock) (ha : a.type = .paragraph) (hb : b.type = .paragraph)
    (hends : EndsInFragment u a.text) (hbegins : BeginsWithLetter u b.text) :
    MergesAsOneBlock u config blocks a b ↔ config.dehyphenate = true ∧
      isPageNumberLike u b.text = false ∧ GoesOn u a.text b.text ∧ Unchained u a.text b.text := by
  obtain ⟨before, after, start, rest, rest', hbefore, hafter, hgoes, htextA, htextB, hrest, htext⟩ :=
    exists_junction hu hlaws hends hbegins
  rw [MergesAsOneBlock, splitChapterIntoSections_concat (blocks ++ [a])]
  constructor
  · rintro ⟨paragraphs, p, p', prefixed, hlast, hstep, hraw, hp, hp'⟩
    obtain ⟨hnumber, hcontinues, rfl⟩ := continues_of_rawText hb hlast hstep hraw
    have hconfig : config.dehyphenate = true := by
      simp only [continues, Bool.and_eq_true] at hcontinues
      exact hcontinues.1.1.1
    obtain rfl : config = { dehyphenate := true } := by
      cases config
      exact congrArg _ hconfig
    -- the merged text, and the text of one block, behind the letter before the hyphen
    have hmerged : after :: rest = if Odd (chainLength u ((cleaned u a.text).splitOn '\n').reverse) then
          '-' :: ' ' :: after :: rest
        else if isLowercaseAscii before && isLowercaseAscii after then after :: rest'
        else '-' :: after :: rest' := by
      have htext' : ((prefixed ++ (start ++ [before, '-'])).dropLast ++ after :: rest) =
          prefixed ++ normalizeText u { dehyphenate := true } (a.text ++ '\n' :: b.text) := by
        rw [← hp', ← htextA, ← hp, ← htextB]
        rfl
      rw [← List.append_assoc, dropLast_broken, htext] at htext'
      simpa using htext'
    have hhyphen := hu.ne_hyphen hafter
    split_ifs at hmerged with hodd hlower
    · exact absurd (List.cons.inj hmerged).1 hhyphen
    · exact ⟨rfl, hnumber, hgoes.mpr hlower, hodd, hrest.mp (List.cons.inj hmerged).2.symm⟩
    · exact absurd (List.cons.inj hmerged).1 hhyphen
  · rintro ⟨hconfig, hnumber, hlower, hodd, hchain⟩
    obtain rfl : config = { dehyphenate := true } := by
      cases config
      exact congrArg _ hconfig
    obtain rfl := hrest.mpr hchain
    rw [if_neg hodd, if_pos (hgoes.mp hlower)] at htext
    have hstepA : splitChapterIntoSections u { dehyphenate := true } (blocks ++ [a]) =
        (splitChapterIntoSections u { dehyphenate := true } blocks).addText u
          { dehyphenate := true } a (normalizeText u { dehyphenate := true } a.text) := by
      rw [splitChapterIntoSections_concat]
      exact step_of_text ha (isPageNumberLike_eq_false hlaws (hyphen_mem hlaws hends)) (by simp [htextA])
    obtain ⟨paragraphs, p, prefixed, hlast, hp, hsection⟩ := exists_addText u { dehyphenate := true }
      (splitChapterIntoSections u { dehyphenate := true } blocks) a
      (normalizeText u { dehyphenate := true } a.text)
    rw [← hstepA] at hlast hsection
    have hcontinues : continues u { dehyphenate := true } p
        (splitChapterIntoSections u { dehyphenate := true } (blocks ++ [a])).currentSectionIndex
        (normalizeText u { dehyphenate := true } b.text) = true := by
      obtain ⟨hfirst, hsecond⟩ := Bool.and_eq_true_iff.mp (hgoes.mp hlower)
      rw [continues, hp, htextA, htextB, ← List.append_assoc, endsHyphenated_append, startsLowercase,
        hlaws.ascii before hfirst, hlaws.ascii after hsecond, hsection]
      simp
    refine ⟨paragraphs, p, p.merge b (normalizeText u { dehyphenate := true } b.text), prefixed, hlast,
      ?_, rfl, hp, ?_⟩
    · rw [step_of_text hb hnumber (by simp [htextB])]
      exact addText_of_continues hlast hcontinues
    · rw [RawParagraph.merge, hp, htextA, htextB, htext, ← List.append_assoc, dropLast_broken]
      simp

end blocks

/-! ## A Word with Accents -/

theorem composeAcute_append_cons (hc : c ≠ 'e' ∧ c ≠ '\u0301') (s t : Text) :
    composeAcute (s ++ c :: t) = composeAcute s ++ c :: composeAcute t := by
  have hcons : composeAcute (c :: t) = c :: composeAcute t :=
    composeAcute.eq_2 c t fun _ h => absurd h hc.1
  fun_induction composeAcute s with
  | case1 s ih => rw [List.cons_append, List.cons_append, composeAcute, ih]; rfl
  | case2 d s hd ih =>
    rw [List.cons_append, composeAcute.eq_2 _ _ ?_, ih]
    · rfl
    · rintro rest rfl hrest
      cases s with
      | nil => exact hc.2 (List.cons.inj hrest).1
      | cons e s => exact hd s rfl (by rw [(List.cons.inj hrest).1])
  | case3 => exact hcons

theorem breakLaws_acuteData : BreakLaws acuteData where
  nfc_newline := composeAcute_append_cons (by decide)
  nfc_hyphen text hmem := by
    change '-' ∈ composeAcute text at hmem
    fun_induction composeAcute text with
    | case1 text ih => simp_all
    | case2 c text hc ih =>
      rcases List.mem_cons.mp hmem with h | h
      · exact h ▸ List.mem_cons_self
      · exact List.mem_cons_of_mem c (ih h)
    | case3 => cases hmem
  toLowerCase_hyphen text hmem := List.mem_map_of_mem hmem
  ascii c hc := by
    simp only [isLowercaseAscii, Bool.and_eq_true, decide_eq_true_eq] at hc
    show ((decide (97 ≤ c.val) && decide (c.val ≤ 122)) || decide (c = 'é')) = true
    simp only [Bool.or_eq_true, decide_eq_true_eq, Bool.and_eq_true]
    exact .inl ⟨hc.1, hc.2⟩

def paragraphBlock (page : ℕ) (text : Text) : ExtractedBlock where
  type := .paragraph
  text := text
  locator := .pdf page 0
  extractionMethod := .digitalText

/-- A word of ASCII is joined as in one block, and one with accents is not. -/
theorem mergesAsOneBlock_iff_accents :
    MergesAsOneBlock acuteData {} [] (paragraphBlock 1 ['r', 'a', '-']) (paragraphBlock 2 ['b']) ∧
      ¬ MergesAsOneBlock acuteData {} [] (paragraphBlock 1 ['r', 'é', '-'])
        (paragraphBlock 2 ['é', 'l']) := by
  constructor
  · exact (mergesAsOneBlock_iff letterLaws_acuteData breakLaws_acuteData {} [] rfl rfl (by decide)
      (by decide)).mpr ⟨rfl, by decide, by decide, by decide⟩
  · rw [mergesAsOneBlock_iff letterLaws_acuteData breakLaws_acuteData {} [] rfl rfl (by decide)
      (by decide)]
    rintro ⟨-, -, hlower, -⟩
    exact absurd hlower (by decide)

/-- The hyphen that one block would keep is left out. -/
theorem not_forall_mergesAsOneBlock :
    ¬ ∀ (u : UnicodeData), LetterLaws u → BreakLaws u → ∀ (config : IngestionConfig)
      (blocks : List ExtractedBlock) (a b : ExtractedBlock), a.type = .paragraph →
      b.type = .paragraph → EndsInFragment u a.text → BeginsWithLetter u b.text →
      MergesAsOneBlock u config blocks a b := by
  intro h
  obtain ⟨paragraphs, p, p', before, hlast, hstep, -, hp, hp'⟩ :=
    h acuteData letterLaws_acuteData breakLaws_acuteData {} [] (paragraphBlock 1 ['r', 'é', '-'])
      (paragraphBlock 2 ['é', 'l']) rfl rfl (by decide) (by decide)
  have htext : (splitChapterIntoSections acuteData {} [paragraphBlock 1 ['r', 'é', '-'],
      paragraphBlock 2 ['é', 'l']]).paragraphs.map RawParagraph.text = [['r', 'é', 'é', 'l']] := by
    decide
  have hone : normalizeText acuteData {} ['r', 'é', '-', '\n', 'é', 'l'] =
      ['r', 'é', '-', 'é', 'l'] := by decide
  have hlength : p'.text = ['r', 'é', 'é', 'l'] := by
    rw [List.nil_append, List.singleton_append] at hstep
    rw [hstep, List.map_append] at htext
    exact (List.append_eq_singleton_iff.mp htext).elim (fun h => (List.cons.inj h.2).1)
      fun h => by cases h.2
  have hlonger : p'.text.length = before.length + 5 := by
    rw [hp']
    exact List.length_append.trans (congrArg (before.length + ·) (congrArg List.length hone))
  rw [hlength] at hlonger
  simp at hlonger

end AudioBook.PageBreaks
