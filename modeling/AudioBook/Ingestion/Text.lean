import AudioBook.Schema.Rows

/-!
# Text of a Parsed Book

`normalizeText` and the text predicates that structure detection uses. What needs the tables of
Unicode, beyond the ASCII range that the patterns name, is a parameter: `UnicodeData`.
-/

namespace AudioBook

/-- The parts of the string library that depend on the tables of Unicode. -/
structure UnicodeData where
  nfc : Text → Text
  toLowerCase : Text → Text
  isLetter : Char → Bool
  isLowercaseLetter : Char → Bool

/-- What `IngestionConfig` says about text. -/
structure IngestionConfig where
  dehyphenate : Bool := true

/-- `\s`. -/
def isWhitespace (c : Char) : Bool :=
  decide (c.toNat ∈ [0x9, 0xa, 0xb, 0xc, 0xd, 0x20, 0xa0, 0x1680, 0x2028, 0x2029, 0x202f, 0x205f,
    0x3000, 0xfeff]) || (decide (0x2000 ≤ c.toNat) && decide (c.toNat ≤ 0x200a))

def trim (text : Text) : Text :=
  ((text.dropWhile isWhitespace).reverse.dropWhile isWhitespace).reverse

/-- Replace every run of characters of one kind by one character; `inRun` says whether the
character before was of that kind. -/
def collapseRuns (kind : Char → Bool) (replacement : Char) : Bool → Text → Text
  | _, [] => []
  | inRun, c :: text =>
      if kind c then
        if inRun then collapseRuns kind replacement true text
        else replacement :: collapseRuns kind replacement true text
      else c :: collapseRuns kind replacement false text

/-- `replace(/\r\n/g, '\n')`. -/
def unifyLineBreaks : Text → Text
  | '\r' :: '\n' :: text => '\n' :: unifyLineBreaks text
  | c :: text => c :: unifyLineBreaks text
  | [] => []

/-- `LOWERCASE_WORD`, tested on one character. -/
def isLowercaseAscii (c : Char) : Bool := decide ('a' ≤ c) && decide (c ≤ 'z')

/-- `dehyphenate`: replace `(\p{L}+)-\n(\p{L}+)` from left to right. `last` is the last letter of a
run that a match may start with, and `inMatch` says that the run at hand ends a match and starts
none. -/
def dehyphenateFrom (u : UnicodeData) : Option Char → Bool → Text → Text
  | some before, false, '-' :: '\n' :: after :: text =>
      if u.isLetter after then
        if isLowercaseAscii before && isLowercaseAscii after then
          after :: dehyphenateFrom u none true text
        else '-' :: after :: dehyphenateFrom u none true text
      else '-' :: '\n' :: dehyphenateFrom u none false (after :: text)
  | _, inMatch, c :: text =>
      if u.isLetter c then c :: dehyphenateFrom u (some c) inMatch text
      else c :: dehyphenateFrom u none false text
  | _, _, [] => []

def dehyphenate (u : UnicodeData) (text : Text) : Text := dehyphenateFrom u none false text

def normalizeText (u : UnicodeData) (config : IngestionConfig) (text : Text) : Text :=
  let composed := (u.nfc text).filter fun c => decide (c ≠ '\u00ad')
  let spaced := collapseRuns (fun c => c = ' ' || c = '\t') ' ' false (unifyLineBreaks composed)
  let broken := collapseRuns (· = '\n') (if config.dehyphenate then '\n' else ' ') false spaced
  let joined :=
    if config.dehyphenate then (dehyphenate u broken).map fun c => if c = '\n' then ' ' else c
    else broken
  trim (collapseRuns (· = ' ') ' ' false joined)

def normalizeForComparison (u : UnicodeData) (text : Text) : Text :=
  u.toLowerCase (collapseRuns isWhitespace ' ' false (trim text))

/-- `\d{low,high}`, the whole text. -/
def isNumber (low high : ℕ) (text : Text) : Bool :=
  decide (low ≤ text.length) && decide (text.length ≤ high) && text.all Char.isDigit

/-- `[ivxlcdm]`, in either case. -/
def isRomanDigit (c : Char) : Bool := decide (c.toLower ∈ ['i', 'v', 'x', 'l', 'c', 'd', 'm'])

/-- `ROMAN_NUMERAL_PATTERN`. -/
def isRomanNumeral (text : Text) : Bool :=
  decide (1 ≤ text.length) && decide (text.length ≤ 8) && text.all isRomanDigit

/-- The text without `keyword`, which is written in lower case and matched in either case, and the
whitespace after it, of which there is some. -/
def afterKeyword (keyword text : Text) : Option Text :=
  let rest := text.drop keyword.length
  if decide ((text.take keyword.length).map Char.toLower = keyword) &&
      (rest.head?.map isWhitespace).getD false then
    some (rest.dropWhile isWhitespace)
  else none

/-- `PAGE_NUMBER_PATTERN`. -/
def isPageNumber (text : Text) : Bool :=
  isNumber 1 4 text || ((afterKeyword "page".toList text).map (isNumber 1 4)).getD false

def isPageNumberLike (u : UnicodeData) (text : Text) : Bool :=
  isPageNumber (normalizeForComparison u text) || isRomanNumeral (normalizeForComparison u text)

/-- The number words of `CHAPTER_PATTERN`. -/
def numberWords : List Text :=
  ["one", "two", "three", "four", "five", "six", "seven", "eight", "nine", "ten", "eleven",
    "twelve", "thirteen", "fourteen", "fifteen", "sixteen", "seventeen", "eighteen", "nineteen",
    "twenty"].map String.toList

/-- `\w`. -/
def isWordChar (c : Char) : Bool := c.isAlphanum || c = '_'

/-- `CHAPTER_PATTERN`: a keyword, whitespace, and a number that is a whole word. -/
def matchesChapterPattern (text : Text) : Bool :=
  ["chapter", "part", "book"].any fun keyword =>
    match afterKeyword keyword.toList text with
    | none => false
    | some rest =>
        let word := rest.takeWhile isWordChar
        !word.isEmpty && (word.all Char.isDigit || word.all isRomanDigit ||
          decide (word.map Char.toLower ∈ numberWords))

/-- `BARE_ROMAN_OR_NUMBER`: a number, with or without a full stop. -/
def isBareNumber (text : Text) : Bool :=
  let number := if text.getLast? = some '.' then text.dropLast else text
  isRomanNumeral number || isNumber 1 3 number

def frontMatterTitles : List Text :=
  ["title page", "copyright", "copyright page", "dedication", "epigraph", "preface", "foreword",
    "introduction", "contents", "table of contents", "acknowledgments",
    "acknowledgements"].map String.toList

def backMatterTitles : List Text :=
  ["afterword", "appendix", "glossary", "bibliography", "index", "about the author",
    "author's note", "author note", "notes"].map String.toList

def isChapterHeading (u : UnicodeData) (text : Text) : Bool :=
  matchesChapterPattern (trim text) || isBareNumber (trim text) ||
    decide (u.toLowerCase (trim text) ∈ frontMatterTitles) ||
    decide (u.toLowerCase (trim text) ∈ backMatterTitles) ||
    decide (u.toLowerCase (trim text) = "prologue".toList) ||
    decide (u.toLowerCase (trim text) = "epilogue".toList)

def classifyMatterType (u : UnicodeData) (title : Option Text) : MatterType :=
  match title with
  | none => .body
  | some title =>
      if u.toLowerCase (trim title) ∈ frontMatterTitles then .frontMatter
      else if u.toLowerCase (trim title) ∈ backMatterTitles then .backMatter
      else .body

end AudioBook
