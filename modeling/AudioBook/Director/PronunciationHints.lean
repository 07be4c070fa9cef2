import AudioBook.Director.SpeakerEvidence

/-!
# Pronunciation Hints

`_match_pronunciation_hints` of `director/ir_builder.py`: the lexicon of a book is matched against
the text of a chunk. The match is by substring, as the comment there says: an entry has one hint, at
the first place of the lower-cased text where its normalized form stands, in a longer word too
(`matchPronunciationHints_spec`).
-/

namespace AudioBook.Direction

structure PronunciationHintSource where
  surfaceForm : Text
  surfaceFormNormalized : Text
  lexiconKey : Option Text
  ipa : Option Text
  deriving DecidableEq

/-- `reason` of a `PronunciationHint`. -/
inductive HintReason
  | properNoun
  | foreignWord
  | homograph
  | abbreviation
  | acronym
  | inventedWord
  | domainTerm
  deriving DecidableEq, Repr

structure PronunciationHint where
  offsetChars : ℕ
  lengthChars : ℕ
  lexiconKey : Option Text
  ipa : Option Text
  reason : HintReason
  deriving DecidableEq

/-- `text.find(needle)`. -/
def find (needle text : Text) : Option ℕ :=
  text.tails.findIdx? needle.isPrefixOf

def pronunciationHint (u : PythonText) (text : Text) (entry : PronunciationHintSource) :
    Option PronunciationHint :=
  if entry.surfaceFormNormalized = [] then none
  else (find entry.surfaceFormNormalized (u.lower text)).map fun start =>
    { offsetChars := start
      lengthChars := entry.surfaceForm.length
      lexiconKey := entry.lexiconKey
      ipa := entry.ipa
      -- The entries have no reason of their own.
      reason := .properNoun }

def matchPronunciationHints (u : PythonText) (text : Text)
    (entries : List PronunciationHintSource) : List PronunciationHint :=
  entries.filterMap (pronunciationHint u text)

/-! ## Occurrences -/

/-- The first position at which a text stands in another one. -/
structure FirstAt (needle text : Text) (i : ℕ) : Prop where
  stands : needle <+: text.drop i
  first : ∀ j < i, ¬needle <+: text.drop j

theorem find_eq_some_iff {needle text : Text} (hne : needle ≠ []) {i : ℕ} :
    find needle text = some i ↔ FirstAt needle text i := by
  rw [find, List.findIdx?_eq_some_iff_getElem]
  simp only [List.getElem_tails, List.isPrefixOf_iff_prefix]
  constructor
  · rintro ⟨_, hstands, hfirst⟩
    exact ⟨hstands, hfirst⟩
  · rintro ⟨hstands, hfirst⟩
    refine ⟨?_, hstands, hfirst⟩
    -- past the end there is no room for the needle
    rw [List.length_tails]
    by_contra hlt
    rw [List.drop_eq_nil_of_le (by omega)] at hstands
    exact hne (List.prefix_nil.mp hstands)

theorem isSome_find_iff {needle text : Text} :
    (find needle text).isSome = true ↔ needle <:+: text := by
  rw [find, List.findIdx?_isSome, List.any_eq_true]
  simp only [List.mem_tails, List.isPrefixOf_iff_prefix]
  constructor
  · rintro ⟨rest, hsuffix, hstart⟩
    exact hstart.isInfix.trans hsuffix.isInfix
  · intro hoccurs
    obtain ⟨rest, hstart, hsuffix⟩ := List.infix_iff_prefix_suffix.mp hoccurs
    exact ⟨rest, hsuffix, hstart⟩

/-- Lower-casing a text takes every character to one character, whatever stands around it. -/
def LowersInPlace (u : PythonText) (text : Text) : Prop :=
  (u.lower text).length = text.length ∧
    ∀ start stop, u.lower (slice text start stop) = slice (u.lower text) start stop

theorem slice_eq_of_stands {needle text : Text} {i : ℕ} (hstart : needle <+: text.drop i) :
    slice text i (i + needle.length) = needle := by
  rw [slice, Nat.add_sub_cancel_left]
  exact (List.prefix_iff_eq_take.mp hstart).symm

/-! ## The Hints -/

/-- The hint is the one of the entry. -/
structure HintFor (u : PythonText) (text : Text) (entry : PronunciationHintSource)
    (hint : PronunciationHint) : Prop where
  pronunciation : hint.lexiconKey = entry.lexiconKey ∧ hint.ipa = entry.ipa
  /-- The offset is the first position of the normalized form, where lower-casing keeps positions. -/
  offset : LowersInPlace u text →
    FirstAt entry.surfaceFormNormalized (u.lower text) hint.offsetChars
  /-- Where normalizing changes no length either, the hint covers the normalized form. -/
  covers : LowersInPlace u text → entry.surfaceForm.length = entry.surfaceFormNormalized.length →
    hint.offsetChars + hint.lengthChars ≤ text.length ∧
      u.lower (slice text hint.offsetChars (hint.offsetChars + hint.lengthChars))
        = entry.surfaceFormNormalized

def HasHint (u : PythonText) (text : Text) (entry : PronunciationHintSource) : Prop :=
  entry.surfaceFormNormalized ≠ [] ∧ entry.surfaceFormNormalized <:+: u.lower text

instance (u : PythonText) (text : Text) (entry : PronunciationHintSource) :
    Decidable (HasHint u text entry) :=
  inferInstanceAs (Decidable (_ ∧ _))

theorem pronunciationHint_spec (u : PythonText) (text : Text) (entry : PronunciationHintSource) :
    if HasHint u text entry then
      ∃ hint, pronunciationHint u text entry = some hint ∧ HintFor u text entry hint
    else pronunciationHint u text entry = none := by
  by_cases hhas : HasHint u text entry
  · obtain ⟨hne, hoccurs⟩ := hhas
    obtain ⟨i, hi⟩ := Option.isSome_iff_exists.mp (isSome_find_iff.mpr hoccurs)
    have hfirst := (find_eq_some_iff hne).mp hi
    rw [if_pos ⟨hne, hoccurs⟩, pronunciationHint, if_neg hne, hi]
    refine ⟨_, rfl, ⟨rfl, rfl⟩, fun _ => hfirst, ?_⟩
    rintro ⟨hlength, hslice⟩ hform
    have hstop : i + entry.surfaceFormNormalized.length ≤ (u.lower text).length := by
      have h := hfirst.stands.length_le
      have hpos := List.length_pos_of_ne_nil hne
      rw [List.length_drop] at h
      omega
    simp only
    rw [hform, hslice, slice_eq_of_stands hfirst.stands, ← hlength]
    exact ⟨hstop, rfl⟩
  · rw [if_neg hhas, pronunciationHint]
    split
    · rfl
    · next hne =>
        have hnone : find entry.surfaceFormNormalized (u.lower text) = none := by
          rw [← Option.not_isSome_iff_eq_none, isSome_find_iff]
          exact fun hoccurs => hhas ⟨hne, hoccurs⟩
        rw [hnone]
        rfl

/-- Every entry whose normalized form occurs in the lower-cased text has one hint, in the order of
the lexicon, at the first place where it occurs; there are no others. -/
theorem matchPronunciationHints_spec (u : PythonText) (text : Text)
    (entries : List PronunciationHintSource) :
    List.Forall₂ (HintFor u text) (entries.filter fun entry => decide (HasHint u text entry))
      (matchPronunciationHints u text entries) := by
  unfold matchPronunciationHints
  induction entries with
  | nil => exact .nil
  | cons entry entries ih =>
      have hspec := pronunciationHint_spec u text entry
      by_cases hhas : HasHint u text entry
      · rw [if_pos hhas] at hspec
        obtain ⟨hint, hhint, hfor⟩ := hspec
        rw [List.filter_cons_of_pos (by simpa using hhas), List.filterMap_cons_some hhint]
        exact .cons hfor ih
      · rw [if_neg hhas] at hspec
        rw [List.filter_cons_of_neg (by simpa using hhas), List.filterMap_cons_none hspec]
        exact ih

/-! ## Whole Words -/

/-- A form occurs at a position as whole words, whatever the case; it takes `length` characters. -/
structure WordsAt (u : PythonText) (form text : Text) (i length : ℕ) : Prop where
  same : u.lower (slice text i (i + length)) = u.lower form
  starts : wordGoesOn u (text.take i) (slice text i (i + length)) = false
  stops : wordGoesOn u (slice text i (i + length)) (text.drop (i + length)) = false

/-- Every hint is in the text. -/
def HintsInText (u : PythonText) (text : Text) (entries : List PronunciationHintSource) : Prop :=
  ∀ hint ∈ matchPronunciationHints u text entries,
    hint.offsetChars + hint.lengthChars ≤ text.length

/-- Every hint is at whole words that are the form of an entry. -/
def HintsAtWords (u : PythonText) (text : Text) (entries : List PronunciationHintSource) : Prop :=
  ∀ hint ∈ matchPronunciationHints u text entries, ∃ entry ∈ entries,
    WordsAt u entry.surfaceForm text hint.offsetChars hint.lengthChars

/-- Wherever the form of an entry occurs as whole words there is a hint. -/
def WordsHaveHints (u : PythonText) (text : Text) (entries : List PronunciationHintSource) : Prop :=
  ∀ entry ∈ entries, ∀ i length, WordsAt u entry.surfaceForm text i length → 0 < length →
    i + length ≤ text.length → ∃ hint ∈ matchPronunciationHints u text entries,
      hint.offsetChars = i ∧ hint.lengthChars = length

/-- A name of the lexicon, as the user wrote it. -/
def bob (surfaceForm : Text) : PronunciationHintSource :=
  ⟨surfaceForm, "bob".toList, none, some "bɒb".toList⟩

/-- A form with a blank after it does not fit, a form is found in a longer word, and only the first
place has a hint. -/
theorem not_forall_pointsAtWords :
    (¬∀ u text entries, HintsInText u text entries) ∧
      (¬∀ u text entries, HintsAtWords u text entries) ∧
      ¬∀ u text entries, WordsHaveHints u text entries := by
  refine ⟨fun h => ?_, fun h => ?_, fun h => ?_⟩
  · have hle := h asciiText "Bob".toList [bob "Bob ".toList]
      ⟨0, 4, none, some "bɒb".toList, .properNoun⟩ (by decide +kernel)
    exact absurd hle (by decide)
  · obtain ⟨entry, hmem, hwords⟩ := h asciiText "Bobby".toList [bob "Bob".toList]
      ⟨0, 3, none, some "bɒb".toList, .properNoun⟩ (by decide +kernel)
    exact absurd hwords.stops (by decide +kernel)
  · obtain ⟨hint, hmem, hoffset, -⟩ := h asciiText "Bob, Bob".toList [bob "Bob".toList]
      (bob "Bob".toList) (by simp) 5 3 ⟨by decide +kernel, by decide +kernel, by decide +kernel⟩
      (by decide) (by decide)
    have honly : ∀ hint ∈ matchPronunciationHints asciiText "Bob, Bob".toList [bob "Bob".toList],
        hint.offsetChars = 0 := by decide +kernel
    rw [honly hint hmem] at hoffset
    cases hoffset

end AudioBook.Direction
