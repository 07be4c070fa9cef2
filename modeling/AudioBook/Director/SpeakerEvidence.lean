import AudioBook.Director.SpeakerOrder
import AudioBook.Semantic.Matches
import Mathlib.Data.List.Infix

/-!
# The Evidence for a Speaker

Strategy 1 takes the first speech tag of the window, wherever it stands, and strategies 2 and 3 look
for the names of the speakers as parts of the window's text. The evidence is sound if and only if
the tag that comes first stands next to the span, and the one name that is found is also there as
whole words (`soundEvidence_iff`).
-/

namespace AudioBook.Direction

variable {u : PythonText} {q : SpeakerQuery}

/-! ## Speech Tags -/

def SpeakerQuery.windowStart (q : SpeakerQuery) : ℕ := q.span.charStart - attributionWindow

/-- The first place of the window where a pattern matches, with offsets into the paragraph. -/
def firstTag (q : SpeakerQuery) (pattern : Pattern) : Option LocatedMatch :=
  pattern.searchMatch none q.windowStart q.window

/-- The first place where a pattern matches, and the speaker whom it names. -/
def namedTag (u : PythonText) (q : SpeakerQuery) (pattern : Pattern) :
    Option (LocatedMatch × KnownSpeaker) :=
  (firstTag q pattern).bind fun tag =>
    (speakerByName q.knownSpeakers (normalizeKey u tag.captured)).map fun ks => (tag, ks)

/-- The tag that strategy 1 uses, and the speaker whom it names. -/
def usedTag (u : PythonText) (q : SpeakerQuery) : Option (LocatedMatch × KnownSpeaker) :=
  (namedTag u q speakerAfterRe).or (namedTag u q (speakerBeforeRe u))

theorem explicitAttribution_eq_map :
    explicitAttribution u q = (usedTag u q).map Prod.snd := by
  have hpattern : ∀ pattern : Pattern,
      ((pattern.searchGroup none q.window).bind fun name =>
        speakerByName q.knownSpeakers (normalizeKey u name))
        = (namedTag u q pattern).map Prod.snd := by
    intro pattern
    rw [Pattern.searchGroup_eq_map none q.windowStart q.window, ← firstTag, namedTag]
    cases firstTag q pattern with
    | none => rfl
    | some tag => simp [Function.comp_def]
  unfold explicitAttribution usedTag
  simp only [List.findSome?_cons, List.findSome?_nil, hpattern]
  cases namedTag u q speakerAfterRe with
  | none => cases namedTag u q (speakerBeforeRe u) <;> rfl
  | some named => rfl

/-- A character that may stand between a quotation and its tag: a blank or punctuation, but no
double quotation mark. -/
def separates (u : PythonText) (c : Char) : Bool :=
  !u.isWord c && decide (c ≠ '"' ∧ c ≠ '“' ∧ c ≠ '”')

/-- Where the words of a tag start: after the punctuation that the tag begins with. -/
def wordsStart (u : PythonText) (text : Text) (tag : LocatedMatch) : ℕ :=
  tag.start + ((slice text tag.start tag.stop).takeWhile fun c => !u.isWord c).length

/-- The words of a tag stand next to the span, before or after it. -/
def Adjacent (u : PythonText) (q : SpeakerQuery) (tag : LocatedMatch) : Prop :=
  (tag.stop ≤ q.span.charStart ∧
      (slice q.paragraphText tag.stop q.span.charStart).all (separates u) = true) ∨
    (q.span.charEnd ≤ wordsStart u q.paragraphText tag ∧
      (slice q.paragraphText q.span.charEnd (wordsStart u q.paragraphText tag)).all (separates u)
        = true)

instance (u : PythonText) (q : SpeakerQuery) (tag : LocatedMatch) : Decidable (Adjacent u q tag) :=
  inferInstanceAs (Decidable (_ ∨ _))

def NamesKnown (u : PythonText) (q : SpeakerQuery) (tag : LocatedMatch) : Prop :=
  ∃ ks ∈ q.knownSpeakers, normalizeKey u tag.captured ∈ ks.normalizedNames

/-! ## Names -/

def wordGoesOn (u : PythonText) (left right : Text) : Bool :=
  left.getLast?.any u.isWord && right.head?.any u.isWord

/-- A name occurs in a text as whole words. -/
def WholeWords (u : PythonText) (name text : Text) : Prop :=
  name ≠ [] ∧ ∃ i < text.length, name.isPrefixOf (text.drop i) = true ∧
    wordGoesOn u (text.take i) name = false ∧
    wordGoesOn u name (text.drop (i + name.length)) = false

instance (u : PythonText) (name text : Text) : Decidable (WholeWords u name text) :=
  inferInstanceAs (Decidable (_ ∧ _))

/-- A name is a part of a text, of a word too. -/
def IsPart (name text : Text) : Prop :=
  text.tails.any name.isPrefixOf = true

instance (name text : Text) : Decidable (IsPart name text) :=
  inferInstanceAs (Decidable (_ = true))

theorem WholeWords.isPart {name text : Text} (hwhole : WholeWords u name text) :
    IsPart name text := by
  obtain ⟨-, i, -, hstart, -, -⟩ := hwhole
  exact List.any_eq_true.mpr
    ⟨text.drop i, (List.mem_tails _ _).mpr (List.drop_suffix i text), hstart⟩

/-- A speaker has a name that is a part of the window. -/
def HasPart (u : PythonText) (q : SpeakerQuery) (ks : KnownSpeaker) : Prop :=
  ∃ name ∈ ks.normalizedNames, IsPart name (normalizeKey u q.window)

instance (u : PythonText) (q : SpeakerQuery) (ks : KnownSpeaker) : Decidable (HasPart u q ks) :=
  List.decidableBEx _ _

/-- A speaker has a name that occurs in the window as whole words. -/
def HasWholeName (u : PythonText) (q : SpeakerQuery) (ks : KnownSpeaker) : Prop :=
  ∃ name ∈ ks.normalizedNames, WholeWords u name (normalizeKey u q.window)

theorem mem_exactHits_iff {ks : KnownSpeaker} :
    ks ∈ exactHits u q ↔ ks ∈ q.scoped ∧ HasPart u q ks := by
  rw [exactHits, List.mem_filter, List.any_eq_true]
  rfl

/-! ## Sound Evidence -/

/-- The speech tag that an explicit attribution used stands next to the span. -/
def SoundTag (u : PythonText) (q : SpeakerQuery) : Prop :=
  (resolveSpeaker u q).strategy = .explicitAttribution →
    ∀ tag ks, usedTag u q = some (tag, ks) → Adjacent u q tag

/-- The character of an alias match has a name that occurs in the window as whole words. -/
def SoundAlias (u : PythonText) (q : SpeakerQuery) : Prop :=
  (resolveSpeaker u q).strategy = .scopedAliasMatch ∨
      (resolveSpeaker u q).strategy = .exactAliasMatch →
    ∃ ks ∈ q.scoped, ks.characterId = (resolveSpeaker u q).characterId ∧ HasWholeName u q ks

def SoundEvidence (u : PythonText) (q : SpeakerQuery) : Prop :=
  SoundTag u q ∧ SoundAlias u q

/-- The first place of the window where the after-pattern matches is next to the span if it names a
known speaker; if it does not, this is so of the before-pattern. -/
def LeadingTagAdjacent (u : PythonText) (q : SpeakerQuery) : Prop :=
  (∀ tag, firstTag q speakerAfterRe = some tag → NamesKnown u q tag → Adjacent u q tag) ∧
    ((∀ tag, firstTag q speakerAfterRe = some tag → ¬NamesKnown u q tag) →
      ∀ tag, firstTag q (speakerBeforeRe u) = some tag → NamesKnown u q tag → Adjacent u q tag)

/-- No first place of the patterns names a known speaker. -/
def NoKnownTag (u : PythonText) (q : SpeakerQuery) : Prop :=
  ∀ pattern ∈ [speakerAfterRe, speakerBeforeRe u], ∀ tag, firstTag q pattern = some tag →
    ¬NamesKnown u q tag

/-- Where no tag decides and one speaker in scope has names that are parts of the window, one of
these names also occurs as whole words. -/
def LonePartWhole (u : PythonText) (q : SpeakerQuery) : Prop :=
  NoKnownTag u q → (q.scoped.countP fun ks => decide (HasPart u q ks)) = 1 →
    ∀ ks ∈ q.scoped, HasPart u q ks → HasWholeName u q ks

theorem exists_namedTag_iff {pattern : Pattern} {tag : LocatedMatch} :
    (∃ ks, namedTag u q pattern = some (tag, ks)) ↔
      firstTag q pattern = some tag ∧ NamesKnown u q tag := by
  have hnamed : NamesKnown u q tag ↔
      ∃ ks, speakerByName q.knownSpeakers (normalizeKey u tag.captured) = some ks := by
    rw [← Option.isSome_iff_exists, isSome_speakerByName, List.any_eq_true]
    simp [NamesKnown]
  rw [hnamed]
  constructor
  · rintro ⟨ks, hks⟩
    obtain ⟨found, hfound, hmap⟩ := Option.bind_eq_some_iff.mp hks
    obtain ⟨speaker, hspeaker, heq⟩ := Option.map_eq_some_iff.mp hmap
    obtain ⟨rfl, rfl⟩ := Prod.mk.inj heq
    exact ⟨hfound, speaker, hspeaker⟩
  · rintro ⟨hfound, ks, hks⟩
    exact ⟨ks, Option.bind_eq_some_iff.mpr ⟨tag, hfound, by rw [hks]; rfl⟩⟩

theorem namedTag_eq_none_iff {pattern : Pattern} :
    namedTag u q pattern = none ↔
      ∀ tag, firstTag q pattern = some tag → ¬NamesKnown u q tag := by
  rw [Option.eq_none_iff_forall_ne_some]
  constructor
  · intro hnone tag hfirst hnames
    obtain ⟨ks, hks⟩ := exists_namedTag_iff.mpr ⟨hfirst, hnames⟩
    exact hnone _ hks
  · rintro hnone ⟨tag, ks⟩ hks
    obtain ⟨hfirst, hnames⟩ := exists_namedTag_iff.mp ⟨ks, hks⟩
    exact hnone tag hfirst hnames

theorem usedTag_eq_none_iff : usedTag u q = none ↔ NoKnownTag u q := by
  rw [usedTag, Option.or_eq_none_iff, namedTag_eq_none_iff, namedTag_eq_none_iff]
  simp [NoKnownTag]

theorem forall_usedTag_adjacent_iff :
    (∀ tag ks, usedTag u q = some (tag, ks) → Adjacent u q tag) ↔ LeadingTagAdjacent u q := by
  unfold LeadingTagAdjacent usedTag
  cases hafter : namedTag u q speakerAfterRe with
  | none =>
      -- the before-pattern is asked
      have hunnamed := namedTag_eq_none_iff.mp hafter
      rw [Option.none_or]
      constructor
      · intro hused
        refine ⟨fun tag hfirst hnames => absurd hnames (hunnamed tag hfirst),
          fun _ tag hfirst hnames => ?_⟩
        obtain ⟨ks, hks⟩ := exists_namedTag_iff.mpr ⟨hfirst, hnames⟩
        exact hused tag ks hks
      · rintro ⟨-, hbefore⟩ tag ks hks
        obtain ⟨hfirst, hnames⟩ := exists_namedTag_iff.mp ⟨ks, hks⟩
        exact hbefore hunnamed tag hfirst hnames
  | some named =>
      obtain ⟨tag, ks⟩ := named
      obtain ⟨hfirst, hnames⟩ := exists_namedTag_iff.mp ⟨ks, hafter⟩
      rw [Option.some_or]
      constructor
      · intro hused
        refine ⟨fun other hother _ => ?_, fun hunnamed => absurd hnames (hunnamed tag hfirst)⟩
        obtain rfl := Option.some.inj (hfirst.symm.trans hother)
        exact hused tag ks rfl
      · rintro ⟨hadjacent, -⟩ other ks' heq
        obtain ⟨rfl, rfl⟩ := Prod.mk.inj (Option.some.inj heq)
        exact hadjacent tag hfirst hnames

/-! ## Strategies -/

theorem strategy_eq_explicitAttribution_iff (hdialogue : q.span.isDialogueHint = true) :
    (resolveSpeaker u q).strategy = .explicitAttribution ↔ usedTag u q ≠ none := by
  rw [resolveSpeaker_dialogue hdialogue, explicitAttribution_eq_map]
  cases usedTag u q with
  | some named => simp
  | none =>
      simp only [Option.map_none, ne_eq, not_true_eq_false, iff_false]
      split
      · next ks hhit => simp only; split <;> simp
      · split
        · simp only; split <;> simp
        · split <;> simp

theorem strategy_alias_iff (hdialogue : q.span.isDialogueHint = true) :
    ((resolveSpeaker u q).strategy = .scopedAliasMatch ∨
        (resolveSpeaker u q).strategy = .exactAliasMatch) ↔
      usedTag u q = none ∧ ∃ ks, exactHits u q = [ks] := by
  rw [resolveSpeaker_dialogue hdialogue, explicitAttribution_eq_map]
  cases usedTag u q with
  | some named => simp
  | none =>
      simp only [Option.map_none, true_and]
      cases hhit : only (exactHits u q) with
      | some ks =>
          rw [only_eq_some_iff.mp hhit]
          simp only
          split <;> simp
      | none =>
          have hnone : ¬∃ ks, exactHits u q = [ks] := by
            rintro ⟨ks, hks⟩
            rw [only_eq_some_iff.mpr hks] at hhit
            cases hhit
          simp only [hnone, iff_false]
          split
          · simp only; split <;> simp
          · split <;> simp

theorem characterId_of_alias (hdialogue : q.span.isDialogueHint = true)
    (hused : usedTag u q = none) {ks : KnownSpeaker} (hhits : exactHits u q = [ks]) :
    (resolveSpeaker u q).characterId = ks.characterId := by
  rw [resolveSpeaker_dialogue hdialogue, explicitAttribution_eq_map, hused, hhits]
  rfl

theorem countP_hasPart_eq_one_iff :
    (q.scoped.countP fun ks => decide (HasPart u q ks)) = 1 ↔ ∃ ks, exactHits u q = [ks] := by
  have hhits : exactHits u q = q.scoped.filter fun ks => decide (HasPart u q ks) := by
    unfold exactHits
    congr 1
    funext ks
    rw [Bool.eq_iff_iff, List.any_eq_true, decide_eq_true_iff]
    rfl
  rw [List.countP_eq_length_filter, ← hhits, List.length_eq_one_iff]

/-- The second quotation of a paragraph; the tag of the first one is in its window. -/
def secondQuotation : SpeakerQuery where
  span := ⟨23, 27, "\"B.\"".toList, true⟩
  paragraphText := "\"A,\" said Bob. He sat. \"B.\"".toList
  knownSpeakers := [⟨1, "Bob".toList, ["bob".toList], none⟩]
  sceneParticipantIds := []
  previousSpeakerId := none
  sentinels := ⟨11, 12, 13, 14⟩

/-- A quotation with a word in its window that contains a short name. -/
def nameInWord : SpeakerQuery where
  span := ⟨0, 5, "\"Hi.\"".toList, true⟩
  paragraphText := "\"Hi.\" We always lied.".toList
  knownSpeakers := [⟨1, "Al".toList, ["al".toList], none⟩]
  sceneParticipantIds := []
  previousSpeakerId := none
  sentinels := ⟨11, 12, 13, 14⟩

end AudioBook.Direction
