import AudioBook.Semantic.Deterministic
import Mathlib.Data.Rat.Defs

/-!
# Resolving the Speaker of a Span

`resolve_speaker` of `director/speaker_resolver.py`. Narration is the narrator's; for a span of
dialogue the strategies are tried one after the other, on a window of the paragraph around the span.
-/

namespace AudioBook.Direction

/-- A JSON object, with its values as they are written. -/
abbrev SpeechTraits := List (String × String)

structure KnownSpeaker where
  characterId : Id
  displayName : Text
  /-- The display name and every alias, normalized. -/
  normalizedNames : List Text
  speechTraits : Option SpeechTraits := none
  deriving DecidableEq

structure SentinelIds where
  narrator : Id
  unknownSpeaker : Id
  multipleSpeakers : Id
  system : Id
  deriving DecidableEq

inductive Strategy
  | narration
  | explicitAttribution
  | scopedAliasMatch
  | exactAliasMatch
  | pronounResolution
  | turnTaking
  | soleParticipantInference
  | unresolvedFallback
  deriving DecidableEq, Repr

structure ResolvedSpeaker where
  speakerType : SpeakerType
  characterId : Id
  confidence : ℚ
  strategy : Strategy
  deriving DecidableEq

/-- The arguments of `resolve_speaker`. -/
structure SpeakerQuery where
  span : ChunkSpan
  paragraphText : Text
  knownSpeakers : List KnownSpeaker
  sceneParticipantIds : List Id
  previousSpeakerId : Option Id
  sentinels : SentinelIds
  deriving DecidableEq

/-! ## Patterns -/

/-- `said|asked|…|answered|called|murmured|snapped|breathed|laughed|sobbed`. -/
def attributionVerb : Pattern :=
  .alt speechVerb <| .altAll (.literal ['c', 'a', 'l', 'l', 'e', 'd']) <| [
    ['m', 'u', 'r', 'm', 'u', 'r', 'e', 'd'],
    ['s', 'n', 'a', 'p', 'p', 'e', 'd'],
    ['b', 'r', 'e', 'a', 't', 'h', 'e', 'd'],
    ['l', 'a', 'u', 'g', 'h', 'e', 'd'],
    ['s', 'o', 'b', 'b', 'e', 'd']].map Pattern.literal

/-- `[A-Z][a-zA-Z']+`. -/
def namePart : Pattern :=
  .seq (.chars fun c => decide ('A' ≤ c ∧ c ≤ 'Z'))
    (.plus (.chars fun c => decide ('a' ≤ c ∧ c ≤ 'z' ∨ 'A' ≤ c ∧ c ≤ 'Z' ∨ c = '\'')))

/-- `([A-Z][a-zA-Z']+(?:\s+[A-Z][a-zA-Z']+)?)`. -/
def attributedName : Pattern :=
  .group (.seq namePart (.upTo 1 (.seq (.plus space) namePart)))

def speakerAfterRe : Pattern :=
  .seqAll [.chars fun c => decide (c ∈ [',', '"', '\'', '”', '’']), .star space, attributionVerb,
    .plus space, attributedName]

def speakerBeforeRe (u : PythonText) : Pattern :=
  .seqAll [.boundary u.isWord, attributedName, .plus space, attributionVerb, .boundary u.isWord]

/-- A lower-case letter of a pattern that ignores case. The long s is a case of `s`, and the
dotless and the dotted i are cases of `i`. -/
def anyCase (letter : Char) : Pattern :=
  .chars fun c => decide (c.toLower = letter ∨ letter = 's' ∧ c = 'ſ' ∨
    letter = 'i' ∧ (c = 'ı' ∨ c = 'İ'))

def pronounRe (u : PythonText) : Pattern :=
  .seqAll [.boundary u.isWord,
    .altAll (.seqAll (['h', 'e'].map anyCase)) <| [
      ['s', 'h', 'e'],
      ['t', 'h', 'e', 'y'],
      ['h', 'i', 'm'],
      ['h', 'e', 'r'],
      ['t', 'h', 'e', 'm']].map fun word => .seqAll (word.map anyCase),
    .boundary u.isWord]

/-! ## The Resolution -/

def attributionWindow : ℕ := 80

/-- The text of the paragraph up to the window's length before and after the span. -/
def SpeakerQuery.window (q : SpeakerQuery) : Text :=
  slice q.paragraphText (q.span.charStart - attributionWindow)
    (min q.paragraphText.length (q.span.charEnd + attributionWindow))

/-- `by_name.get`: where speakers share a name, the last one has it. -/
def speakerByName (knownSpeakers : List KnownSpeaker) (name : Text) : Option KnownSpeaker :=
  knownSpeakers.reverse.find? fun ks => decide (name ∈ ks.normalizedNames)

/-- Strategy 1: a speech tag in the window that names a known speaker. Each pattern is asked for its
first match only. -/
def explicitAttribution (u : PythonText) (q : SpeakerQuery) : Option KnownSpeaker :=
  [speakerAfterRe, speakerBeforeRe u].findSome? fun pattern =>
    (pattern.searchGroup none q.window).bind fun name =>
      speakerByName q.knownSpeakers (normalizeKey u name)

/-- The known speakers in the scene, or all of them where the scene knows none. -/
def SpeakerQuery.scoped (q : SpeakerQuery) : List KnownSpeaker :=
  let present := q.knownSpeakers.filter fun ks => decide (ks.characterId ∈ q.sceneParticipantIds)
  if present = [] then q.knownSpeakers else present

/-- Strategies 2 and 3: the speakers in scope with a name in the window. -/
def exactHits (u : PythonText) (q : SpeakerQuery) : List KnownSpeaker :=
  q.scoped.filter fun ks => ks.normalizedNames.any fun name =>
    (normalizeKey u q.window).tails.any name.isPrefixOf

/-- The speakers that strategies 4 to 6 choose from. -/
def SpeakerQuery.plausible (q : SpeakerQuery) : List KnownSpeaker :=
  if q.sceneParticipantIds = [] then q.knownSpeakers else q.scoped

def resolveSpeaker (u : PythonText) (q : SpeakerQuery) : ResolvedSpeaker :=
  if q.span.isDialogueHint = false then ⟨.narrator, q.sentinels.narrator, 1, .narration⟩
  else match explicitAttribution u q with
  | some candidate => ⟨.character, candidate.characterId, 19 / 20, .explicitAttribution⟩
  | none =>
      match exactHits u q with
      | [hit] =>
          let strategy :=
            if q.scoped.length < q.knownSpeakers.length then .scopedAliasMatch else .exactAliasMatch
          ⟨.character, hit.characterId, 3 / 4, strategy⟩
      | _ =>
          -- Strategies 4 and 5 need to know who spoke before.
          let others := q.plausible.filter fun ks => decide (some ks.characterId ≠ q.previousSpeakerId)
          match q.previousSpeakerId.isSome, others with
          | true, [other] =>
              let strategy :=
                if (pronounRe u).search none q.window then .pronounResolution else .turnTaking
              ⟨.character, other.characterId, 3 / 5, strategy⟩
          | _, _ =>
              match q.plausible with
              | [sole] => ⟨.character, sole.characterId, 11 / 20, .soleParticipantInference⟩
              | _ => ⟨.unknown, q.sentinels.unknownSpeaker, 0, .unresolvedFallback⟩

end AudioBook.Direction
