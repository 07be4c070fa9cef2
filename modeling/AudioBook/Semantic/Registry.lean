import AudioBook.Semantic.Deterministic
import Mathlib.Data.List.Sort

/-!
# The Character Registry

What `handle_analyze_scene` and `handle_build_story_bible_delta` make of the characters and the
relationships that the analyzer found in a chapter: the rows of `character`, `character_alias` and
`character_relationship` of one book.
-/

namespace AudioBook

/-! ## Rows -/

/-- `sentinel_kind`. -/
inductive CharacterSentinel
  | narrator
  | unknownSpeaker
  | multipleSpeakers
  | system
  deriving DecidableEq

structure Character where
  id : Id
  displayName : Text
  sentinelKind : Option CharacterSentinel := none
  merged : Bool := false
  lineCount : ℕ := 0
  deriving DecidableEq

/-- `scope_key`. -/
inductive AliasScope
  | global
  | chapter (chapterId : Id)
  | speaker (characterId : Id)
  deriving DecidableEq

structure CharacterAlias where
  characterId : Id
  surfaceForm : Text
  surfaceFormNormalized : Text
  scope : AliasScope := .global
  validFromSpine : Option ℤ := none
  validToSpine : Option ℤ := none
  deriving DecidableEq

structure CharacterRelationship where
  storyBibleVersionId : Id
  sourceCharacterId : Id
  targetCharacterId : Id
  relationshipType : RelationshipType
  deriving DecidableEq

/-- What is known about the characters of a book. -/
structure Registry where
  characters : List Character := []
  aliases : List CharacterAlias := []
  relationships : List CharacterRelationship := []

inductive RegistryError
  | aliasOverlap
  deriving DecidableEq

/-! ## Aliases -/

/-- A lower bound is below an upper one; a bound that is null is unbounded. -/
def below : Option ℤ → Option ℤ → Bool
  | some low, some high => decide (low < high)
  | _, _ => true

namespace CharacterAlias

/-- `int4range(valid_from_spine, valid_to_spine)` is not empty. -/
def isValidSomewhere (a : CharacterAlias) : Bool := below a.validFromSpine a.validToSpine

/-- `&&` of the two ranges. -/
def overlaps (a b : CharacterAlias) : Bool :=
  a.isValidSomewhere && b.isValidSomewhere && below a.validFromSpine b.validToSpine &&
    below b.validFromSpine a.validToSpine

/-- Two rows that `character_alias_no_overlap_excl` excludes. -/
def excludes (a b : CharacterAlias) : Bool :=
  decide (a.surfaceFormNormalized = b.surfaceFormNormalized ∧ a.scope = b.scope) && a.overlaps b

end CharacterAlias

/-- The row that `create_alias` inserts. -/
def extractedAlias (u : PythonText) (characterId : Id) (surfaceForm : Text) : CharacterAlias where
  characterId := characterId
  surfaceForm := surfaceForm
  surfaceFormNormalized := normalizeSurface u surfaceForm

/-! ## Chapters -/

/-- The order in which a query without a tie break meets the rows of a table. -/
structure ScanOrder where
  order : List Character → List Character
  perm : ∀ rows, (order rows).Perm rows

def ScanOrder.inserted : ScanOrder := ⟨id, fun _ => .rfl⟩

structure AnalyzedChapter where
  paragraphs : List ParagraphInput
  storyBibleVersionId : Id
  /-- How the database orders characters with equally many lines. -/
  scan : ScanOrder := .inserted

/-- A relationship between characters that `analyze_scene` hands to `build_story_bible_delta`. -/
structure StagedRelationship where
  sourceCharacterId : Id
  targetCharacterId : Id
  relationshipType : RelationshipType
  deriving DecidableEq

/-- `tuple(sorted((source_id, target_id)))`. -/
def StagedRelationship.pairKey (c : StagedRelationship) : Id × Id :=
  (min c.sourceCharacterId c.targetCharacterId, max c.sourceCharacterId c.targetCharacterId)

structure ChapterRecord where
  characterIds : List (Text × Id)
  stagedRelationships : List StagedRelationship

namespace Registry

def characterIds (r : Registry) : List Id := r.characters.map Character.id

/-- `new_id`: an id that no character has. -/
def newId (r : Registry) : Id := r.characterIds.foldr max 0 + 1

def createAlias (u : PythonText) (characterId : Id) (surfaceForm : Text) (r : Registry) :
    Except RegistryError Registry :=
  if r.aliases.any fun a => a.excludes (extractedAlias u characterId surfaceForm) then
    throw .aliasOverlap
  else return { r with aliases := r.aliases ++ [extractedAlias u characterId surfaceForm] }

def createCharacter (displayName : Text) (r : Registry) : Registry :=
  { r with characters := r.characters ++ [{ id := r.newId, displayName }] }

def updateCharacterLastAppearance (characterId : Id) (r : Registry) : Registry :=
  { r with
    characters := r.characters.map fun c =>
      if c.id = characterId then { c with lineCount := c.lineCount + 1 } else c }

/-! ## Known Characters -/

/-- The `limit` of `load_known_characters`. -/
def knownCharactersLimit : ℕ := 500

/-- `load_known_characters`: the characters with the most lines, with their aliases. -/
def loadKnownCharacters (scan : ScanOrder) (r : Registry) : List KnownCharacter :=
  let rows := (scan.order r.characters).filter fun c => !c.merged
  let sorted := rows.insertionSort fun c c' => c'.lineCount ≤ c.lineCount
  (sorted.take knownCharactersLimit).map fun c => {
    id := c.id
    displayName := c.displayName
    aliases := (r.aliases.filter fun a => decide (a.characterId = c.id)).map
      CharacterAlias.surfaceForm }

def sentinelDisplayNames : List (CharacterSentinel × Text) :=
  [(.narrator, "Narrator".toList), (.unknownSpeaker, "Unknown Speaker".toList),
    (.multipleSpeakers, "Multiple Speakers".toList), (.system, "System".toList)]

def ensureSentinel (r : Registry) (sentinel : CharacterSentinel × Text) : Registry :=
  if r.characters.any fun c => decide (c.sentinelKind = some sentinel.1) then r
  else
    { r with
      characters := r.characters ++
        [{ id := r.newId, displayName := sentinel.2, sentinelKind := some sentinel.1 }] }

def ensureSentinelCharacters (r : Registry) : Registry :=
  sentinelDisplayNames.foldl ensureSentinel r

/-! ## Characters of a Chapter -/

/-- The body of the loop over `result.characters`: the character of a mention. -/
def persistMention (u : PythonText) (m : CharacterMention) (r : Registry) :
    Except RegistryError (Id × Registry) :=
  match m.resolvedCharacterId with
  | some characterId => return (characterId, r.updateCharacterLastAppearance characterId)
  | none => do
      let r' ← (r.createCharacter m.surfaceForm).createAlias u r.newId m.surfaceForm
      return (r.newId, r')

/-- The loop over `result.characters`, which fills `key_to_character_id`. -/
def persistMentions (u : PythonText) :
    List CharacterMention → Registry → Except RegistryError (List (Text × Id) × Registry)
  | [], r => return ([], r)
  | m :: ms, r => do
      let (characterId, r') ← r.persistMention u m
      let (rest, r'') ← persistMentions u ms r'
      return ((m.normalizedKey, characterId) :: rest, r'')

/-! ## Relationships of a Chapter -/

def characterOf (ids : List (Text × Id)) (key : Text) : Option Id :=
  (ids.find? fun entry => decide (entry.1 = key)).map Prod.snd

/-- `staged_relationships`. -/
def stageRelationships (ids : List (Text × Id)) (candidates : List RelationshipCandidate) :
    List StagedRelationship :=
  candidates.filterMap fun c => do
    let source ← characterOf ids c.sourceKey
    let target ← characterOf ids c.targetKey
    return ⟨source, target, c.relationshipType⟩

/-- `by_pair`: the candidates, those of a pair next to each other. -/
def byPair (staged : List StagedRelationship) : List StagedRelationship :=
  (staged.map StagedRelationship.pairKey).eraseDups.flatMap fun key =>
    staged.filter fun c => decide (c.pairKey = key)

/-- `find_existing_relationships` has a row of the same type. -/
def hasRelationship (storyBibleVersionId : Id) (c : StagedRelationship) (r : Registry) : Bool :=
  r.relationships.any fun row => decide (row.storyBibleVersionId = storyBibleVersionId ∧
    (row.sourceCharacterId = c.sourceCharacterId ∧ row.targetCharacterId = c.targetCharacterId ∨
      row.sourceCharacterId = c.targetCharacterId ∧ row.targetCharacterId = c.sourceCharacterId) ∧
    row.relationshipType = c.relationshipType)

/-- Create the row of a candidate, unless its pair has one of the type. -/
def integrateRelationship (storyBibleVersionId : Id) (r : Registry) (c : StagedRelationship) :
    Registry :=
  if r.hasRelationship storyBibleVersionId c then r
  else
    { r with
      relationships := r.relationships ++ [⟨storyBibleVersionId, c.sourceCharacterId,
        c.targetCharacterId, c.relationshipType⟩] }

def integrateRelationships (storyBibleVersionId : Id) (staged : List StagedRelationship)
    (r : Registry) : Registry :=
  (byPair staged).foldl (integrateRelationship storyBibleVersionId) r

/-! ## The Analysis of a Chapter -/

def mentionsOf (u : PythonText) (chapter : AnalyzedChapter) (r : Registry) :
    List CharacterMention :=
  detectCharacters u chapter.paragraphs
    (indexKnownCharacters u (r.loadKnownCharacters chapter.scan))

/-- `handle_analyze_scene`, and the `handle_build_story_bible_delta` that it hands over to. A
violation undoes the session that it is raised in; the sentinels stay. -/
def analyzeChapter (u : PythonText) (chapter : AnalyzedChapter) (r : Registry) :
    Except RegistryError ChapterRecord × Registry :=
  let mentions := mentionsOf u chapter r
  let r := r.ensureSentinelCharacters
  match persistMentions u mentions r with
  | .error e => (.error e, r)
  | .ok (ids, r') =>
      let staged := stageRelationships ids (detectRelationships u chapter.paragraphs mentions)
      (.ok ⟨ids, staged⟩, r'.integrateRelationships chapter.storyBibleVersionId staged)

end Registry

end AudioBook
