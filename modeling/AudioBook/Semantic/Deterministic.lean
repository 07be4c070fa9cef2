import AudioBook.Semantic.Patterns

/-!
# The Deterministic Analyzer

`DeterministicSemanticAnalyzer.analyze_chapter`, as far as it is about characters and their
relationships: the names of a chapter are counted, resolved against the known characters, and short
forms are linked to long ones. Scenes, locations, the point of view and the confidence of a mention
are left out.
-/

namespace AudioBook

/-- What Python takes from the tables of Unicode. -/
structure PythonText where
  isWord : Char → Bool
  lower : Text → Text

/-- The tables of Unicode, as far as ASCII goes. -/
def asciiText : PythonText where
  isWord c := c.isAlphanum || decide (c = '_')
  lower text := text.map Char.toLower

def strip (text : Text) : Text :=
  ((text.dropWhile isPatternSpace).reverse.dropWhile isPatternSpace).reverse

/-- Replace every run of whitespace by a blank; `inRun` says that the scan is in a run. -/
def collapseWhitespace : Bool → Text → Text
  | _, [] => []
  | inRun, c :: text =>
      if isPatternSpace c then
        if inRun then collapseWhitespace true text else ' ' :: collapseWhitespace true text
      else c :: collapseWhitespace false text

/-- `strip().lower()`. -/
def normalizeSurface (u : PythonText) (surfaceForm : Text) : Text := u.lower (strip surfaceForm)

def normalizeKey (u : PythonText) (surfaceForm : Text) : Text :=
  collapseWhitespace false (normalizeSurface u surfaceForm)

/-- `" " in text`. -/
def isMultiWord (text : Text) : Bool := text.contains ' '

/-- `text.split(" ")[0]`. -/
def firstWord (text : Text) : Text := text.takeWhile fun c => decide (c ≠ ' ')

/-! ## Patterns of Names -/

/-- `[A-Z][a-z]+`. -/
def capitalized : Pattern :=
  .seq (.chars fun c => decide ('A' ≤ c ∧ c ≤ 'Z'))
    (.plus (.chars fun c => decide ('a' ≤ c ∧ c ≤ 'z')))

/-- `\s`. -/
def space : Pattern := .chars isPatternSpace

/-- `[A-Z][a-z]+(?:\s+[A-Z][a-z]+){0,n}`. -/
def capitalizedRun (n : ℕ) : Pattern :=
  .seq capitalized (.upTo n (.seq (.plus space) capitalized))

/-- `said|asked|replied|shouted|whispered|muttered|cried|answered`. -/
def speechVerb : Pattern :=
  .altAll (.literal ['s', 'a', 'i', 'd']) <| [
    ['a', 's', 'k', 'e', 'd'],
    ['r', 'e', 'p', 'l', 'i', 'e', 'd'],
    ['s', 'h', 'o', 'u', 't', 'e', 'd'],
    ['w', 'h', 'i', 's', 'p', 'e', 'r', 'e', 'd'],
    ['m', 'u', 't', 't', 'e', 'r', 'e', 'd'],
    ['c', 'r', 'i', 'e', 'd'],
    ['a', 'n', 's', 'w', 'e', 'r', 'e', 'd']].map Pattern.literal

def nameRunRe (u : PythonText) : Pattern :=
  .seqAll [.boundary u.isWord, .group (capitalizedRun 2), .boundary u.isWord]

def speakerAfterRe : Pattern :=
  .seqAll [.chars fun c => decide (c ∈ [',', '"', '\'']), .star space, speechVerb, .plus space,
    .group (capitalizedRun 1)]

def speakerBeforeRe (u : PythonText) : Pattern :=
  .seqAll [.boundary u.isWord, .group (capitalizedRun 1), .plus space, speechVerb,
    .boundary u.isWord]

def stopwords : List Text :=
  ["the", "a", "an", "and", "but", "or", "if", "when", "while", "chapter", "part", "i", "he", "she",
    "it", "they", "we", "you", "mr", "mrs", "ms", "dr", "there", "this", "that", "these", "those",
    "then", "yes", "no", "oh", "well", "now"].map String.toList

/-! ## Counting Names -/

structure ParagraphInput where
  id : Id
  text : Text

structure NameCount where
  key : Text
  count : ℕ
  surfaceForm : Text
  evidence : List Id
  isSpeaker : Bool

def appendNew (items : List Id) (item : Id) : List Id :=
  if item ∈ items then items else items ++ [item]

def countName (u : PythonText) (paragraphId : Id) (isSpeaker : Bool) (counts : List NameCount)
    (surfaceForm : Text) : List NameCount :=
  let key := normalizeKey u surfaceForm
  if counts.any fun n => decide (n.key = key) then
    counts.map fun n =>
      if n.key = key then
        { n with
          count := n.count + 1
          evidence := appendNew n.evidence paragraphId
          isSpeaker := n.isSpeaker || isSpeaker }
      else n
  else counts ++ [⟨key, 1, surfaceForm, [paragraphId], isSpeaker⟩]

/-- A match of `_NAME_RUN_RE` that is one word, and a stopword. -/
def isStopword (u : PythonText) (surfaceForm : Text) : Bool :=
  !isMultiWord surfaceForm && decide (u.lower (firstWord surfaceForm) ∈ stopwords)

def countParagraph (u : PythonText) (counts : List NameCount) (paragraph : ParagraphInput) :
    List NameCount :=
  let names := ((nameRunRe u).finditer paragraph.text).filter fun surface => !isStopword u surface
  let speakers := speakerAfterRe.finditer paragraph.text ++
    (speakerBeforeRe u).finditer paragraph.text
  speakers.foldl (countName u paragraph.id true) (names.foldl (countName u paragraph.id false) counts)

/-- The names of a chapter, in the order in which they first appear. A capitalized word that is
neither repeated nor a speaker is too weak. -/
def detectNames (u : PythonText) (paragraphs : List ParagraphInput) : List NameCount :=
  (paragraphs.foldl (countParagraph u) []).filter fun n =>
    decide (2 ≤ n.count) || n.isSpeaker || isMultiWord n.key

/-! ## Candidates -/

structure KnownCharacter where
  id : Id
  displayName : Text
  aliases : List Text

/-- The names of known characters, in the order in which `_index_known_characters` writes them. -/
def knownNames (u : PythonText) (known : List KnownCharacter) : List (Text × Id) :=
  known.flatMap fun k => (k.displayName :: k.aliases).map fun name => (normalizeKey u name, k.id)

/-- `_index_known_characters`, asked for a key: the name that was written last counts. -/
def indexKnownCharacters (u : PythonText) (known : List KnownCharacter) (key : Text) : Option Id :=
  ((knownNames u known).reverse.find? fun entry => decide (entry.1 = key)).map Prod.snd

/-- `alias_type` of an extracted alias. -/
inductive AliasType
  | givenName
  | fullName
  deriving DecidableEq

structure CharacterMention where
  surfaceForm : Text
  normalizedKey : Text
  aliasType : AliasType
  isSpeaker : Bool
  evidenceParagraphIds : List Id
  resolvedCharacterId : Option Id

def candidateOf (index : Text → Option Id) (n : NameCount) : CharacterMention where
  surfaceForm := n.surfaceForm
  normalizedKey := n.key
  aliasType := if isMultiWord n.key then .fullName else .givenName
  isSpeaker := n.isSpeaker
  evidenceParagraphIds := n.evidence
  resolvedCharacterId := index n.key

/-- The multi-word keys that a one-word key is the first word of. -/
def longForms (keys : List Text) (shortKey : Text) : List Text :=
  keys.filter fun key => isMultiWord key && decide (firstWord key = shortKey)

def updateCandidate (key : Text) (f : CharacterMention → CharacterMention)
    (candidates : List CharacterMention) : List CharacterMention :=
  candidates.map fun m => if m.normalizedKey = key then f m else m

/-- The body of the loop of `_link_short_forms_as_aliases`, for one short form. -/
def linkShortForm (keys : List Text) (candidates : List CharacterMention) (shortKey : Text) :
    List CharacterMention :=
  match longForms keys shortKey with
  | [longKey] =>
      match candidates.find? (fun m => decide (m.normalizedKey = longKey)),
          candidates.find? (fun m => decide (m.normalizedKey = shortKey)) with
      | some long, some short =>
          updateCandidate shortKey
            (fun m => { m with
              aliasType := .givenName
              resolvedCharacterId := long.resolvedCharacterId })
            (updateCandidate longKey
              (fun m => { m with
                isSpeaker := long.isSpeaker || short.isSpeaker
                evidenceParagraphIds :=
                  short.evidenceParagraphIds.foldl appendNew long.evidenceParagraphIds })
              candidates)
      | _, _ => candidates
  | _ => candidates

def linkShortFormsAsAliases (candidates : List CharacterMention) : List CharacterMention :=
  let keys := candidates.map CharacterMention.normalizedKey
  (keys.filter fun key => !isMultiWord key).foldl (linkShortForm keys) candidates

def detectCharacters (u : PythonText) (paragraphs : List ParagraphInput)
    (index : Text → Option Id) : List CharacterMention :=
  linkShortFormsAsAliases ((detectNames u paragraphs).map (candidateOf index))

/-! ## Relationships -/

/-- `RelationshipTypeLiteral`, less the types that no keyword has. -/
inductive RelationshipType
  | family
  | friendship
  | adversarial
  | rivalry
  | authority
  | mentor
  | professional
  | romantic
  | alliance
  | betrayal
  deriving DecidableEq

def relationshipKeywords : List (Text × RelationshipType) :=
  [("brother", .family), ("sister", .family), ("mother", .family), ("father", .family),
    ("son", .family), ("daughter", .family), ("husband", .family), ("wife", .family),
    ("cousin", .family), ("aunt", .family), ("uncle", .family), ("grandmother", .family),
    ("grandfather", .family), ("friend", .friendship), ("companion", .friendship),
    ("enemy", .adversarial), ("foe", .adversarial), ("rival", .rivalry), ("boss", .authority),
    ("employer", .authority), ("master", .authority), ("teacher", .mentor), ("mentor", .mentor),
    ("tutor", .mentor), ("colleague", .professional), ("partner", .professional),
    ("lover", .romantic), ("fiance", .romantic), ("fiancee", .romantic),
    ("sweetheart", .romantic), ("beloved", .romantic), ("ally", .alliance),
    ("traitor", .betrayal)].map fun entry => (entry.1.toList, entry.2)

/-- `RelationshipCandidate`, less its label, its evidence and its confidence. -/
structure RelationshipCandidate where
  sourceKey : Text
  targetKey : Text
  relationshipType : RelationshipType
  deriving DecidableEq

/-- `re.search(rf"\b{keyword}\b", lowered)`. -/
def mentionsKeyword (u : PythonText) (lowered : Text) (keyword : Text) : Bool :=
  (Pattern.seqAll [.boundary u.isWord, .literal keyword, .boundary u.isWord]).search none lowered

def relationshipTypesOf (u : PythonText) (text : Text) : List RelationshipType :=
  (relationshipKeywords.filter fun entry => mentionsKeyword u (u.lower text) entry.1).map Prod.snd

def presentIn (candidates : List CharacterMention) (paragraphId : Id) : List CharacterMention :=
  candidates.filter fun m => decide (paragraphId ∈ m.evidenceParagraphIds)

/-- The relationships of a paragraph: of the first two candidates that are present. -/
def relationshipsIn (u : PythonText) (candidates : List CharacterMention)
    (paragraph : ParagraphInput) : List RelationshipCandidate :=
  match presentIn candidates paragraph.id with
  | source :: target :: _ => (relationshipTypesOf u paragraph.text).map fun relationshipType =>
      ⟨source.normalizedKey, target.normalizedKey, relationshipType⟩
  | _ => []

/-- `_detect_relationships`: each relationship once. -/
def detectRelationships (u : PythonText) (paragraphs : List ParagraphInput)
    (candidates : List CharacterMention) : List RelationshipCandidate :=
  (paragraphs.flatMap (relationshipsIn u candidates)).eraseDups

end AudioBook
