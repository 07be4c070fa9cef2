import AudioBook.Relational.Table
import AudioBook.Semantic.Registry

/-!
# The Character Endpoints

What the API's analysis service does to the characters of a book and their aliases:
`createCharacterAlias`, `updateCharacterAlias` and `createCharacterMerge`, and the constraints that
the database puts on `character_alias`.
-/

namespace AudioBook

open Relational

/-! ## Rows -/

inductive CharacterStatus
  | confirmed
  | provisional
  | mergedInto
  | retired
  deriving DecidableEq

/-- A row of `character`, as far as the endpoints read it. -/
structure CharacterRecord where
  id : Id
  bookId : Id
  status : CharacterStatus := .provisional
  isSentinel : Bool := false
  importanceRank : Option ℤ := none
  speaking : Bool := false
  mergedIntoCharacterId : Option Id := none
  deriving DecidableEq

/-- `alias_scope`. -/
inductive ScopeKind
  | global
  | chapter
  | speaker
  deriving DecidableEq

/-- A row of `character_alias`. -/
structure AliasRow where
  id : Id
  bookId : Id
  characterId : Id
  surfaceForm : Text
  surfaceFormNormalized : Text
  scopeKind : ScopeKind := .global
  scopeChapterId : Option Id := none
  scopeSpeakerCharacterId : Option Id := none
  validFromSpine : Option ℤ := none
  validToSpine : Option ℤ := none
  deriving DecidableEq

/-! ## Constraints of `character_alias` -/

namespace AliasRow

/-- `scope_key`: null when the scope names no chapter or no speaker. -/
def scopeKey (a : AliasRow) : Option AliasScope :=
  match a.scopeKind with
  | .global => some .global
  | .chapter => a.scopeChapterId.map .chapter
  | .speaker => a.scopeSpeakerCharacterId.map .speaker

/-- `character_alias_scope_chapter_chk` and `character_alias_scope_speaker_chk`. -/
def scopeOk (a : AliasRow) : Bool :=
  decide ((a.scopeKind = .chapter ↔ a.scopeChapterId.isSome) ∧
    (a.scopeKind = .speaker ↔ a.scopeSpeakerCharacterId.isSome))

/-- `from <= to`, unless one of the two is null. -/
def notAfter : Option ℤ → Option ℤ → Bool
  | some low, some high => decide (low ≤ high)
  | _, _ => true

/-- `character_alias_valid_range_chk`. -/
def rangeOk (a : AliasRow) : Bool := notAfter a.validFromSpine a.validToSpine

/-- `&&` of the ranges `int4range(valid_from_spine, valid_to_spine)`: they are without their upper
bounds, and one without a number in it overlaps with none. -/
def overlaps (a b : AliasRow) : Bool :=
  below a.validFromSpine a.validToSpine && below b.validFromSpine b.validToSpine &&
    below a.validFromSpine b.validToSpine && below b.validFromSpine a.validToSpine

/-- The columns that `character_alias_no_overlap_excl` compares with `=`. -/
def SameKey (a b : AliasRow) : Prop :=
  a.bookId = b.bookId ∧ a.surfaceFormNormalized = b.surfaceFormNormalized ∧
    a.scopeKey = b.scopeKey ∧ a.scopeKey.isSome

instance (a b : AliasRow) : Decidable (a.SameKey b) := inferInstanceAs (Decidable (_ ∧ _))

/-- Two rows that `character_alias_no_overlap_excl` excludes. -/
def excludes (a b : AliasRow) : Bool := decide (a.SameKey b) && a.overlaps b

end AliasRow

/-- The constraints of `character_alias`. -/
structure AliasesOk (rows : List AliasRow) : Prop where
  ids : (rows.map AliasRow.id).Nodup
  scopes : ∀ a ∈ rows, a.scopeOk = true
  ranges : ∀ a ∈ rows, a.rangeOk = true
  disjoint : rows.Pairwise fun a b => a.excludes b = false

theorem aliasesOk_iff (rows : List AliasRow) :
    AliasesOk rows ↔ (rows.map AliasRow.id).Nodup ∧ (∀ a ∈ rows, a.scopeOk = true) ∧
      (∀ a ∈ rows, a.rangeOk = true) ∧ rows.Pairwise fun a b => a.excludes b = false :=
  ⟨fun h => ⟨h.ids, h.scopes, h.ranges, h.disjoint⟩, fun ⟨hids, hscopes, hranges, hdisjoint⟩ =>
    ⟨hids, hscopes, hranges, hdisjoint⟩⟩

instance (rows : List AliasRow) : Decidable (AliasesOk rows) :=
  decidable_of_iff' _ (aliasesOk_iff rows)

structure CharacterStore where
  characters : List CharacterRecord
  aliases : List AliasRow
  characterIds : (characters.map CharacterRecord.id).Nodup
  aliasesOk : AliasesOk aliases

/-! ## Requests -/

/-- What an endpoint answers instead of its result. -/
inductive CharacterError
  | notFound (message : String)
  /-- `ConflictError`, with the field and the issue of its details. -/
  | conflict (code message : String) (details : Option (String × String) := none)
  | database
  deriving DecidableEq

def requireCharacter (bookId characterId : Id) (s : CharacterStore) :
    Except CharacterError CharacterRecord :=
  match s.characters.find? fun c => decide (c.id = characterId ∧ c.bookId = bookId) with
  | some character => .ok character
  | none => .error (.notFound "Character not found.")

/-- A character that JavaScript takes for white space. -/
def isJsSpace (c : Char) : Bool :=
  decide (c.toNat ∈ [9, 10, 11, 12, 13, 32, 160, 5760, 8232, 8233, 8239, 8287, 12288, 65279] ∨
    8192 ≤ c.toNat ∧ c.toNat ≤ 8202)

/-- `replace(/\s+/g, ' ')`; `inRun` says that the scan is in a run of white space. -/
def replaceSpaces : Bool → Text → Text
  | _, [] => []
  | inRun, c :: text =>
      if isJsSpace c then
        if inRun then replaceSpaces true text else ' ' :: replaceSpaces true text
      else c :: replaceSpaces false text

/-- `normalizeSurfaceForm`; lower case is taken from the tables of Unicode. -/
def normalizeSurfaceForm (toLowerCase : Text → Text) (value : Text) : Text :=
  let trimmed := ((value.dropWhile isJsSpace).reverse.dropWhile isJsSpace).reverse
  replaceSpaces false (toLowerCase trimmed)

/-- The `scope` of a new alias. -/
structure AliasScopeBody where
  kind : ScopeKind
  chapterId : Option Id := none
  speakerCharacterId : Option Id := none

structure CreateCharacterAliasBody where
  surfaceForm : Text
  validFromSpine : Option ℤ := none
  validToSpine : Option ℤ := none
  scope : Option AliasScopeBody := none

/-- The body of a request to change an alias: what is absent stays as it is. -/
structure UpdateCharacterAliasBody where
  surfaceForm : Option Text := none
  validFromSpine : Option (Option ℤ) := none
  validToSpine : Option (Option ℤ) := none

/-! ## Aliases -/

def newAliasId (aliases : List AliasRow) : Id := (aliases.map AliasRow.id).foldr max 0 + 1

def createdAlias (toLowerCase : Text → Text) (id bookId characterId : Id)
    (body : CreateCharacterAliasBody) : AliasRow :=
  let scopeKind := (body.scope.map AliasScopeBody.kind).getD .global
  { id := id
    bookId := bookId
    characterId := characterId
    surfaceForm := body.surfaceForm
    surfaceFormNormalized := normalizeSurfaceForm toLowerCase body.surfaceForm
    scopeKind := scopeKind
    scopeChapterId :=
      if scopeKind = .chapter then body.scope.bind AliasScopeBody.chapterId else none
    scopeSpeakerCharacterId :=
      if scopeKind = .speaker then body.scope.bind AliasScopeBody.speakerCharacterId else none
    validFromSpine := body.validFromSpine
    validToSpine := body.validToSpine }

/-- `rangesOverlap`: a bound that is null is infinite. -/
def rangesOverlap (aFrom aTo bFrom bTo : Option ℤ) : Bool :=
  AliasRow.notAfter aFrom bTo && AliasRow.notAfter bFrom aTo

/-- `findAliasConflict`, of the alias that a request wants to create. -/
def findAliasConflict (wanted : AliasRow) (aliases : List AliasRow) : Option AliasRow :=
  let candidates := aliases.filter fun c => decide (c.bookId = wanted.bookId ∧
    c.surfaceFormNormalized = wanted.surfaceFormNormalized ∧ c.scopeKind = wanted.scopeKind ∧
    c.scopeChapterId = wanted.scopeChapterId ∧
    c.scopeSpeakerCharacterId = wanted.scopeSpeakerCharacterId ∧
    c.characterId ≠ wanted.characterId)
  candidates.find? fun c =>
    rangesOverlap wanted.validFromSpine wanted.validToSpine c.validFromSpine c.validToSpine

namespace CharacterStore

/-- A statement that leaves the given rows in `character_alias`. -/
def writeAliases (s : CharacterStore) (rows : List AliasRow) :
    Except CharacterError CharacterStore :=
  if h : AliasesOk rows then .ok { s with aliases := rows, aliasesOk := h } else .error .database

def createCharacterAlias (toLowerCase : Text → Text) (bookId characterId : Id)
    (body : CreateCharacterAliasBody) (s : CharacterStore) :
    Except CharacterError CharacterStore := do
  let _ ← requireCharacter bookId characterId s
  let wanted := createdAlias toLowerCase (newAliasId s.aliases) bookId characterId body
  if (findAliasConflict wanted s.aliases).isSome then
    throw (.conflict "ALIAS_CONFLICT"
      "This surface form already resolves to a different character in an overlapping scope."
      (some ("surface_form", "conflict")))
  s.writeAliases (s.aliases ++ [wanted])

def updatedAlias (toLowerCase : Text → Text) (body : UpdateCharacterAliasBody) (a : AliasRow) :
    AliasRow :=
  { a with
    surfaceForm := body.surfaceForm.getD a.surfaceForm
    surfaceFormNormalized := match body.surfaceForm with
      | none => a.surfaceFormNormalized
      | some surfaceForm =>
          -- the empty text is falsy
          if surfaceForm = [] then a.surfaceFormNormalized
          else normalizeSurfaceForm toLowerCase surfaceForm
    validFromSpine := body.validFromSpine.getD a.validFromSpine
    validToSpine := body.validToSpine.getD a.validToSpine }

/-- The alias that a request to change one names. -/
def requireAlias (bookId characterId aliasId : Id) (s : CharacterStore) :
    Except CharacterError AliasRow :=
  match s.aliases.find? fun a => decide (a.id = aliasId ∧ a.characterId = characterId ∧
    a.bookId = bookId) with
  | some a => .ok a
  | none => .error (.notFound "Alias not found.")

def updateCharacterAlias (toLowerCase : Text → Text) (bookId characterId aliasId : Id)
    (body : UpdateCharacterAliasBody) (s : CharacterStore) :
    Except CharacterError CharacterStore := do
  let _ ← requireAlias bookId characterId aliasId s
  s.writeAliases
    (updateWhere (fun a => decide (a.id = aliasId)) (updatedAlias toLowerCase body) s.aliases)

end CharacterStore

/-! ## Merges -/

/-- The `operation` of a merge request. -/
inductive MergeOperation
  | merge
  | split
  deriving DecidableEq

structure CreateCharacterMergeBody where
  operation : MergeOperation
  losingCharacterId : Id
  winningCharacterId : Id
  deriving DecidableEq

/-- Every alias of one character becomes one of another. -/
def moveAliases (losing winning : Id) (aliases : List AliasRow) : List AliasRow :=
  updateWhere (fun a => decide (a.characterId = losing)) ({ · with characterId := winning }) aliases

/-- `UPDATE character` of one row: its status, and what it is merged into. -/
def setMergedInto (characterId : Id) (status : CharacterStatus) (target : Option Id)
    (characters : List CharacterRecord) : List CharacterRecord :=
  updateWhere (fun c => decide (c.id = characterId))
    ({ · with status := status, mergedIntoCharacterId := target }) characters

theorem map_id_setMergedInto (characterId : Id) (status : CharacterStatus) (target : Option Id)
    (characters : List CharacterRecord) :
    (setMergedInto characterId status target characters).map CharacterRecord.id =
      characters.map CharacterRecord.id := by
  unfold setMergedInto updateWhere
  rw [List.map_map]
  refine List.map_congr_left fun c _ => ?_
  show (if _ then _ else c).id = c.id
  split
  · rfl
  · rfl

theorem aliasesOk_moveAliases {losing winning : Id} {aliases : List AliasRow}
    (h : AliasesOk aliases) : AliasesOk (moveAliases losing winning aliases) := by
  have hcolumns : ∀ a : AliasRow, ∃ characterId,
      (if decide (a.characterId = losing) = true then { a with characterId := winning } else a) =
        { a with characterId := characterId } := by
    intro a
    by_cases ha : a.characterId = losing
    · exact ⟨winning, by rw [if_pos (decide_eq_true ha)]⟩
    · exact ⟨a.characterId, by rw [if_neg (by simpa using ha)]⟩
  unfold moveAliases updateWhere
  refine ⟨?_, ?_, ?_, ?_⟩
  · rw [List.map_map]
    convert h.ids using 1
    refine List.map_congr_left fun a _ => ?_
    obtain ⟨characterId, ha⟩ := hcolumns a
    rw [Function.comp_apply, ha]
  · intro a ha
    obtain ⟨a₀, ha₀, rfl⟩ := List.mem_map.mp ha
    obtain ⟨characterId, heq⟩ := hcolumns a₀
    rw [heq]
    exact h.scopes a₀ ha₀
  · intro a ha
    obtain ⟨a₀, ha₀, rfl⟩ := List.mem_map.mp ha
    obtain ⟨characterId, heq⟩ := hcolumns a₀
    rw [heq]
    exact h.ranges a₀ ha₀
  · rw [List.pairwise_map]
    refine h.disjoint.imp fun {a b} hab => ?_
    obtain ⟨characterId, ha⟩ := hcolumns a
    obtain ⟨characterId', hb⟩ := hcolumns b
    rw [ha, hb]
    exact hab

def createCharacterMerge (bookId : Id) (body : CreateCharacterMergeBody) (s : CharacterStore) :
    Except CharacterError CharacterStore := do
  let losing ← requireCharacter bookId body.losingCharacterId s
  let winning ← requireCharacter bookId body.winningCharacterId s
  if losing.isSentinel ∨ winning.isSentinel then
    throw (.conflict "SENTINEL_CHARACTER_IMMUTABLE"
      "Sentinel characters cannot participate in a merge.")
  if body.operation = .merge ∧ losing.status = .mergedInto then
    throw (.conflict "INVALID_STATE_TRANSITION" "The losing character has already been merged.")
  match body.operation with
  | .merge =>
      return { s with
        characters := setMergedInto losing.id .mergedInto (some winning.id) s.characters
        aliases := moveAliases losing.id winning.id s.aliases
        characterIds := (map_id_setMergedInto _ _ _ _).symm ▸ s.characterIds
        aliasesOk := aliasesOk_moveAliases s.aliasesOk }
  | .split =>
      return { s with
        characters := setMergedInto losing.id .provisional none s.characters
        characterIds := (map_id_setMergedInto _ _ _ _).symm ▸ s.characterIds }

end AudioBook
