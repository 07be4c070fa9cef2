import AudioBook.Semantic.AliasOverlap
import Mathlib.Data.List.MinMax

/-!
# Short Forms

A short form is linked to its long form by the id that the long form is resolved to. Where the long
form is new this is nobody, and both become characters of their own. Where it is known, both are
present in the same paragraph as two candidates, and the first two that are present are related.

Main results:

- `overChapters_shortFormIdentity_iff`: exactly then it does, in every chapter of a sequence.
-/

namespace AudioBook

open Registry

variable {u : PythonText}

/-! ## Characters that are There -/

namespace Registry

variable (r : Registry)

theorem newId_not_mem : r.newId ∉ r.characterIds := fun h => by
  have hle : r.newId ≤ r.characterIds.foldr max 0 := List.le_max_of_le' 0 h le_rfl
  exact absurd hle (Nat.not_succ_le_self _)

/-- Every alias is of a character that is there. -/
def AliasesOwned (r : Registry) : Prop := ∀ a ∈ r.aliases, a.characterId ∈ r.characterIds

/-- No relationship is of a character with itself. -/
def NoSelfRelationship (r : Registry) : Prop :=
  ∀ row ∈ r.relationships, row.sourceCharacterId ≠ row.targetCharacterId

/-- What the foreign key of `character_alias` keeps, and no relationship of a character with
itself. -/
structure IsSound (r : Registry) : Prop where
  owned : r.AliasesOwned
  noSelf : r.NoSelfRelationship

theorem isSound_empty : ({} : Registry).IsSound :=
  ⟨by simp [AliasesOwned], by simp [NoSelfRelationship]⟩

theorem updateCharacterLastAppearance_characterIds (characterId : Id) (r : Registry) :
    (r.updateCharacterLastAppearance characterId).characterIds = r.characterIds := by
  rw [characterIds, updateCharacterLastAppearance, List.map_map]
  refine List.map_congr_left fun c _ => ?_
  rw [Function.comp_apply]
  split
  · rfl
  · rfl

theorem addCharacter_characterIds (surfaceForm : Text) (r : Registry) :
    (r.addCharacter u surfaceForm).characterIds = r.characterIds ++ [r.newId] := by
  simp [characterIds, addCharacter]

theorem AliasesOwned.addCharacter {r : Registry} (h : r.AliasesOwned) (surfaceForm : Text) :
    (r.addCharacter u surfaceForm).AliasesOwned := by
  intro a ha
  rw [addCharacter_characterIds]
  rcases List.mem_append.mp ha with ha | ha
  · exact List.mem_append_left _ (h a ha)
  · obtain rfl := List.mem_singleton.mp ha
    exact List.mem_append_right _ (List.mem_singleton_self _)

theorem ensureSentinel_characterIds (sentinel : CharacterSentinel × Text) :
    r.characterIds ⊆ (r.ensureSentinel sentinel).characterIds := by
  unfold ensureSentinel
  split
  · exact List.Subset.refl _
  · simp [characterIds]

theorem ensureSentinelCharacters_characterIds :
    r.characterIds ⊆ r.ensureSentinelCharacters.characterIds := by
  unfold ensureSentinelCharacters
  generalize sentinelDisplayNames = sentinels
  induction sentinels generalizing r with
  | nil => exact List.Subset.refl _
  | cons sentinel sentinels ih =>
    exact List.Subset.trans (ensureSentinel_characterIds r sentinel) (ih _)

theorem ensureSentinelCharacters_relationships :
    r.ensureSentinelCharacters.relationships = r.relationships := by
  have hone : ∀ (r : Registry) sentinel,
      (r.ensureSentinel sentinel).relationships = r.relationships := by
    intro r sentinel
    rw [ensureSentinel]
    split
    · rfl
    · rfl
  simp only [ensureSentinelCharacters, sentinelDisplayNames, List.foldl_cons, List.foldl_nil, hone]

theorem mem_characterIds_of_indexKnownCharacters {r : Registry} {scan : ScanOrder} {key : Text}
    {characterId : Id}
    (h : indexKnownCharacters u (r.loadKnownCharacters scan) key = some characterId) :
    characterId ∈ r.characterIds := by
  obtain ⟨entry, hfind, rfl⟩ := Option.map_eq_some_iff.mp h
  have hentry := List.mem_reverse.mp (List.mem_of_find?_eq_some hfind)
  obtain ⟨known, hknown, hname⟩ := List.mem_flatMap.mp hentry
  obtain ⟨name, -, rfl⟩ := List.mem_map.mp hname
  obtain ⟨c, hc, rfl⟩ := List.mem_map.mp hknown
  have hrow := List.mem_filter.mp ((List.mem_insertionSort _).mp (List.mem_of_mem_take hc))
  exact List.mem_map_of_mem ((scan.perm r.characters).mem_iff.mp hrow.1)

end Registry

/-! ## Characters of the Mentions -/

variable {ids : List (Text × Id)}

theorem characterOf_cons {key key' : Text} {characterId : Id} :
    characterOf ((key, characterId) :: ids) key' =
      if key = key' then some characterId else characterOf ids key' := by
  unfold characterOf
  by_cases h : key = key'
  · simp [h]
  · simp [h]

/-- What persisting mentions makes of them and of the registry. -/
structure Persisted (ms : List CharacterMention) (r : Registry) (ids : List (Text × Id))
    (r' : Registry) : Prop where
  /-- A mention that is resolved is the character that it is resolved to. -/
  resolved : ∀ m ∈ ms, ∀ characterId, m.resolvedCharacterId = some characterId →
    characterOf ids m.normalizedKey = some characterId
  /-- A mention that is not resolved is a character that was not there. -/
  new : ∀ m ∈ ms, m.resolvedCharacterId = none →
    ∃ characterId ∉ r.characterIds, characterOf ids m.normalizedKey = some characterId
  distinct : ∀ m ∈ ms, ∀ m' ∈ ms, m.resolvedCharacterId = none → m'.resolvedCharacterId = none →
    m.normalizedKey ≠ m'.normalizedKey →
    characterOf ids m.normalizedKey ≠ characterOf ids m'.normalizedKey
  grows : r.characterIds ⊆ r'.characterIds
  relationships : r'.relationships = r.relationships
  owned : r.AliasesOwned → r'.AliasesOwned

variable {r : Registry}

theorem persisted_persistMentions {ms : List CharacterMention} {r' : Registry}
    (hnodup : (ms.map CharacterMention.normalizedKey).Nodup)
    (h : Registry.persistMentions u ms r = .ok (ids, r')) : Persisted ms r ids r' := by
  induction ms generalizing r r' ids with
  | nil =>
    cases h
    exact ⟨by simp, by simp, by simp, List.Subset.refl _, rfl, id⟩
  | cons m ms ih =>
    rw [List.map_cons, List.nodup_cons] at hnodup
    have hkey : ∀ m' ∈ ms, m.normalizedKey ≠ m'.normalizedKey := fun m' hm' heq =>
      hnodup.1 (heq ▸ List.mem_map_of_mem hm')
    -- The rest is persisted after `m`.
    have hcons : ∀ {characterId r₁}, r.persistMention u m = .ok (characterId, r₁) →
        ∃ rest, ids = (m.normalizedKey, characterId) :: rest ∧ Persisted ms r₁ rest r' := by
      intro characterId r₁ hm
      rw [Registry.persistMentions_cons hm] at h
      split at h
      · next rest r'' hrest =>
        cases h
        exact ⟨rest, rfl, ih hnodup.2 hrest⟩
      · cases h
    cases hresolved : m.resolvedCharacterId with
    | some characterId =>
      obtain ⟨rest, rfl, hrest⟩ := hcons (Registry.persistMention_of_some hresolved)
      have hids := r.updateCharacterLastAppearance_characterIds characterId
      refine ⟨?_, ?_, ?_, hids ▸ hrest.grows, hrest.relationships, fun howned => ?_⟩
      · intro m' hm' characterId' hresolved'
        rcases List.mem_cons.mp hm' with rfl | hm'
        · rw [hresolved] at hresolved'
          cases hresolved'
          rw [characterOf_cons, if_pos rfl]
        · rw [characterOf_cons, if_neg (hkey m' hm')]
          exact hrest.resolved m' hm' characterId' hresolved'
      · intro m' hm' hnone
        rcases List.mem_cons.mp hm' with rfl | hm'
        · rw [hresolved] at hnone
          cases hnone
        · rw [characterOf_cons, if_neg (hkey m' hm'), ← hids]
          exact hrest.new m' hm' hnone
      · intro m₁ hm₁ m₂ hm₂ hnone₁ hnone₂ hne
        rcases List.mem_cons.mp hm₁ with rfl | hm₁
        · rw [hresolved] at hnone₁
          cases hnone₁
        rcases List.mem_cons.mp hm₂ with rfl | hm₂
        · rw [hresolved] at hnone₂
          cases hnone₂
        rw [characterOf_cons, if_neg (hkey m₁ hm₁), characterOf_cons, if_neg (hkey m₂ hm₂)]
        exact hrest.distinct m₁ hm₁ m₂ hm₂ hnone₁ hnone₂ hne
      · refine hrest.owned fun a ha => ?_
        rw [hids]
        exact howned a ha
    | none =>
      have hm := Registry.persistMention_of_none (u := u) (r := r) hresolved
      cases hregistered : r.isRegistered u m.surfaceForm with
      | true =>
        rw [hregistered, if_pos rfl] at hm
        simp only [Registry.persistMentions, hm, bind, Except.bind] at h
        cases h
      | false =>
        rw [hregistered, if_neg (by simp)] at hm
        obtain ⟨rest, rfl, hrest⟩ := hcons hm
        have hids := Registry.addCharacter_characterIds (u := u) m.surfaceForm r
        have hnew : r.newId ∈ (r.addCharacter u m.surfaceForm).characterIds := by
          rw [hids]
          exact List.mem_append_right _ (List.mem_singleton_self _)
        have hgrows : r.characterIds ⊆ (r.addCharacter u m.surfaceForm).characterIds := by
          rw [hids]
          exact List.subset_append_left _ _
        -- A later new character is none of the ones that are there, so not the one of `m`.
        have hlater : ∀ m' ∈ ms, m'.resolvedCharacterId = none →
            characterOf rest m'.normalizedKey ≠ some r.newId := by
          intro m' hm' hnone heq
          obtain ⟨characterId, hfresh, hcharacter⟩ := hrest.new m' hm' hnone
          rw [heq] at hcharacter
          cases hcharacter
          exact hfresh hnew
        refine ⟨?_, ?_, ?_, List.Subset.trans hgrows hrest.grows, hrest.relationships,
          fun howned => hrest.owned (howned.addCharacter _)⟩
        · intro m' hm' characterId' hresolved'
          rcases List.mem_cons.mp hm' with rfl | hm'
          · rw [hresolved] at hresolved'
            cases hresolved'
          · rw [characterOf_cons, if_neg (hkey m' hm')]
            exact hrest.resolved m' hm' characterId' hresolved'
        · intro m' hm' hnone
          rcases List.mem_cons.mp hm' with rfl | hm'
          · exact ⟨r.newId, r.newId_not_mem, by rw [characterOf_cons, if_pos rfl]⟩
          · rw [characterOf_cons, if_neg (hkey m' hm')]
            obtain ⟨characterId, hfresh, hcharacter⟩ := hrest.new m' hm' hnone
            exact ⟨characterId, fun hmem => hfresh (hgrows hmem), hcharacter⟩
        · intro m₁ hm₁ m₂ hm₂ hnone₁ hnone₂ hne
          rcases List.mem_cons.mp hm₁ with rfl | hmem₁
          · rcases List.mem_cons.mp hm₂ with rfl | hm₂
            · exact absurd rfl hne
            · rw [characterOf_cons, if_pos rfl, characterOf_cons, if_neg (hkey m₂ hm₂)]
              exact (hlater m₂ hm₂ hnone₂).symm
          · rcases List.mem_cons.mp hm₂ with rfl | hm₂
            · rw [characterOf_cons, if_neg (hkey m₁ hmem₁), characterOf_cons, if_pos rfl]
              exact hlater m₁ hmem₁ hnone₁
            · rw [characterOf_cons, if_neg (hkey m₁ hmem₁), characterOf_cons, if_neg (hkey m₂ hm₂)]
              exact hrest.distinct m₁ hmem₁ m₂ hm₂ hnone₁ hnone₂ hne

/-! ## Relationships of a Character with Itself -/

variable {c : StagedRelationship} {staged : List StagedRelationship}

theorem mem_byPair : c ∈ byPair staged ↔ c ∈ staged := by
  simp only [byPair, List.mem_flatMap, List.mem_eraseDups, List.mem_map, List.mem_filter,
    decide_eq_true_eq]
  constructor
  · rintro ⟨_, -, hc, -⟩
    exact hc
  · exact fun hc => ⟨c.pairKey, ⟨c, hc, rfl⟩, hc, rfl⟩

variable {storyBibleVersionId : Id}

theorem relationships_integrateRelationship :
    r.relationships ⊆ (r.integrateRelationship storyBibleVersionId c).relationships := by
  unfold integrateRelationship
  split
  · exact List.Subset.refl _
  · exact List.subset_append_left _ _

theorem noSelfRelationship_integrateRelationship (h : r.NoSelfRelationship) :
    (r.integrateRelationship storyBibleVersionId c).NoSelfRelationship ↔
      c.sourceCharacterId ≠ c.targetCharacterId := by
  unfold integrateRelationship
  split
  · next hrow =>
    refine ⟨fun _ heq => ?_, fun _ => h⟩
    obtain ⟨row, hmem, hrow⟩ := List.any_eq_true.mp hrow
    obtain ⟨-, hpair, -⟩ := of_decide_eq_true hrow
    refine h row hmem ?_
    rcases hpair with ⟨hsource, htarget⟩ | ⟨hsource, htarget⟩
    · rw [hsource, htarget, heq]
    · rw [hsource, htarget, heq]
  · constructor
    · exact fun hnew => hnew _ (List.mem_append_right _ (List.mem_singleton_self _))
    · intro hne row hrow
      rcases List.mem_append.mp hrow with hrow | hrow
      · exact h row hrow
      · obtain rfl := List.mem_singleton.mp hrow
        exact hne

theorem noSelfRelationship_integrateRelationships (h : r.NoSelfRelationship) :
    (r.integrateRelationships storyBibleVersionId staged).NoSelfRelationship ↔
      ∀ c ∈ staged, c.sourceCharacterId ≠ c.targetCharacterId := by
  have hsubset : ∀ (cs : List StagedRelationship) (r : Registry),
      r.relationships ⊆ (cs.foldl (integrateRelationship storyBibleVersionId) r).relationships := by
    intro cs
    induction cs with
    | nil => exact fun r => List.Subset.refl _
    | cons c cs ih => exact fun r => List.Subset.trans relationships_integrateRelationship (ih _)
  have hall : ∀ (cs : List StagedRelationship) (r : Registry), r.NoSelfRelationship →
      ((cs.foldl (integrateRelationship storyBibleVersionId) r).NoSelfRelationship ↔
        ∀ c ∈ cs, c.sourceCharacterId ≠ c.targetCharacterId) := by
    intro cs
    induction cs with
    | nil => exact fun r h => ⟨fun _ => by simp, fun _ => h⟩
    | cons c cs ih =>
      intro r h
      rw [List.foldl_cons, List.forall_mem_cons]
      have hstep : (r.integrateRelationship storyBibleVersionId c).NoSelfRelationship ↔ _ :=
        noSelfRelationship_integrateRelationship h
      constructor
      · intro hfinal
        -- Rows stay, so there was none after the first candidate.
        have hone := hstep.mp fun row hrow => hfinal row (hsubset cs _ hrow)
        exact ⟨hone, (ih _ (hstep.mpr hone)).mp hfinal⟩
      · rintro ⟨hone, hrest⟩
        exact (ih _ (hstep.mpr hone)).mpr hrest
  rw [integrateRelationships, hall _ r h]
  exact forall_congr' fun c => by rw [mem_byPair]

theorem aliasesOwned_integrateRelationships (h : r.AliasesOwned) :
    (r.integrateRelationships storyBibleVersionId staged).AliasesOwned := by
  unfold integrateRelationships
  generalize byPair staged = cs
  induction cs generalizing r with
  | nil => exact h
  | cons c cs ih =>
    refine ih ?_
    unfold integrateRelationship
    split
    · exact h
    · exact h

def presentKeys (u : PythonText) (chapter : AnalyzedChapter) (paragraphId : Id) : List Text :=
  ((detectNames u chapter.paragraphs).filter
    (isPresentIn (detectNames u chapter.paragraphs) paragraphId)).map NameCount.key

theorem presentKeys_sublist (chapter : AnalyzedChapter) (paragraphId : Id) :
    (presentKeys u chapter paragraphId).Sublist (nameKeys u chapter) :=
  List.filter_sublist.map _

variable {chapter : AnalyzedChapter}

theorem mem_detectRelationships {c : RelationshipCandidate} :
    c ∈ detectRelationships u chapter.paragraphs (r.mentionsOf u chapter) ↔
      ∃ paragraph ∈ chapter.paragraphs, ∃ source target rest,
        presentKeys u chapter paragraph.id = source :: target :: rest ∧
        ∃ relationshipType ∈ relationshipTypesOf u paragraph.text,
          c = ⟨source, target, relationshipType⟩ := by
  rw [detectRelationships, List.mem_eraseDups, List.mem_flatMap]
  refine exists_congr fun paragraph => and_congr_right fun _ => ?_
  have hkeys : (presentIn (r.mentionsOf u chapter) paragraph.id).map
      CharacterMention.normalizedKey = presentKeys u chapter paragraph.id :=
    map_presentIn_detectCharacters chapter.paragraphs _ paragraph.id
  rw [← hkeys, relationshipsIn]
  split
  · next source target rest hpresent =>
    rw [hpresent]
    simp only [List.mem_map, List.map_cons, List.cons.injEq]
    constructor
    · rintro ⟨relationshipType, hmem, rfl⟩
      exact ⟨_, _, _, ⟨rfl, rfl, rfl⟩, relationshipType, hmem, rfl⟩
    · rintro ⟨_, _, _, ⟨rfl, rfl, rfl⟩, relationshipType, hmem, rfl⟩
      exact ⟨relationshipType, hmem, rfl⟩
  · next hfew =>
    refine iff_of_false List.not_mem_nil ?_
    rintro ⟨source, target, rest, hpresent, -⟩
    -- Two keys are the keys of two mentions.
    match hmentions : presentIn (r.mentionsOf u chapter) paragraph.id with
    | m :: m' :: ms => exact hfew m m' ms hmentions
    | [m] => simp [hmentions] at hpresent
    | [] => simp [hmentions] at hpresent

/-! ## What a Chapter Records -/

/-- What the analysis of a chapter records about its names. -/
structure ChapterRecorded (u : PythonText) (chapter : AnalyzedChapter) (r : Registry)
    (record : ChapterRecord) (r' : Registry) : Prop where
  settled : ∀ key ∈ nameKeys u chapter, ∀ characterId,
    settledCharacter u chapter r key = some characterId →
    characterOf record.characterIds key = some characterId
  new : ∀ key ∈ nameKeys u chapter, settledCharacter u chapter r key = none →
    ∃ characterId ∉ r.characterIds, characterOf record.characterIds key = some characterId
  distinct : ∀ key ∈ nameKeys u chapter, ∀ key' ∈ nameKeys u chapter,
    settledCharacter u chapter r key = none → settledCharacter u chapter r key' = none →
    key ≠ key' → characterOf record.characterIds key ≠ characterOf record.characterIds key'
  noSelf : r.NoSelfRelationship → (r'.NoSelfRelationship ↔
    ∀ c ∈ record.stagedRelationships, c.sourceCharacterId ≠ c.targetCharacterId)
  staged : record.stagedRelationships = stageRelationships record.characterIds
    (detectRelationships u chapter.paragraphs (r.mentionsOf u chapter))
  owned : r.AliasesOwned → r'.AliasesOwned

theorem chapterRecorded_analyzeChapter {r' : Registry} {record : ChapterRecord}
    (h : r.analyzeChapter u chapter = (.ok record, r')) :
    ChapterRecorded u chapter r record r' := by
  have hview := map_settled_mentionsOf (u := u) chapter r
  have hnodup : ((r.mentionsOf u chapter).map CharacterMention.normalizedKey).Nodup := by
    rw [map_normalizedKey_of_settled hview]
    exact (countsOk_detectNames u chapter.paragraphs).nodup
  -- Every key is the one of a mention, which its settling character resolves.
  have hmention : ∀ key ∈ nameKeys u chapter, ∃ m ∈ r.mentionsOf u chapter,
      m.normalizedKey = key ∧ m.resolvedCharacterId = settledCharacter u chapter r key := by
    intro key hkey
    obtain ⟨n, hn, rfl⟩ := List.mem_map.mp hkey
    have hmem := List.mem_map_of_mem (f := fun n : NameCount =>
      (n.surfaceForm, n.key, settledCharacter u chapter r n.key)) hn
    rw [← hview] at hmem
    obtain ⟨m, hm, heq⟩ := List.mem_map.mp hmem
    simp only [CharacterMention.settled, Prod.mk.injEq] at heq
    exact ⟨m, hm, heq.2⟩
  rw [analyzeChapter] at h
  dsimp only at h
  split at h
  · simp at h
  · next ids r₁ hpersist =>
    simp only [Prod.mk.injEq, Except.ok.injEq] at h
    obtain ⟨rfl, rfl⟩ := h
    have hpersisted := persisted_persistMentions hnodup hpersist
    have hrelationships := hpersisted.relationships.trans r.ensureSentinelCharacters_relationships
    refine ⟨?_, ?_, ?_, fun hno => ?_, rfl, fun howned => ?_⟩
    · intro key hkey characterId hsettled
      obtain ⟨m, hm, rfl, hresolved⟩ := hmention key hkey
      exact hpersisted.resolved m hm characterId (hresolved.trans hsettled)
    · intro key hkey hsettled
      obtain ⟨m, hm, rfl, hresolved⟩ := hmention key hkey
      obtain ⟨characterId, hfresh, hcharacter⟩ :=
        hpersisted.new m hm (hresolved.trans hsettled)
      exact ⟨characterId, fun hmem => hfresh (r.ensureSentinelCharacters_characterIds hmem),
        hcharacter⟩
    · intro key hkey key' hkey' hsettled hsettled' hne
      obtain ⟨m, hm, rfl, hresolved⟩ := hmention key hkey
      obtain ⟨m', hm', rfl, hresolved'⟩ := hmention key' hkey'
      exact hpersisted.distinct m hm m' hm' (hresolved.trans hsettled)
        (hresolved'.trans hsettled') hne
    · refine noSelfRelationship_integrateRelationships fun row hrow => hno row ?_
      rwa [hrelationships] at hrow
    · refine aliasesOwned_integrateRelationships (hpersisted.owned fun a ha => ?_)
      rw [ensureSentinelCharacters_aliases] at ha
      exact r.ensureSentinelCharacters_characterIds (howned a ha)

theorem analyzeChapter_of_error {e : RegistryError} (h : (r.analyzeChapter u chapter).1 = .error e) :
    (r.analyzeChapter u chapter).2 = r.ensureSentinelCharacters := by
  rw [analyzeChapter] at h ⊢
  dsimp only at h ⊢
  split
  · rfl
  · next heq =>
    rw [heq] at h
    cases h

/-! ## Short Forms over Chapters -/

/-- What the analysis of a chapter should record about its short forms. -/
structure ShortFormsRecorded (u : PythonText) (chapter : AnalyzedChapter) (r : Registry)
    (record : ChapterRecord) : Prop where
  /-- A one-word name that is the first word of exactly one multi-word name is its character. -/
  linked : ∀ short ∈ nameKeys u chapter, ∀ long,
    longForms (nameKeys u chapter) short = [long] →
    ∃ characterId, characterOf record.characterIds short = some characterId ∧
      characterOf record.characterIds long = some characterId
  /-- A one-word name that is an alias is the character of the alias. -/
  known : ∀ short ∈ nameKeys u chapter, isMultiWord short = false → ∀ a ∈ r.aliases,
    normalizeKey u a.surfaceForm = short →
    characterOf record.characterIds short = some a.characterId

/-- A chapter that is not rejected records its short forms, and no relationship of a character
with itself is there. -/
structure ShortFormIdentity (u : PythonText) (chapter : AnalyzedChapter) (r : Registry) : Prop where
  recorded : ∀ record, (r.analyzeChapter u chapter).1 = .ok record →
    ShortFormsRecorded u chapter r record
  noSelf : (r.analyzeChapter u chapter).2.NoSelfRelationship

structure ShortFormsKnown (u : PythonText) (chapter : AnalyzedChapter) (r : Registry) : Prop where
  /-- The long form of a short form is a known name. -/
  linked : ∀ short ∈ nameKeys u chapter, ∀ long,
    longForms (nameKeys u chapter) short = [long] →
    (settledCharacter u chapter r short).isSome
  /-- A one-word name that is an alias is settled by a name of the character of the alias. -/
  known : ∀ short ∈ nameKeys u chapter, isMultiWord short = false → ∀ a ∈ r.aliases,
    normalizeKey u a.surfaceForm = short →
    settledCharacter u chapter r short = some a.characterId
  /-- Where a paragraph names a relationship, the first two names that are present are not settled
  by one character. -/
  distinct : ∀ paragraph ∈ chapter.paragraphs, relationshipTypesOf u paragraph.text ≠ [] →
    ∀ source target rest, presentKeys u chapter paragraph.id = source :: target :: rest →
    ∀ characterId, settledCharacter u chapter r source = some characterId →
      settledCharacter u chapter r target ≠ some characterId

theorem settlingKey_of_longForms {keys : List Text} {short long : Text}
    (h : longForms keys short = [long]) :
    settlingKey keys short = long ∧ settlingKey keys long = long := by
  have hmem : long ∈ longForms keys short := h ▸ List.mem_singleton_self long
  constructor
  · rw [settlingKey, isMultiWord_of_mem_longForms hmem, if_neg (by simp), h]
  · rw [settlingKey, (mem_longForms.mp hmem).2.1, if_pos rfl]

theorem mem_stageRelationships {candidates : List RelationshipCandidate} :
    c ∈ stageRelationships ids candidates ↔ ∃ candidate ∈ candidates,
      characterOf ids candidate.sourceKey = some c.sourceCharacterId ∧
      characterOf ids candidate.targetKey = some c.targetCharacterId ∧
      candidate.relationshipType = c.relationshipType := by
  rw [stageRelationships, List.mem_filterMap]
  refine exists_congr fun candidate => and_congr_right fun _ => ?_
  cases characterOf ids candidate.sourceKey with
  | none => simp
  | some source =>
    cases characterOf ids candidate.targetKey with
    | none => simp
    | some target =>
      obtain ⟨source', target', relationshipType⟩ := c
      simp

section chapter

variable {chapter : AnalyzedChapter} {r r' : Registry} {record : ChapterRecord}

theorem ChapterRecorded.staged_ne_iff (h : ChapterRecorded u chapter r record r') :
    (∀ c ∈ record.stagedRelationships, c.sourceCharacterId ≠ c.targetCharacterId) ↔
      ∀ paragraph ∈ chapter.paragraphs, relationshipTypesOf u paragraph.text ≠ [] →
        ∀ source target rest, presentKeys u chapter paragraph.id = source :: target :: rest →
        ∀ characterId, settledCharacter u chapter r source = some characterId →
          settledCharacter u chapter r target ≠ some characterId := by
  have hkeys : ∀ {paragraphId source target rest},
      presentKeys u chapter paragraphId = source :: target :: rest →
      source ∈ nameKeys u chapter ∧ target ∈ nameKeys u chapter ∧ source ≠ target := by
    intro paragraphId source target rest hpresent
    have hsublist := presentKeys_sublist (u := u) chapter paragraphId
    have hnodup := (countsOk_detectNames u chapter.paragraphs).nodup.sublist hsublist
    rw [hpresent] at hsublist hnodup
    refine ⟨hsublist.subset (by simp), hsublist.subset (by simp), ?_⟩
    rintro rfl
    simp at hnodup
  constructor
  · intro hne paragraph hparagraph htypes source target rest hpresent characterId hsource htarget
    obtain ⟨hsourceKey, htargetKey, -⟩ := hkeys hpresent
    obtain ⟨relationshipType, hmem⟩ := List.exists_mem_of_ne_nil _ htypes
    refine hne ⟨characterId, characterId, relationshipType⟩ ?_ rfl
    rw [h.staged, mem_stageRelationships]
    exact ⟨_, mem_detectRelationships.mpr ⟨paragraph, hparagraph, source, target, rest, hpresent,
      relationshipType, hmem, rfl⟩, h.settled _ hsourceKey _ hsource,
      h.settled _ htargetKey _ htarget, rfl⟩
  · intro hdistinct c hc heq
    rw [h.staged, mem_stageRelationships] at hc
    obtain ⟨candidate, hcandidate, hsource, htarget, -⟩ := hc
    obtain ⟨paragraph, hparagraph, source, target, rest, hpresent, relationshipType, hmem, rfl⟩ :=
      mem_detectRelationships.mp hcandidate
    obtain ⟨hsourceKey, htargetKey, hne⟩ := hkeys hpresent
    dsimp only at hsource htarget
    rw [← heq] at htarget
    -- A name that is settled is a character that was there, one that is not is a new one.
    have hnew : ∀ key ∈ nameKeys u chapter, settledCharacter u chapter r key = none →
        characterOf record.characterIds key = some c.sourceCharacterId →
        c.sourceCharacterId ∉ r.characterIds := by
      intro key hkey hsettled hcharacter
      obtain ⟨characterId, hfresh, hcharacter'⟩ := h.new key hkey hsettled
      rw [hcharacter] at hcharacter'
      cases hcharacter'
      exact hfresh
    have hold : ∀ key ∈ nameKeys u chapter, ∀ characterId,
        settledCharacter u chapter r key = some characterId →
        characterOf record.characterIds key = some c.sourceCharacterId →
        characterId = c.sourceCharacterId ∧ c.sourceCharacterId ∈ r.characterIds := by
      intro key hkey characterId hsettled hcharacter
      rw [h.settled key hkey characterId hsettled] at hcharacter
      cases hcharacter
      exact ⟨rfl, mem_characterIds_of_indexKnownCharacters hsettled⟩
    cases hsettled : settledCharacter u chapter r source with
    | some characterId =>
      obtain ⟨rfl, hthere⟩ := hold source hsourceKey characterId hsettled hsource
      cases hsettled' : settledCharacter u chapter r target with
      | some characterId' =>
        obtain ⟨rfl, -⟩ := hold target htargetKey characterId' hsettled' htarget
        exact hdistinct paragraph hparagraph (List.ne_nil_of_mem hmem) source target rest hpresent
          _ hsettled hsettled'
      | none => exact hnew target htargetKey hsettled' htarget hthere
    | none =>
      cases hsettled' : settledCharacter u chapter r target with
      | some characterId' =>
        exact hnew source hsourceKey hsettled hsource
          (hold target htargetKey characterId' hsettled' htarget).2
      | none =>
        exact h.distinct source hsourceKey target htargetKey hsettled hsettled' hne
          (hsource.trans htarget.symm)

theorem ChapterRecorded.linked_iff (h : ChapterRecorded u chapter r record r') {short long : Text}
    (hshort : short ∈ nameKeys u chapter) (hlong : longForms (nameKeys u chapter) short = [long]) :
    (∃ characterId, characterOf record.characterIds short = some characterId ∧
      characterOf record.characterIds long = some characterId) ↔
      (settledCharacter u chapter r short).isSome := by
  obtain ⟨hmem, hmulti, -⟩ := mem_longForms.mp (hlong ▸ List.mem_singleton_self long)
  obtain ⟨hsettling, hsettlingLong⟩ := settlingKey_of_longForms hlong
  have hsame : settledCharacter u chapter r long = settledCharacter u chapter r short := by
    rw [settledCharacter, settledCharacter, hsettling, hsettlingLong]
  cases hsettled : settledCharacter u chapter r short with
  | some characterId =>
    refine iff_of_true ⟨characterId, h.settled short hshort _ hsettled, ?_⟩ rfl
    exact h.settled long hmem _ (hsame.trans hsettled)
  | none =>
    refine iff_of_false ?_ (by simp)
    rintro ⟨characterId, hcharacter, hcharacter'⟩
    have hne : short ≠ long := by
      rintro rfl
      rw [isMultiWord_of_mem_longForms (hlong ▸ List.mem_singleton_self short)] at hmulti
      cases hmulti
    exact h.distinct short hshort long hmem hsettled (hsame.trans hsettled) hne
      (hcharacter.trans hcharacter'.symm)

theorem ChapterRecorded.characterOf_eq_iff (h : ChapterRecorded u chapter r record r') {key : Text}
    {characterId : Id} (hkey : key ∈ nameKeys u chapter) (hthere : characterId ∈ r.characterIds) :
    characterOf record.characterIds key = some characterId ↔
      settledCharacter u chapter r key = some characterId := by
  cases hsettled : settledCharacter u chapter r key with
  | some characterId' => rw [h.settled key hkey _ hsettled]
  | none =>
    obtain ⟨characterId', hfresh, hcharacter⟩ := h.new key hkey hsettled
    rw [hcharacter]
    refine iff_of_false ?_ (by simp)
    rintro ⟨⟩
    exact hfresh hthere

theorem shortFormIdentity_iff (hr : r.IsSound) :
    ShortFormIdentity u chapter r ↔ (NamesSettled u chapter r → ShortFormsKnown u chapter r) := by
  rw [← analyzeChapter_isOk_iff]
  cases hresult : (r.analyzeChapter u chapter).1 with
  | error e =>
    refine iff_of_true ⟨fun record hrecord => ?_, ?_⟩ fun hok => ?_
    · rw [hresult] at hrecord
      cases hrecord
    · rw [analyzeChapter_of_error hresult]
      intro row hrow
      rw [ensureSentinelCharacters_relationships] at hrow
      exact hr.noSelf row hrow
    · cases hok
  | ok record =>
    have h : ChapterRecorded u chapter r record (r.analyzeChapter u chapter).2 :=
      chapterRecorded_analyzeChapter (Prod.ext hresult rfl)
    have hdistinct := (h.noSelf hr.noSelf).trans h.staged_ne_iff
    constructor
    · intro hidentity _
      have hrecorded := hidentity.recorded record hresult
      refine ⟨fun short hshort long hlong => ?_, fun short hshort hsingle a ha hkey => ?_,
        hdistinct.mp hidentity.noSelf⟩
      · exact (h.linked_iff hshort hlong).mp (hrecorded.linked short hshort long hlong)
      · exact (h.characterOf_eq_iff hshort (hr.owned a ha)).mp
          (hrecorded.known short hshort hsingle a ha hkey)
    · intro hknown
      have hknown := hknown rfl
      refine ⟨fun record' hrecord' => ?_, hdistinct.mpr hknown.distinct⟩
      rw [hresult] at hrecord'
      cases hrecord'
      refine ⟨fun short hshort long hlong => ?_, fun short hshort hsingle a ha hkey => ?_⟩
      · exact (h.linked_iff hshort hlong).mpr (hknown.linked short hshort long hlong)
      · exact (h.characterOf_eq_iff hshort (hr.owned a ha)).mpr
          (hknown.known short hshort hsingle a ha hkey)

theorem Registry.IsSound.analyzeChapter (hr : r.IsSound)
    (h : (r.analyzeChapter u chapter).2.NoSelfRelationship) :
    (r.analyzeChapter u chapter).2.IsSound := by
  refine ⟨?_, h⟩
  cases hresult : (r.analyzeChapter u chapter).1 with
  | error e =>
    rw [analyzeChapter_of_error hresult]
    intro a ha
    rw [ensureSentinelCharacters_aliases] at ha
    exact r.ensureSentinelCharacters_characterIds (hr.owned a ha)
  | ok record =>
    exact (chapterRecorded_analyzeChapter (Prod.ext hresult rfl)).owned hr.owned

end chapter

/-- The short forms of a sequence of chapters keep their identity exactly when they are known in
every chapter that is not rejected. -/
theorem overChapters_shortFormIdentity_iff (u : PythonText) (chapters : List AnalyzedChapter)
    (r : Registry) (hr : r.IsSound) :
    OverChapters u (ShortFormIdentity u) chapters r ↔
      OverChapters u (fun chapter r => NamesSettled u chapter r → ShortFormsKnown u chapter r)
        chapters r := by
  induction chapters generalizing r with
  | nil => exact Iff.rfl
  | cons chapter chapters ih =>
    have hone : ShortFormIdentity u chapter r ↔ _ := shortFormIdentity_iff hr
    -- As long as identities are kept, the registry stays sound.
    constructor
    · rintro ⟨hidentity, hrest⟩
      exact ⟨hone.mp hidentity, (ih _ (hr.analyzeChapter hidentity.noSelf)).mp hrest⟩
    · rintro ⟨hknown, hrest⟩
      have hidentity := hone.mpr hknown
      exact ⟨hidentity, (ih _ (hr.analyzeChapter hidentity.noSelf)).mpr hrest⟩

/-- `Alice Carter ran. Alice sat. Alice ate.`, analysed with nobody known. -/
def fullNameChapter : AnalyzedChapter where
  paragraphs := [fullNameParagraph]
  storyBibleVersionId := 1

theorem overChapters_shortFormIdentity_fullName :
    OverChapters asciiText (ShortFormIdentity asciiText) [fullNameChapter] {} ↔
      OverChapters asciiText
        (fun chapter r => NamesSettled asciiText chapter r → ShortFormsKnown asciiText chapter r)
        [fullNameChapter] {} :=
  overChapters_shortFormIdentity_iff asciiText [fullNameChapter] {} isSound_empty

/-- It is not so that short forms keep their identity: Alice and Alice Carter, both new, become two
characters. -/
theorem not_forall_shortFormIdentity :
    ¬ ∀ (u : PythonText) (chapters : List AnalyzedChapter),
      OverChapters u (ShortFormIdentity u) chapters {} := by
  intro h
  obtain ⟨hidentity, -⟩ := h asciiText [fullNameChapter]
  have hlong : longForms (nameKeys asciiText fullNameChapter) "alice".toList =
      ["alice carter".toList] := by decide +kernel
  have hshort : "alice".toList ∈ nameKeys asciiText fullNameChapter := by decide +kernel
  have hids : (Registry.analyzeChapter asciiText fullNameChapter {}).1.toOption.map
      ChapterRecord.characterIds = some [("alice carter".toList, 5), ("alice".toList, 6)] := by
    decide +kernel
  cases hresult : (Registry.analyzeChapter asciiText fullNameChapter {}).1 with
  | error e =>
    rw [hresult] at hids
    cases hids
  | ok record =>
    rw [hresult] at hids
    obtain ⟨characterId, hcharacter, hcharacter'⟩ :=
      (hidentity.recorded record hresult).linked _ hshort _ hlong
    rw [Option.some.inj hids] at hcharacter hcharacter'
    have hfirst : characterOf [("alice carter".toList, 5), ("alice".toList, 6)] "alice".toList =
        some 6 := by decide +kernel
    have hsecond : characterOf [("alice carter".toList, 5), ("alice".toList, 6)]
        "alice carter".toList = some 5 := by decide +kernel
    rw [hfirst] at hcharacter
    rw [hsecond, ← hcharacter] at hcharacter'
    cases hcharacter'

end AudioBook
