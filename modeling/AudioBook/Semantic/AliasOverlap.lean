import AudioBook.Semantic.Linking

/-!
# Aliases That Overlap

A name that analysis takes for a new character gets an alias that is valid everywhere, which the
database rejects when the spelling has one already. A known spelling can look new: linking replaces
the character of a short form by the one of its long form, which is nobody when the long form is
new; and only the characters with the most lines are loaded.

Main results:

- `overChapters_isOk_iff_namesSettled`: exactly then no chapter of a sequence is rejected.
-/

namespace AudioBook

variable {u : PythonText}

/-! ## Inserting Aliases -/

/-- The spelling has an alias that is valid in every chapter for somewhere. -/
def Registry.isRegistered (u : PythonText) (r : Registry) (surfaceForm : Text) : Bool :=
  r.aliases.any fun a =>
    decide (a.surfaceFormNormalized = normalizeSurface u surfaceForm ∧ a.scope = .global) &&
      a.isValidSomewhere

theorem excludes_extractedAlias (a : CharacterAlias) (characterId : Id) (surfaceForm : Text) :
    a.excludes (extractedAlias u characterId surfaceForm) =
      (decide (a.surfaceFormNormalized = normalizeSurface u surfaceForm ∧ a.scope = .global) &&
        a.isValidSomewhere) := by
  have hbelow : ∀ low, below low none = true := fun low => by cases low <;> rfl
  have hbelow' : ∀ high, below none high = true := fun _ => rfl
  simp only [CharacterAlias.excludes, CharacterAlias.overlaps, CharacterAlias.isValidSomewhere,
    extractedAlias, hbelow, hbelow', Bool.and_true]
  rfl

variable {r : Registry}

theorem Registry.createAlias_eq {characterId : Id} {surfaceForm : Text} :
    r.createAlias u characterId surfaceForm =
      if r.isRegistered u surfaceForm then .error .aliasOverlap
      else .ok { r with aliases := r.aliases ++ [extractedAlias u characterId surfaceForm] } := by
  simp only [createAlias, isRegistered, excludes_extractedAlias]
  rfl

/-- The registry after the character and the alias of a new name. -/
def Registry.addCharacter (u : PythonText) (r : Registry) (surfaceForm : Text) : Registry :=
  { r with
    characters := r.characters ++ [{ id := r.newId, displayName := surfaceForm }]
    aliases := r.aliases ++ [extractedAlias u r.newId surfaceForm] }

theorem isRegistered_addCharacter {surfaceForm surfaceForm' : Text}
    (hkey : normalizeKey u surfaceForm ≠ normalizeKey u surfaceForm') :
    (r.addCharacter u surfaceForm).isRegistered u surfaceForm' = r.isRegistered u surfaceForm' := by
  have hne : normalizeSurface u surfaceForm ≠ normalizeSurface u surfaceForm' := fun heq =>
    hkey (congrArg (collapseWhitespace false) heq)
  simp [Registry.isRegistered, Registry.addCharacter, extractedAlias, hne]

variable {m : CharacterMention}

theorem Registry.persistMention_of_some {characterId : Id}
    (h : m.resolvedCharacterId = some characterId) :
    r.persistMention u m = .ok (characterId, r.updateCharacterLastAppearance characterId) := by
  rw [persistMention, h]
  rfl

theorem Registry.persistMention_of_none (h : m.resolvedCharacterId = none) :
    r.persistMention u m = if r.isRegistered u m.surfaceForm then .error .aliasOverlap
      else .ok (r.newId, r.addCharacter u m.surfaceForm) := by
  rw [persistMention, h]
  dsimp only
  rw [createAlias_eq]
  show (if r.isRegistered u m.surfaceForm then _ else _) >>= _ = _
  split
  · rfl
  · rfl

theorem Registry.persistMentions_cons {ms : List CharacterMention} {r' : Registry}
    {characterId : Id} (h : r.persistMention u m = .ok (characterId, r')) :
    persistMentions u (m :: ms) r = match persistMentions u ms r' with
      | .ok (ids, r'') => .ok ((m.normalizedKey, characterId) :: ids, r'')
      | .error e => .error e := by
  simp only [persistMentions, h, bind, Except.bind, pure, Except.pure]
  split
  · next heq => rw [heq]
  · next heq => rw [heq]

theorem persistMentions_isOk_iff {ms : List CharacterMention}
    (hnodup : (ms.map CharacterMention.normalizedKey).Nodup)
    (hkey : ∀ m ∈ ms, m.normalizedKey = normalizeKey u m.surfaceForm) :
    (Registry.persistMentions u ms r).isOk = true ↔
      ∀ m ∈ ms, m.resolvedCharacterId = none → r.isRegistered u m.surfaceForm = false := by
  induction ms generalizing r with
  | nil => exact ⟨fun _ => by simp, fun _ => rfl⟩
  | cons m ms ih =>
    rw [List.map_cons, List.nodup_cons] at hnodup
    have hrest : ∀ r : Registry, (Registry.persistMentions u ms r).isOk = true ↔
        ∀ m ∈ ms, m.resolvedCharacterId = none → r.isRegistered u m.surfaceForm = false := fun r =>
      ih hnodup.2 fun m' hm' => hkey m' (List.mem_cons_of_mem _ hm')
    -- Once the first mention is persisted, the others decide.
    have hcons : ∀ characterId r', r.persistMention u m = .ok (characterId, r') →
        ((Registry.persistMentions u (m :: ms) r).isOk = true ↔
          (Registry.persistMentions u ms r').isOk = true) := by
      intro characterId r' hm
      rw [Registry.persistMentions_cons hm]
      cases Registry.persistMentions u ms r' <;> rfl
    rw [List.forall_mem_cons]
    cases hresolved : m.resolvedCharacterId with
    | some characterId =>
      rw [hcons _ _ (Registry.persistMention_of_some hresolved), hrest]
      simp only [reduceCtorEq, false_implies, true_and]
      rfl
    | none =>
      have hm := Registry.persistMention_of_none (u := u) (r := r) hresolved
      cases hregistered : r.isRegistered u m.surfaceForm with
      | true =>
        rw [hregistered, if_pos rfl] at hm
        have herror : Registry.persistMentions u (m :: ms) r = .error .aliasOverlap := by
          simp only [Registry.persistMentions, hm, bind, Except.bind]
        rw [herror]
        simp [Except.isOk, Except.toBool]
      | false =>
        rw [hregistered, if_neg (by simp)] at hm
        rw [hcons _ _ hm, hrest]
        simp only [true_implies, true_and]
        refine forall₂_congr fun m' hm' => ?_
        rw [isRegistered_addCharacter]
        -- The names of a chapter have distinct keys.
        rw [← hkey m List.mem_cons_self, ← hkey m' (List.mem_cons_of_mem _ hm')]
        rintro heq
        exact hnodup.1 (heq ▸ List.mem_map_of_mem hm')

/-! ## Chapters -/

/-- A property of every chapter of a sequence, in the registry that its analysis meets. -/
def OverChapters (u : PythonText) (P : AnalyzedChapter → Registry → Prop) :
    List AnalyzedChapter → Registry → Prop
  | [], _ => True
  | chapter :: chapters, r =>
      P chapter r ∧ OverChapters u P chapters (r.analyzeChapter u chapter).2

theorem overChapters_congr {P Q : AnalyzedChapter → Registry → Prop}
    (h : ∀ chapter r, P chapter r ↔ Q chapter r) (chapters : List AnalyzedChapter) (r : Registry) :
    OverChapters u P chapters r ↔ OverChapters u Q chapters r := by
  induction chapters generalizing r with
  | nil => rfl
  | cons chapter chapters ih => exact and_congr (h chapter r) (ih _)

def nameKeys (u : PythonText) (chapter : AnalyzedChapter) : List Text :=
  (detectNames u chapter.paragraphs).map NameCount.key

/-- The known character that settles a name of a chapter: the one of its long form, or its own. -/
def settledCharacter (u : PythonText) (chapter : AnalyzedChapter) (r : Registry) (key : Text) :
    Option Id :=
  indexKnownCharacters u (r.loadKnownCharacters chapter.scan)
    (settlingKey (nameKeys u chapter) key)

/-- Every name of the chapter whose spelling is registered is settled by a known name. -/
def NamesSettled (u : PythonText) (chapter : AnalyzedChapter) (r : Registry) : Prop :=
  ∀ n ∈ detectNames u chapter.paragraphs, r.isRegistered u n.surfaceForm = true →
    (settledCharacter u chapter r n.key).isSome

theorem map_settled_mentionsOf (chapter : AnalyzedChapter) (r : Registry) :
    (r.mentionsOf u chapter).map CharacterMention.settled
      = (detectNames u chapter.paragraphs).map fun n =>
          (n.surfaceForm, n.key, settledCharacter u chapter r n.key) :=
  map_settled_detectCharacters chapter.paragraphs

theorem ensureSentinelCharacters_aliases (r : Registry) :
    r.ensureSentinelCharacters.aliases = r.aliases := by
  have hone : ∀ (r : Registry) sentinel, (r.ensureSentinel sentinel).aliases = r.aliases := by
    intro r sentinel
    rw [Registry.ensureSentinel]
    split
    · rfl
    · rfl
  simp only [Registry.ensureSentinelCharacters, Registry.sentinelDisplayNames, List.foldl_cons,
    List.foldl_nil, hone]

theorem analyzeChapter_isOk_iff (chapter : AnalyzedChapter) (r : Registry) :
    (r.analyzeChapter u chapter).1.isOk = true ↔ NamesSettled u chapter r := by
  have hcounts := countsOk_detectNames u chapter.paragraphs
  have hsettled := map_settled_mentionsOf (u := u) chapter r
  have hok : (r.analyzeChapter u chapter).1.isOk =
      (Registry.persistMentions u (r.mentionsOf u chapter) r.ensureSentinelCharacters).isOk := by
    rw [Registry.analyzeChapter]
    dsimp only
    split
    · next heq => rw [heq]; rfl
    · next heq => rw [heq]; rfl
  rw [hok, persistMentions_isOk_iff]
  · -- Read every mention as the name that it is of.
    have hmem : ∀ Q : Text × Text × Option Id → Prop,
        (∀ m ∈ r.mentionsOf u chapter, Q m.settled) ↔
          ∀ n ∈ detectNames u chapter.paragraphs,
            Q (n.surfaceForm, n.key, settledCharacter u chapter r n.key) := by
      intro Q
      rw [← List.forall_mem_map (f := CharacterMention.settled), hsettled, List.forall_mem_map]
    refine (hmem fun t => t.2.2 = none →
      r.ensureSentinelCharacters.isRegistered u t.1 = false).trans ?_
    refine forall₂_congr fun n _ => ?_
    have hregistered : r.ensureSentinelCharacters.isRegistered u n.surfaceForm =
        r.isRegistered u n.surfaceForm := by
      rw [Registry.isRegistered, Registry.isRegistered, ensureSentinelCharacters_aliases]
    rw [hregistered]
    show (settledCharacter u chapter r n.key = none → _ = false) ↔ _
    cases settledCharacter u chapter r n.key <;> cases r.isRegistered u n.surfaceForm <;> simp
  · rw [map_normalizedKey_of_settled hsettled]
    exact hcounts.nodup
  · intro m hm
    have hview : m.settled ∈ (r.mentionsOf u chapter).map CharacterMention.settled :=
      List.mem_map_of_mem hm
    rw [hsettled, List.mem_map] at hview
    obtain ⟨n, hn, heq⟩ := hview
    simp only [CharacterMention.settled, Prod.mk.injEq] at heq
    rw [← heq.1, ← heq.2.1]
    exact hcounts.key n hn

/-- No chapter of a sequence is rejected for an alias exactly when, in every chapter, the names
whose spellings are registered are settled by known names. -/
theorem overChapters_isOk_iff_namesSettled (u : PythonText) (chapters : List AnalyzedChapter)
    (r : Registry) :
    OverChapters u (fun chapter r => (r.analyzeChapter u chapter).1.isOk = true) chapters r ↔
      OverChapters u (NamesSettled u) chapters r :=
  overChapters_congr analyzeChapter_isOk_iff chapters r

/-! ## A First Name and a Full Name -/

/-- `Alice ran. Alice sat.` -/
def firstNameParagraph : ParagraphInput where
  id := 1
  text := ['A', 'l', 'i', 'c', 'e', ' ', 'r', 'a', 'n', '.', ' ', 'A', 'l', 'i', 'c', 'e', ' ', 's',
    'a', 't', '.']

/-- `Alice Carter ran. Alice sat. Alice ate.` -/
def fullNameParagraph : ParagraphInput where
  id := 2
  text := ['A', 'l', 'i', 'c', 'e', ' ', 'C', 'a', 'r', 't', 'e', 'r', ' ', 'r', 'a', 'n', '.', ' ',
    'A', 'l', 'i', 'c', 'e', ' ', 's', 'a', 't', '.', ' ', 'A', 'l', 'i', 'c', 'e', ' ', 'a', 't',
    'e', '.']

/-- It is not so that no chapter is rejected: the first chapter calls her Alice, the second one
Alice Carter and Alice. -/
theorem not_forall_overChapters_isOk :
    ¬ ∀ (u : PythonText) (chapters : List AnalyzedChapter),
      OverChapters u (fun chapter r => (r.analyzeChapter u chapter).1.isOk = true) chapters {} := by
  intro h
  obtain ⟨-, hsecond, -⟩ := h asciiText [⟨[firstNameParagraph], 1, .inserted⟩,
    ⟨[fullNameParagraph], 1, .inserted⟩]
  have hrejected : ((Registry.analyzeChapter asciiText ⟨[fullNameParagraph], 1, .inserted⟩
      (Registry.analyzeChapter asciiText ⟨[firstNameParagraph], 1, .inserted⟩ {}).2).1).isOk
        = false := by decide +kernel
  rw [hrejected] at hsecond
  cases hsecond

end AudioBook
