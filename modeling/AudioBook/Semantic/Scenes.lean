import AudioBook.Semantic.Deterministic
import Mathlib.Data.Rat.Defs

/-!
# Scenes

`_detect_scenes` of the deterministic analyzer: the paragraphs of a chapter are grouped between the
lines that break a scene, and every group becomes a scene. A chapter of breaks only is one scene.

Main results:

- `Groups.flatten_foldl_step`: the groups hold the elements that are no breaks, in order.
- `detectScenes_partition`: the scenes partition the chapter.
-/

namespace AudioBook

/-! ## Lines That Break a Scene -/

/-- `$`: the end of the text, or a newline before it. -/
def Cursor.endsText (c : Cursor) : Bool := decide (c.rest = [] ∨ c.rest = ['\n'])

namespace Pattern

/-- `p{n,}`. -/
def atLeast (n : ℕ) (p : Pattern) : Pattern := seqAll (List.replicate n p ++ [star p])

/-- `re.match(rf"^{p}$", text)`. -/
def matchesToEnd (p : Pattern) (text : Text) : Bool :=
  (p.matchesFrom { cursor := { rest := text } }).any fun m => m.cursor.endsText

end Pattern

/-- The alternatives of `_SCENE_BREAK_RE`, less their ends. -/
def sceneBreakRe : Pattern :=
  .altAll
    (.seqAll [.star space,
      .atLeast 3 (.seq (.chars fun c => decide (c = '*')) (.star space)), .star space]) [
    .seqAll [.star space, .atLeast 3 (.chars fun c => decide (c = '-')), .star space],
    .seqAll [.star space, .plus (.chars fun c => decide (c = '#')), .star space]]

/-- `_SCENE_BREAK_RE.match(text)`. -/
def isSceneBreak (text : Text) : Bool := sceneBreakRe.matchesToEnd text

example : (["* * *", " --- ", "#", "***\n"].map String.toList).map isSceneBreak =
    [true, true, true, true] := by decide

example : (["", "**", "-- -", "# One"].map String.toList).map isSceneBreak =
    [false, false, false, false] := by decide

/-! ## Groups -/

/-- `groups` of the loop: the groups behind the scan, and the last one, which may be empty. -/
structure Groups (α : Type) where
  closed : List (List α) := []
  last : List α := []

namespace Groups

variable {α : Type} (isBreak : α → Bool)

def toList (groups : Groups α) : List (List α) := groups.closed ++ [groups.last]

/-- The body of the loop: a break closes the last group, unless it is empty. -/
def step (groups : Groups α) (x : α) : Groups α :=
  if isBreak x then
    if groups.last.isEmpty then groups else ⟨groups.closed ++ [groups.last], []⟩
  else { groups with last := groups.last ++ [x] }

theorem flatten_step (groups : Groups α) (x : α) :
    (groups.step isBreak x).toList.flatten =
      groups.toList.flatten ++ if isBreak x then [] else [x] := by
  unfold step
  split_ifs with hbreak hempty
  · rw [List.append_nil]
  · simp [toList]
  · simp [toList]

theorem flatten_foldl_step (groups : Groups α) (xs : List α) :
    (xs.foldl (step isBreak) groups).toList.flatten =
      groups.toList.flatten ++ xs.filter fun x => !isBreak x := by
  induction xs generalizing groups with
  | nil => simp
  | cons x xs ih =>
    rw [List.foldl_cons, ih, flatten_step, List.append_assoc]
    congr 1
    cases hx : isBreak x <;> simp [hx]

/-- `[g for g in groups if g]`. -/
def between (xs : List α) : List (List α) :=
  (xs.foldl (step isBreak) {}).toList.filter fun g => !g.isEmpty

variable {isBreak}

theorem flatten_between (xs : List α) :
    (between isBreak xs).flatten = xs.filter fun x => !isBreak x := by
  rw [between, List.flatten_filter_not_isEmpty, flatten_foldl_step]
  rfl

theorem ne_nil_of_mem_between {xs g : List α} (h : g ∈ between isBreak xs) : g ≠ [] := by
  simpa using (List.mem_filter.mp h).2

theorem between_eq_nil_iff {xs : List α} : between isBreak xs = [] ↔ xs.all isBreak = true := by
  have hall : (xs.filter fun x => !isBreak x) = [] ↔ xs.all isBreak = true := by
    simp [List.filter_eq_nil_iff]
  rw [← hall, ← flatten_between]
  constructor
  · intro h
    rw [h, List.flatten_nil]
  · intro h
    rw [List.flatten_eq_nil_iff] at h
    exact List.eq_nil_iff_forall_not_mem.mpr fun g hg => ne_nil_of_mem_between hg (h g hg)

end Groups

/-! ## Locations -/

def locationNouns : List Text :=
  ["house", "forest", "castle", "city", "room", "garden", "street", "village", "kitchen", "hall",
    "tower", "road", "river", "mountain", "cottage", "office", "school", "manor", "inn", "harbor",
    "harbour", "square", "market", "bridge", "church", "palace", "camp", "cabin", "library",
    "chapel", "farm"].map String.toList

/-- The order in which Python meets the elements of the set of nouns. -/
structure NounOrder where
  nouns : List Text
  perm : nouns.Perm locationNouns

/-- `text.split(" ")[-1]`. -/
def lastWord (text : Text) : Text := (text.reverse.takeWhile fun c => decide (c ≠ ' ')).reverse

/-- What a lower case letter of ASCII matches with `re.IGNORECASE`. -/
def ignoringCase (c : Char) : Pattern :=
  .chars fun x => decide (x = c ∨ x = c.toUpper ∨ (c = 'i' ∧ x ∈ ['İ', 'ı']) ∨
    (c = 's' ∧ x = 'ſ') ∨ (c = 'k' ∧ x = '\u212a'))

/-- `re.search(rf"\bthe {noun}\b", text, re.IGNORECASE)`. -/
def mentionsNoun (u : PythonText) (text : Text) (noun : Text) : Bool :=
  (Pattern.seqAll [.boundary u.isWord,
    .seqAll (("the ".toList ++ noun).map ignoringCase), .boundary u.isWord]).search none text

def firstLocationMention (u : PythonText) (order : NounOrder) (text : Text) : Option Text :=
  (((nameRunRe u).finditer text).find? fun surface =>
      decide (u.lower (lastWord surface) ∈ locationNouns)) <|>
    order.nouns.find? (mentionsNoun u text)

/-! ## Scenes -/

/-- `SceneBoundary`, less the fields that this analyzer leaves empty. -/
structure SceneBoundary where
  orderIndex : ℕ
  startParagraphId : Id
  endParagraphId : Id
  paragraphIds : List Id
  locationName : Option Text
  participantKeys : List Text
  povCharacterKey : Option Text
  confidence : ℚ

/-- `" ".join(texts)`. -/
def joinBlank (texts : List Text) : Text := (texts.intersperse [' ']).flatten

def sceneGroups (paragraphs : List ParagraphInput) : List (List ParagraphInput) :=
  if Groups.between (fun p => isSceneBreak p.text) paragraphs = [] then [paragraphs]
  else Groups.between (fun p => isSceneBreak p.text) paragraphs

def presentInAny (candidates : List CharacterMention) (paragraphIds : List Id) :
    List CharacterMention :=
  candidates.filter fun m => paragraphIds.any fun pid => decide (pid ∈ m.evidenceParagraphIds)

/-- The scene of a group, unless one of its ends is missing. -/
def sceneOf (u : PythonText) (order : NounOrder) (candidates : List CharacterMention)
    (groupCount : ℕ) (orderIndex : ℕ) (group : List ParagraphInput) : Option SceneBoundary := do
  let paragraphIds := group.map ParagraphInput.id
  let present := presentInAny candidates paragraphIds
  let keys := present.map CharacterMention.normalizedKey
  let speaker := (present.find? CharacterMention.isSpeaker).map CharacterMention.normalizedKey
  let start ← paragraphIds.head?
  let stop ← paragraphIds.getLast?
  pure {
    orderIndex
    startParagraphId := start
    endParagraphId := stop
    paragraphIds
    locationName := firstLocationMention u order (joinBlank (group.map ParagraphInput.text))
    participantKeys := keys
    -- an empty key is as good as none
    povCharacterKey := speaker.filter (fun key => decide (key ≠ [])) <|> keys.head?
    confidence := if 1 < groupCount then 1 / 2 else 2 / 5 }

def detectScenes (u : PythonText) (order : NounOrder) (paragraphs : List ParagraphInput)
    (candidates : List CharacterMention) : Option (List SceneBoundary) :=
  if paragraphs.isEmpty then some []
  else
    let groups := sceneGroups paragraphs
    groups.zipIdx.mapM fun g => sceneOf u order candidates groups.length g.2 g.1

/-! ## The Partition -/

/-- The paragraphs that a scene is due: those that are no breaks, or all where every one is. -/
def scenicParagraphs (paragraphs : List ParagraphInput) : List ParagraphInput :=
  if paragraphs.all fun p => isSceneBreak p.text then paragraphs
  else paragraphs.filter fun p => !isSceneBreak p.text

/-- What the scenes of a chapter are together. -/
structure ScenePartition (paragraphs : List ParagraphInput) (candidates : List CharacterMention)
    (scenes : List SceneBoundary) : Prop where
  orderIndices : scenes.map SceneBoundary.orderIndex = List.range scenes.length
  paragraphIds : scenes.flatMap SceneBoundary.paragraphIds =
    (scenicParagraphs paragraphs).map ParagraphInput.id
  nodup : (scenes.flatMap SceneBoundary.paragraphIds).Nodup
  /-- A scene starts with its first paragraph. -/
  starts : ∀ scene ∈ scenes, scene.paragraphIds.head? = some scene.startParagraphId
  ends : ∀ scene ∈ scenes, scene.paragraphIds.getLast? = some scene.endParagraphId
  /-- Its participants are the candidates with evidence in it. -/
  participants : ∀ scene ∈ scenes, ∀ key, key ∈ scene.participantKeys ↔
    ∃ m ∈ candidates, m.normalizedKey = key ∧
      ∃ pid ∈ scene.paragraphIds, pid ∈ m.evidenceParagraphIds
  /-- They are listed in the order of the candidates, each once. -/
  participantOrder : ∀ scene ∈ scenes,
    scene.participantKeys.Sublist (candidates.map CharacterMention.normalizedKey)

variable {u : PythonText} {order : NounOrder} {candidates : List CharacterMention}

theorem ne_nil_of_mem_sceneGroups {paragraphs group : List ParagraphInput} (hne : paragraphs ≠ [])
    (h : group ∈ sceneGroups paragraphs) : group ≠ [] := by
  unfold sceneGroups at h
  split_ifs at h
  · rw [List.mem_singleton] at h
    rwa [h]
  · exact Groups.ne_nil_of_mem_between h

theorem flatten_sceneGroups (paragraphs : List ParagraphInput) :
    (sceneGroups paragraphs).flatten = scenicParagraphs paragraphs := by
  unfold sceneGroups scenicParagraphs
  simp only [Groups.between_eq_nil_iff]
  split_ifs
  · exact List.flatten_singleton
  · exact Groups.flatten_between paragraphs

theorem mem_map_presentInAny {paragraphIds : List Id} {key : Text} :
    key ∈ (presentInAny candidates paragraphIds).map CharacterMention.normalizedKey ↔
      ∃ m ∈ candidates, m.normalizedKey = key ∧
        ∃ pid ∈ paragraphIds, pid ∈ m.evidenceParagraphIds := by
  simp only [presentInAny, List.mem_map, List.mem_filter, List.any_eq_true, decide_eq_true_eq]
  constructor
  · rintro ⟨m, ⟨hm, hevidence⟩, hkey⟩
    exact ⟨m, hm, hkey, hevidence⟩
  · rintro ⟨m, hm, hkey, hevidence⟩
    exact ⟨m, ⟨hm, hevidence⟩, hkey⟩

variable (u order candidates) in
theorem sceneOf_spec (groupCount orderIndex : ℕ) {group : List ParagraphInput} (hne : group ≠ []) :
    ∃ scene, sceneOf u order candidates groupCount orderIndex group = some scene ∧
      scene.orderIndex = orderIndex ∧ scene.paragraphIds = group.map ParagraphInput.id ∧
      scene.paragraphIds.head? = some scene.startParagraphId ∧
      scene.paragraphIds.getLast? = some scene.endParagraphId ∧
      scene.participantKeys =
        (presentInAny candidates scene.paragraphIds).map CharacterMention.normalizedKey := by
  have hids : group.map ParagraphInput.id ≠ [] := by simpa using hne
  have hhead := List.head?_eq_some_head hids
  have hlast := List.getLast?_eq_some_getLast hids
  refine ⟨_, by rw [sceneOf, hhead, hlast]; rfl, rfl, rfl, hhead, hlast, rfl⟩

variable (u order candidates) in
theorem exists_mapM_sceneOf (groupCount : ℕ) {groups : List (List ParagraphInput)}
    (hne : ∀ g ∈ groups, g ≠ []) (n : ℕ) :
    ∃ scenes, (groups.zipIdx n).mapM (fun g => sceneOf u order candidates groupCount g.2 g.1) =
        some scenes ∧
      scenes.map SceneBoundary.orderIndex = List.range' n scenes.length ∧
      scenes.flatMap SceneBoundary.paragraphIds = groups.flatten.map ParagraphInput.id ∧
      ∀ scene ∈ scenes, scene.paragraphIds.head? = some scene.startParagraphId ∧
        scene.paragraphIds.getLast? = some scene.endParagraphId ∧
        scene.participantKeys =
          (presentInAny candidates scene.paragraphIds).map CharacterMention.normalizedKey := by
  -- on the groups, for every number that the first of them may have
  induction groups generalizing n with
  | nil => exact ⟨[], rfl, rfl, rfl, by simp⟩
  | cons g groups ih =>
    obtain ⟨scene, hscene, hindex, hids, hspec⟩ :=
      sceneOf_spec u order candidates groupCount n (hne g (List.mem_cons_self ..))
    obtain ⟨scenes, hscenes, hindices, hflat, hspecs⟩ :=
      ih (fun g' hg' => hne g' (List.mem_cons_of_mem _ hg')) (n + 1)
    refine ⟨scene :: scenes, ?_, ?_, ?_, List.forall_mem_cons.mpr ⟨hspec, hspecs⟩⟩
    · simp [List.zipIdx_cons, List.mapM_cons, hscene, hscenes]
    · rw [List.map_cons, hindex, hindices, List.length_cons, List.range'_succ]
    · rw [List.flatMap_cons, hids, hflat, List.flatten_cons, List.map_append]

/-- The scenes of a chapter partition it. -/
theorem detectScenes_partition (u : PythonText) (order : NounOrder)
    (paragraphs : List ParagraphInput) (candidates : List CharacterMention)
    (hdistinct : (paragraphs.map ParagraphInput.id).Nodup) :
    ∃ scenes, detectScenes u order paragraphs candidates = some scenes ∧
      ScenePartition paragraphs candidates scenes := by
  unfold detectScenes
  split_ifs with hempty
  · rw [List.isEmpty_iff] at hempty
    subst hempty
    exact ⟨[], rfl, rfl, rfl, List.nodup_nil, by simp, by simp, by simp, by simp⟩
  · have hne : paragraphs ≠ [] := by simpa using hempty
    obtain ⟨scenes, hscenes, hindices, hids, hspec⟩ := exists_mapM_sceneOf u order candidates
      (sceneGroups paragraphs).length (fun g hg => ne_nil_of_mem_sceneGroups hne hg) 0
    rw [flatten_sceneGroups] at hids
    -- each paragraph is there once, since the scenes hold a sublist of the chapter
    have hsublist : (scenicParagraphs paragraphs).Sublist paragraphs := by
      unfold scenicParagraphs
      split_ifs
      · exact .refl _
      · exact List.filter_sublist
    refine ⟨scenes, hscenes, ?_⟩
    exact {
      orderIndices := by rw [hindices, List.range_eq_range']
      paragraphIds := hids
      nodup := hids ▸ hdistinct.sublist (hsublist.map _)
      starts := fun scene h => (hspec scene h).1
      ends := fun scene h => (hspec scene h).2.1
      participants := fun scene h key => by
        rw [(hspec scene h).2.2]
        exact mem_map_presentInAny
      participantOrder := fun scene h => by
        rw [(hspec scene h).2.2]
        exact List.filter_sublist.map _ }

/-- Two scenes, with a break before, between and after them. -/
def brokenChapter : List ParagraphInput :=
  [⟨1, "* * *".toList⟩, ⟨2, "Alice Carter waited.".toList⟩, ⟨3, "---".toList⟩, ⟨4, "#".toList⟩,
    ⟨5, "In the castle it rained.".toList⟩, ⟨6, "***".toList⟩]

theorem detectScenes_partition_brokenChapter :
    ∃ scenes, detectScenes asciiText ⟨locationNouns, .refl _⟩ brokenChapter [] = some scenes ∧
      ScenePartition brokenChapter [] scenes :=
  detectScenes_partition asciiText ⟨locationNouns, .refl _⟩ brokenChapter [] (by decide)

example : (detectScenes asciiText ⟨locationNouns, .refl _⟩ brokenChapter []).map
    (List.map SceneBoundary.paragraphIds) = some [[2], [5]] := by decide +kernel

end AudioBook
