import AudioBook.Director.Decisions
import AudioBook.Relational.Table
import Mathlib.Data.List.Sort
import Mathlib.Logic.Relation

/-!
# Scenes on Their Way to the Director

`analyze_scene` stores the scenes that it finds in a chapter, with their semantics and participants,
and the Director looks a paragraph's scene up by the paragraph's `scene_id`. That column is what
connects the two: nothing else says which paragraphs a scene has.

## Main results

* `paragraphsKept_run`: no transaction writes `scene_id`.
* `sceneReaches_iff_unused`: the scenes of a chapter reach the Director only where analysis put no
  paragraph in them.
-/

namespace AudioBook.Direction

open Relational

/-! ## Rows -/

/-- `paragraph`. -/
structure ParagraphRow where
  id : Id
  chapterId : Id
  orderIndex : ℕ
  spinePosition : ℕ
  sceneId : Option Id := none
  text : Text
  scriptedAt : Option ℕ := none
  deriving DecidableEq

/-- `scene`. -/
structure SceneRow where
  id : Id
  chapterId : Id
  orderIndex : ℕ
  startParagraphId : Id
  endParagraphId : Id
  paragraphCount : ℕ
  spineStart : ℕ
  spineEnd : ℕ
  deriving DecidableEq

structure SceneSemantics where
  id : Id
  sceneId : Id
  storyBibleVersionId : Id
  summary : Option String
  inStoryTime : Option String
  mood : Option String
  tension : Option ℚ
  povCharacterId : Option Id
  deriving DecidableEq

structure SceneParticipant where
  sceneSemanticsId : Id
  characterId : Id
  speakingLineCount : ℕ
  deriving DecidableEq

/-- `audio_script_chunk`, with its source. -/
structure ScriptChunkRow where
  id : Id
  audioScriptId : Id
  fields : ChunkFields
  deriving DecidableEq

structure SceneStore where
  paragraphs : List ParagraphRow := []
  scenes : List SceneRow := []
  sceneSemantics : List SceneSemantics := []
  sceneParticipants : List SceneParticipant := []
  chunks : List ScriptChunkRow := []
  nextId : Id := 0
  deriving DecidableEq

namespace SceneStore

/-- The table `paragraph`. -/
def paragraph : Table SceneStore ParagraphRow where
  rows := SceneStore.paragraphs
  setRows rows s := { s with paragraphs := rows }
  constraints := [.uniqueWhere fun p => some p.id]

/-- The table `scene`. -/
def scene : Table SceneStore SceneRow where
  rows := SceneStore.scenes
  setRows rows s := { s with scenes := rows }
  constraints := [.uniqueWhere fun r => some r.id]

/-- The table `scene_semantics`. -/
def semantics : Table SceneStore SceneSemantics where
  rows := SceneStore.sceneSemantics
  setRows rows s := { s with sceneSemantics := rows }
  constraints := [.uniqueWhere fun r => some r.id,
    .uniqueWhere fun r => some (r.sceneId, r.storyBibleVersionId)]

/-- The table `scene_participant`. -/
def participant : Table SceneStore SceneParticipant where
  rows := SceneStore.sceneParticipants
  setRows rows s := { s with sceneParticipants := rows }
  constraints := [.uniqueWhere fun r => some (r.sceneSemanticsId, r.characterId)]

/-- The table `audio_script_chunk`. -/
def chunk : Table SceneStore ScriptChunkRow where
  rows := SceneStore.chunks
  setRows rows s := { s with chunks := rows }
  constraints := [.uniqueWhere fun r => some r.id]

end SceneStore

abbrev SceneTx := Transaction SceneStore Violation

def newId : SceneTx Id := do
  let s ← get
  set { s with nextId := s.nextId + 1 }
  return s.nextId

/-! ## Ingestion -/

/-- The paragraphs of a chapter, each with its order index, its spine position and its text. No
scene is given. -/
def createParagraphs (chapterId : Id) : List (ℕ × ℕ × Text) → SceneTx Unit
  | [] => pure ()
  | (orderIndex, spinePosition, text) :: paragraphs => do
      let id ← newId
      SceneStore.paragraph.insert { id, chapterId, orderIndex, spinePosition, text }
      createParagraphs chapterId paragraphs

/-! ## Analysis -/

structure SceneBoundary where
  orderIndex : ℕ
  startParagraphId : Id
  endParagraphId : Id
  paragraphIds : List Id
  inStoryTime : Option String := none
  mood : Option String := none
  tension : Option ℚ := none
  povCharacterKey : Option Text := none
  participantKeys : List Text := []
  summary : Option String := none
  deriving DecidableEq

/-- What the second session of `analyze_scene` works with, as far as scenes go. -/
structure ChapterAnalysis where
  chapterId : Id
  spineStart : ℕ
  spineEnd : ℕ
  storyBibleVersionId : Id
  /-- The paragraphs that the first session loaded: id and spine position. -/
  paragraphs : List (Id × ℕ)
  keyToCharacterId : List (Text × Id)
  scenes : List SceneBoundary

/-- `create_scene_participant`: `ON CONFLICT DO NOTHING`. -/
def createSceneParticipant (sceneSemanticsId characterId : Id) (speaking : Bool) : SceneTx Unit := do
  if (← get).sceneParticipants.any fun r =>
      decide (r.sceneSemanticsId = sceneSemanticsId ∧ r.characterId = characterId) then
    pure ()
  else
    SceneStore.participant.insert {
      sceneSemanticsId
      characterId
      speakingLineCount := if speaking then 1 else 0 }

/-- The loop body over the participants of a scene; a key without a character is skipped. -/
def persistParticipant (keyToCharacterId : List (Text × Id)) (povCharacterKey : Option Text)
    (sceneSemanticsId : Id) (key : Text) : SceneTx Unit :=
  match keyToCharacterId.lookup key with
  | none => pure ()
  | some characterId =>
      createSceneParticipant sceneSemanticsId characterId (decide (some key = povCharacterKey))

def persistParticipants (keyToCharacterId : List (Text × Id)) (povCharacterKey : Option Text)
    (sceneSemanticsId : Id) : List Text → SceneTx Unit
  | [] => pure ()
  | key :: keys => do
      persistParticipant keyToCharacterId povCharacterKey sceneSemanticsId key
      persistParticipants keyToCharacterId povCharacterKey sceneSemanticsId keys

def ChapterAnalysis.spinePositions (a : ChapterAnalysis) (scene : SceneBoundary) : List ℕ :=
  scene.paragraphIds.filterMap fun id => a.paragraphs.lookup id

/-- The loop body over the scenes: the scene, its semantics and its participants. The id of the
scene is returned. -/
def ChapterAnalysis.persistScene (a : ChapterAnalysis) (scene : SceneBoundary) : SceneTx Id := do
  let spinePositions := a.spinePositions scene
  let sceneId ← newId
  SceneStore.scene.insert {
    id := sceneId
    chapterId := a.chapterId
    orderIndex := scene.orderIndex
    startParagraphId := scene.startParagraphId
    endParagraphId := scene.endParagraphId
    paragraphCount := scene.paragraphIds.length
    spineStart := spinePositions.min?.getD a.spineStart
    spineEnd := spinePositions.max?.getD a.spineEnd }
  let semanticsId ← newId
  SceneStore.semantics.insert {
    id := semanticsId
    sceneId := sceneId
    storyBibleVersionId := a.storyBibleVersionId
    summary := scene.summary
    inStoryTime := scene.inStoryTime
    mood := scene.mood
    tension := scene.tension
    povCharacterId :=
      (scene.povCharacterKey.filter fun key => decide (key ≠ [])).bind fun key =>
        a.keyToCharacterId.lookup key }
  persistParticipants a.keyToCharacterId scene.povCharacterKey semanticsId scene.participantKeys
  return sceneId

/-- The loop over the scenes: the ids of the scenes, in order. -/
def ChapterAnalysis.persistScenes (a : ChapterAnalysis) : List SceneBoundary → SceneTx (List Id)
  | [] => return []
  | scene :: scenes => do
      let sceneId ← a.persistScene scene
      let sceneIds ← a.persistScenes scenes
      return sceneId :: sceneIds

/-! ## The Director -/

/-- `insert_chunks`: every chunk with its source; its paragraph is marked as scripted. -/
def insertChunks (audioScriptId : Id) (now : ℕ) : List ChunkFields → SceneTx Unit
  | [] => pure ()
  | fields :: chunks => do
      let id ← newId
      SceneStore.chunk.insert { id, audioScriptId, fields }
      SceneStore.paragraph.update (fun p => decide (p.id = fields.paragraphId)) fun p =>
        { p with scriptedAt := p.scriptedAt <|> some now }
      insertChunks audioScriptId now chunks

namespace SceneStore

/-- The primary key of `paragraph`. -/
def Keyed (s : SceneStore) : Prop := UniqueWhere (fun p => some p.id) s.paragraphs

def loadParagraphsForChapter (s : SceneStore) (chapterId : Id) : List DirectorParagraphRow :=
  ((s.paragraphs.filter fun p => decide (p.chapterId = chapterId)).insertionSort
    fun p p' => p.orderIndex ≤ p'.orderIndex).map fun p =>
      { id := p.id
        orderIndex := p.orderIndex
        spinePosition := p.spinePosition
        chapterId := p.chapterId
        sceneId := p.sceneId
        text := p.text }

def loadSceneSemanticsForChapter (s : SceneStore) (chapterId storyBibleVersionId : Id) :
    List SceneSemanticsRow :=
  let rows := s.sceneSemantics.filter fun r => decide (r.storyBibleVersionId = storyBibleVersionId ∧
    ∃ scene ∈ s.scenes, scene.id = r.sceneId ∧ scene.chapterId = chapterId)
  rows.map fun r =>
    { sceneId := r.sceneId
      summary := r.summary
      mood := r.mood
      tension := r.tension
      participantCharacterIds := (s.sceneParticipants.filter fun sp =>
        decide (∃ r' ∈ s.sceneSemantics, r'.id = sp.sceneSemanticsId ∧ r'.sceneId = r.sceneId ∧
          r'.storyBibleVersionId = storyBibleVersionId)).map SceneParticipant.characterId }

theorem exists_of_mem_loadParagraphs {s : SceneStore} {chapterId : Id} {p : DirectorParagraphRow}
    (h : p ∈ s.loadParagraphsForChapter chapterId) :
    ∃ row ∈ s.paragraphs, p = ⟨row.id, row.orderIndex, row.spinePosition, row.chapterId,
      row.sceneId, row.text⟩ := by
  obtain ⟨row, hrow, rfl⟩ := List.mem_map.mp h
  exact ⟨row, List.mem_of_mem_filter ((List.mem_insertionSort _).mp hrow), rfl⟩

/-- `load_chapter_context`. The speakers, the sentinels and the previous speaker are read from
tables that are not of interest here. -/
def loadChapterContext (s : SceneStore) (hkeyed : s.Keyed) (chapterId storyBibleVersionId : Id)
    (knownSpeakers : List KnownSpeaker) (sentinels : SentinelIds)
    (initialPreviousSpeakerId : Option Id) : DirectorChapterContext where
  chapterId := chapterId
  paragraphs := s.loadParagraphsForChapter chapterId
  paragraph_pkey p hp p' hp' hid := by
    obtain ⟨row, hrow, rfl⟩ := exists_of_mem_loadParagraphs hp
    obtain ⟨row', hrow', rfl⟩ := exists_of_mem_loadParagraphs hp'
    have hrows : row = row' := hkeyed.eq_of_key hrow hrow' rfl (congrArg some hid.symm)
    rw [hrows]
  sceneSemanticsByScene := s.loadSceneSemanticsForChapter chapterId storyBibleVersionId
  knownSpeakers := knownSpeakers
  sentinels := sentinels
  initialPreviousSpeakerId := initialPreviousSpeakerId

end SceneStore

/-! ## What Happens to the Tables -/

inductive SceneWrite
  | createParagraphs (chapterId : Id) (paragraphs : List (ℕ × ℕ × Text))
  | analyze (a : ChapterAnalysis)
  | insertChunks (audioScriptId : Id) (now : ℕ) (chunks : List ChunkFields)

def SceneWrite.run : SceneWrite → SceneTx Unit
  | createParagraphs chapterId paragraphs => Direction.createParagraphs chapterId paragraphs
  | analyze a => do
      let _ ← a.persistScenes a.scenes
      return ()
  | insertChunks audioScriptId now chunks => Direction.insertChunks audioScriptId now chunks

/-- A transaction commits. -/
def SceneStore.Step (s s' : SceneStore) : Prop :=
  ∃ write : SceneWrite, ∃ u, write.run s = .ok (u, s')

/-- The primary key of `paragraph` stays one, and every paragraph is new and without a scene, or has
the scene that it had. -/
structure ParagraphsKept (s s' : SceneStore) : Prop where
  keyed : s.Keyed → s'.Keyed
  sceneId : ∀ p' ∈ s'.paragraphs, p'.sceneId = none ∨
    ∃ p ∈ s.paragraphs, p.id = p'.id ∧ p.sceneId = p'.sceneId

instance : IsPreorder SceneStore ParagraphsKept where
  refl _ := ⟨id, fun p hp => .inr ⟨p, hp, rfl, rfl⟩⟩
  trans s₁ s₂ s₃ h₁₂ h₂₃ := by
    refine ⟨h₂₃.keyed ∘ h₁₂.keyed, fun p₃ hp₃ => ?_⟩
    obtain hnone | ⟨p₂, hp₂, hid, hscene⟩ := h₂₃.sceneId p₃ hp₃
    · exact .inl hnone
    · rw [← hid, ← hscene]
      exact h₁₂.sceneId p₂ hp₂

theorem ParagraphsKept.of_eq {s s' : SceneStore} (h : s'.paragraphs = s.paragraphs) :
    ParagraphsKept s s' := by
  refine ⟨fun hkeyed => ?_, fun p hp => .inr ⟨p, h ▸ hp, rfl, rfl⟩⟩
  unfold SceneStore.Keyed
  rw [h]
  exact hkeyed

namespace ParagraphsKept

theorem within_newId : newId.Within ParagraphsKept := by
  intro s id s' h
  cases h
  exact of_eq rfl

theorem within_createParagraphs (chapterId : Id) (paragraphs : List (ℕ × ℕ × Text)) :
    (createParagraphs chapterId paragraphs).Within ParagraphsKept := by
  induction paragraphs with
  | nil => exact Transaction.within_pure _
  | cons paragraph paragraphs ih =>
      obtain ⟨orderIndex, spinePosition, text⟩ := paragraph
      refine Transaction.within_bind within_newId fun id =>
        Transaction.within_bind (Table.within_insert _ fun s hacc => ⟨fun _ => ?_, ?_⟩) fun _ => ih
      · exact (Constraint.holds_uniqueWhere _ _).mp (hacc _ List.mem_cons_self)
      · intro p' hp'
        rcases List.mem_append.mp hp' with hold | hnew
        · exact .inr ⟨p', hold, rfl, rfl⟩
        · rw [List.mem_singleton.mp hnew]
          exact .inl rfl

theorem within_persistParticipants (keyToCharacterId : List (Text × Id))
    (povCharacterKey : Option Text) (sceneSemanticsId : Id) (keys : List Text) :
    (persistParticipants keyToCharacterId povCharacterKey sceneSemanticsId keys).Within
      ParagraphsKept := by
  induction keys with
  | nil => exact Transaction.within_pure _
  | cons key keys ih =>
      refine Transaction.within_bind ?_ fun _ => ih
      unfold persistParticipant
      split
      · exact Transaction.within_pure _
      · refine Transaction.within_bind Transaction.within_get fun s => ?_
        split
        · exact Transaction.within_pure _
        · exact Table.within_insert _ fun _ _ => of_eq rfl

theorem within_persistScenes (a : ChapterAnalysis) (scenes : List SceneBoundary) :
    (a.persistScenes scenes).Within ParagraphsKept := by
  induction scenes with
  | nil => exact Transaction.within_pure _
  | cons scene scenes ih =>
      refine Transaction.within_bind ?_ fun _ =>
        Transaction.within_bind ih fun _ => Transaction.within_pure _
      refine Transaction.within_bind within_newId fun _ =>
        Transaction.within_bind (Table.within_insert _ fun _ _ => of_eq rfl) fun _ =>
        Transaction.within_bind within_newId fun _ =>
        Transaction.within_bind (Table.within_insert _ fun _ _ => of_eq rfl) fun _ =>
        Transaction.within_bind (within_persistParticipants _ _ _ _) fun _ =>
        Transaction.within_pure _

theorem within_insertChunks (audioScriptId : Id) (now : ℕ) (chunks : List ChunkFields) :
    (insertChunks audioScriptId now chunks).Within ParagraphsKept := by
  induction chunks with
  | nil => exact Transaction.within_pure _
  | cons fields chunks ih =>
      refine Transaction.within_bind within_newId fun _ =>
        Transaction.within_bind (Table.within_insert _ fun _ _ => of_eq rfl) fun _ =>
        Transaction.within_bind (Table.within_update _ fun s hacc => ⟨fun _ => ?_, ?_⟩) fun _ => ih
      · exact (Constraint.holds_uniqueWhere _ _).mp (hacc _ List.mem_cons_self)
      · -- marking a paragraph as scripted keeps its scene
        intro p' hp'
        obtain ⟨p, hp, -, rfl⟩ | ⟨hp, -⟩ := mem_updateWhere.mp hp'
        · exact .inr ⟨p, hp, rfl, rfl⟩
        · exact .inr ⟨p', hp, rfl, rfl⟩

end ParagraphsKept

theorem paragraphsKept_run (write : SceneWrite) : write.run.Within ParagraphsKept := by
  cases write with
  | createParagraphs chapterId paragraphs =>
      exact ParagraphsKept.within_createParagraphs chapterId paragraphs
  | analyze a =>
      exact Transaction.within_bind (ParagraphsKept.within_persistScenes a a.scenes) fun _ =>
        Transaction.within_pure _
  | insertChunks audioScriptId now chunks =>
      exact ParagraphsKept.within_insertChunks audioScriptId now chunks

open Relation (ReflTransGen)

theorem paragraphsKept_of_steps {s s' : SceneStore} (h : ReflTransGen SceneStore.Step s s') :
    ParagraphsKept s s' := by
  induction h with
  | refl => exact refl_of ParagraphsKept s
  | tail _ hstep ih =>
      obtain ⟨write, u, hrun⟩ := hstep
      exact trans_of ParagraphsKept ih (paragraphsKept_run write _ u _ hrun)

theorem sceneId_eq_none {s : SceneStore} (h : ReflTransGen SceneStore.Step {} s) :
    s.Keyed ∧ ∀ p ∈ s.paragraphs, p.sceneId = none := by
  have hkept := paragraphsKept_of_steps h
  refine ⟨hkept.keyed (by simp [SceneStore.Keyed, UniqueWhere]), fun p hp => ?_⟩
  obtain hnone | ⟨p₀, hp₀, -⟩ := hkept.sceneId p hp
  · exact hnone
  · cases hp₀

/-! ## What Reaches the Director -/

/-- A chunk is directed with a scene that was stored under an id: the resolver is fed the scene's
participants, the provider its mood and tension, and the chunk carries the id. -/
structure DirectedChunk.WithScene (a : ChapterAnalysis) (scene : SceneBoundary) (sceneId : Id)
    (chunk : DirectedChunk) : Prop where
  participants : ∀ characterId, characterId ∈ chunk.query.sceneParticipantIds ↔
    ∃ key ∈ scene.participantKeys, a.keyToCharacterId.lookup key = some characterId
  context : chunk.input.scene = some ⟨scene.summary, scene.mood, scene.tension⟩
  written : chunk.fields.sceneId = some sceneId

/-- A paragraph of the chapter is found in the scene that was stored under an id, and all the chunks
that directing the chapter makes of it are directed with the scene. -/
structure SceneReaches {ε : Type} (a : ChapterAnalysis) (scene : SceneBoundary) (sceneId : Id)
    (ctx : DirectorChapterContext)
    (directed : Except ε (List DirectedChunk × ChapterRunState)) (p : DirectorParagraphRow) :
    Prop where
  found : ∃ row, ctx.sceneForParagraph p.sceneId = some row ∧ row.sceneId = sceneId
  withScene : ∀ chunks last, directed = .ok (chunks, last) →
    ∀ chunk ∈ chunks, chunk.fields.paragraphId = p.id → chunk.WithScene a scene sceneId

theorem persistScenes_length {a : ChapterAnalysis} {scenes : List SceneBoundary}
    {s s' : SceneStore} {sceneIds : List Id} (h : a.persistScenes scenes s = .ok (sceneIds, s')) :
    sceneIds.length = scenes.length := by
  induction scenes generalizing s sceneIds with
  | nil =>
      cases h
      rfl
  | cons scene scenes ih =>
      obtain ⟨sceneId, s₁, -, h⟩ := Transaction.bind_eq_ok_iff.mp h
      obtain ⟨rest, s₂, hrest, h⟩ := Transaction.bind_eq_ok_iff.mp h
      cases h
      rw [List.length_cons, List.length_cons, ih hrest]

theorem sceneForParagraph_eq_none {s : SceneStore} (h : ReflTransGen SceneStore.Step {} s)
    {ctx : DirectorChapterContext} {chapterId : Id}
    (hctx : ctx.paragraphs = s.loadParagraphsForChapter chapterId) {p : DirectorParagraphRow}
    (hp : p ∈ ctx.paragraphs) : ctx.sceneForParagraph p.sceneId = none := by
  rw [hctx] at hp
  obtain ⟨row, hrow, rfl⟩ := SceneStore.exists_of_mem_loadParagraphs hp
  show ctx.sceneForParagraph row.sceneId = none
  rw [(sceneId_eq_none h).2 row hrow]
  rfl

/-- The scenes that analysis stored for a chapter reach the Director exactly if no paragraph of the
chapter was put in any of them. -/
theorem sceneReaches_iff_unused {ε : Type} (u : PythonText) (provider : Provider ε) (maxChars : ℕ)
    (a : ChapterAnalysis) {s s₁ s₂ : SceneStore} {sceneIds : List Id}
    (hbefore : ReflTransGen SceneStore.Step {} s)
    (hanalysis : a.persistScenes a.scenes s = .ok (sceneIds, s₁))
    (hafter : ReflTransGen SceneStore.Step s₁ s₂) (hkeyed : s₂.Keyed)
    (knownSpeakers : List KnownSpeaker) (sentinels : SentinelIds)
    (initialPreviousSpeakerId : Option Id) {ctx : DirectorChapterContext}
    (hctx : ctx = s₂.loadChapterContext hkeyed a.chapterId a.storyBibleVersionId knownSpeakers
      sentinels initialPreviousSpeakerId) (st : ChapterRunState) (n : ℕ) :
    (∀ scene sceneId, (scene, sceneId) ∈ a.scenes.zip sceneIds →
        ∀ p ∈ ctx.paragraphs, p.id ∈ scene.paragraphIds →
          SceneReaches a scene sceneId ctx (directChapter u provider maxChars ctx st n) p) ↔
      ∀ scene ∈ a.scenes, ∀ p ∈ ctx.paragraphs, p.id ∉ scene.paragraphIds := by
  have hanalyze : SceneStore.Step s s₁ :=
    ⟨.analyze a, (), Transaction.bind_eq_ok_iff.mpr ⟨sceneIds, s₁, hanalysis, rfl⟩⟩
  have hreachable : ReflTransGen SceneStore.Step {} s₂ := (hbefore.tail hanalyze).trans hafter
  constructor
  · intro hreaches scene hscene p hp hin
    have hall : (a.scenes.zip sceneIds).map Prod.fst = a.scenes :=
      List.map_fst_zip (persistScenes_length hanalysis).ge
    rw [← hall] at hscene
    obtain ⟨⟨_, sceneId⟩, hzip, rfl⟩ := List.mem_map.mp hscene
    obtain ⟨row, hrow, -⟩ := (hreaches _ sceneId hzip p hp hin).found
    rw [sceneForParagraph_eq_none hreachable (by rw [hctx]; rfl) hp] at hrow
    cases hrow
  · intro hunused scene sceneId hzip p hp hin
    exact absurd hin (hunused scene (List.of_mem_zip hzip).1 p hp)

/-! ## A Tense Scene -/

/-- The store after a paragraph `Run!` of chapter 1 was ingested. -/
def ingested : SceneStore where
  paragraphs := [
    { id := 0, chapterId := 1, orderIndex := 0, spinePosition := 0, text := ['R', 'u', 'n', '!'] }]
  nextId := 1

/-- Analysis finds a tense scene of Ann's in the paragraph. -/
def tenseScene : SceneBoundary where
  orderIndex := 0
  startParagraphId := 0
  endParagraphId := 0
  paragraphIds := [0]
  mood := some "tense"
  participantKeys := [['a', 'n', 'n']]

def tenseChapter : ChapterAnalysis where
  chapterId := 1
  spineStart := 0
  spineEnd := 0
  storyBibleVersionId := 5
  paragraphs := [(0, 0)]
  keyToCharacterId := [(['a', 'n', 'n'], 8)]
  scenes := [tenseScene]

def analyzed : SceneStore :=
  { ingested with
    scenes := [⟨1, 1, 0, 0, 0, 1, 0, 0⟩]
    sceneSemantics := [⟨2, 1, 5, none, none, some "tense", none, none⟩]
    sceneParticipants := [⟨2, 8, 0⟩]
    nextId := 3 }

theorem persistScenes_tenseChapter :
    tenseChapter.persistScenes tenseChapter.scenes ingested = .ok ([1], analyzed) := by
  decide +kernel

theorem reachable_ingested : ReflTransGen SceneStore.Step {} ingested :=
  .single ⟨.createParagraphs 1 [(0, 0, ['R', 'u', 'n', '!'])], (), by decide +kernel⟩

theorem keyed_analyzed : analyzed.Keyed := by
  unfold SceneStore.Keyed
  decide

def tenseContext : DirectorChapterContext :=
  analyzed.loadChapterContext keyed_analyzed 1 5 [] ⟨11, 12, 13, 14⟩ none

/-- The tense scene does not reach the Director. -/
theorem not_sceneReaches_tenseChapter :
    ¬ ∀ scene sceneId, (scene, sceneId) ∈ tenseChapter.scenes.zip [1] →
        ∀ p ∈ tenseContext.paragraphs, p.id ∈ scene.paragraphIds →
          SceneReaches tenseChapter scene sceneId tenseContext
            (directChapter asciiText calmProvider defaultMaxChars tenseContext {} 0) p := by
  intro h
  have hunused := (sceneReaches_iff_unused asciiText calmProvider defaultMaxChars tenseChapter
    reachable_ingested persistScenes_tenseChapter .refl keyed_analyzed [] ⟨11, 12, 13, 14⟩ none
    (rfl : tenseContext = _) {} 0).mp h
  revert hunused
  decide +kernel

/-- Analysis may put paragraphs in scenes that do not reach the Director. -/
theorem not_forall_sceneReaches :
    ¬ ∀ (ε : Type) (u : PythonText) (provider : Provider ε) (maxChars : ℕ) (a : ChapterAnalysis)
        (s s₁ s₂ : SceneStore) (sceneIds : List Id), ReflTransGen SceneStore.Step {} s →
        a.persistScenes a.scenes s = .ok (sceneIds, s₁) → ReflTransGen SceneStore.Step s₁ s₂ →
        ∀ (hkeyed : s₂.Keyed) (knownSpeakers : List KnownSpeaker) (sentinels : SentinelIds)
          (initialPreviousSpeakerId : Option Id) (ctx : DirectorChapterContext),
          ctx = s₂.loadChapterContext hkeyed a.chapterId a.storyBibleVersionId knownSpeakers
            sentinels initialPreviousSpeakerId →
          ∀ (st : ChapterRunState) (n : ℕ) (scene : SceneBoundary) (sceneId : Id),
            (scene, sceneId) ∈ a.scenes.zip sceneIds →
            ∀ p ∈ ctx.paragraphs, p.id ∈ scene.paragraphIds →
              SceneReaches a scene sceneId ctx (directChapter u provider maxChars ctx st n) p := by
  intro h
  obtain ⟨p, hp, hid⟩ : ∃ p ∈ tenseContext.paragraphs, p.id = 0 := by decide +kernel
  have hreaches := h Unit asciiText calmProvider defaultMaxChars tenseChapter ingested analyzed
    analyzed [1] reachable_ingested persistScenes_tenseChapter .refl keyed_analyzed []
    ⟨11, 12, 13, 14⟩ none tenseContext rfl {} 0 tenseScene 1 (by simp [tenseChapter]) p hp
    (by simp [tenseScene, hid])
  obtain ⟨row, hrow, -⟩ := hreaches.found
  have hnone : ∀ p ∈ tenseContext.paragraphs, tenseContext.sceneForParagraph p.sceneId = none := by
    decide +kernel
  rw [hnone p hp] at hrow
  cases hrow

end AudioBook.Direction
