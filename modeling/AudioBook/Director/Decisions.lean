import AudioBook.Director.SpeakerResolver
import AudioBook.Editing.ChunkEdits

/-!
# What the Director Is Told About a Chunk

The loop of `handle_generate_director_ir` over the chunks of a chapter, with the continuity state it
threads from chunk to chunk and from chapter to chapter, and the loop body of
`handle_revise_director_ir`. A directed chunk is kept with what the speaker resolver and the
performance provider were fed for it. Voices, pronunciations and confidence are left out.

The provider is a parameter. It sees a different chunk id for every chunk of a run, so a function
stands for any run of a provider that may answer differently each time.
-/

namespace AudioBook.Direction

open ChunkEdits (Emotion DeliveryMode Pause Emphasis NonVerbal)

/-! ## The Provider -/

structure SpeakerContext where
  speakerType : SpeakerType
  characterId : Option Id
  displayName : Option Text
  speechTraits : Option SpeechTraits
  deriving DecidableEq

structure SceneContext where
  summary : Option String
  mood : Option String
  tension : Option ℚ
  deriving DecidableEq

structure PreviousPerformanceState where
  speakerCharacterId : Option Id
  emotion : Option Emotion
  emotionIntensity : Option ℚ
  pacing : Option ℚ
  pitch : Option ℚ
  volume : Option ℚ
  deliveryMode : Option DeliveryMode
  deriving DecidableEq

/-- The `chunk_id` of a provider's input: the place of a span, or the id of a row. -/
inductive ChunkLabel
  | place (paragraphId : Id) (charStart charEnd : ℕ)
  | row (id : Id)
  deriving DecidableEq

structure PerformanceChunkInput where
  chunkId : ChunkLabel
  text : Text
  isDialogueHint : Bool
  speaker : SpeakerContext
  scene : Option SceneContext
  previousState : Option PreviousPerformanceState
  deriving DecidableEq

structure PerformanceDecision where
  isDialogue : Bool
  deliveryMode : DeliveryMode
  emotion : Emotion
  emotionIntensity : ℚ
  pacing : ℚ
  pitch : ℚ
  volume : ℚ
  pauses : List Pause := []
  emphasis : List Emphasis := []
  nonVerbal : List NonVerbal := []
  deriving DecidableEq

/-- A `DirectorModelProvider`; it may fail. -/
abbrev Provider (ε : Type) := PerformanceChunkInput → Except ε PerformanceDecision

def calmProvider : Provider Unit := fun input =>
  .ok {
    isDialogue := input.isDialogueHint
    deliveryMode := .normal
    emotion := .calm
    emotionIntensity := 3 / 10
    pacing := 1
    pitch := 0
    volume := 0 }

/-! ## The Chapter Context -/

structure DirectorParagraphRow where
  id : Id
  orderIndex : ℕ
  spinePosition : ℕ
  chapterId : Id
  sceneId : Option Id
  text : Text
  deriving DecidableEq

structure SceneSemanticsRow where
  sceneId : Id
  summary : Option String
  mood : Option String
  tension : Option ℚ
  participantCharacterIds : List Id
  deriving DecidableEq

/-- `DirectorChapterContext`, the part that decides about chunks. -/
structure DirectorChapterContext where
  chapterId : Id
  paragraphs : List DirectorParagraphRow
  paragraph_pkey : ∀ p ∈ paragraphs, ∀ p' ∈ paragraphs, p.id = p'.id → p = p'
  /-- The dictionary's rows, in the order in which they were put in. -/
  sceneSemanticsByScene : List SceneSemanticsRow
  knownSpeakers : List KnownSpeaker
  sentinels : SentinelIds
  initialPreviousSpeakerId : Option Id

namespace DirectorChapterContext

def sceneForParagraph (ctx : DirectorChapterContext) (sceneId : Option Id) :
    Option SceneSemanticsRow :=
  sceneId.bind fun id => ctx.sceneSemanticsByScene.reverse.find? fun row => decide (row.sceneId = id)

def speakerById (ctx : DirectorChapterContext) (characterId : Id) : Option KnownSpeaker :=
  ctx.knownSpeakers.find? fun ks => decide (ks.characterId = characterId)

end DirectorChapterContext

def SceneSemanticsRow.context (scene : SceneSemanticsRow) : SceneContext where
  summary := scene.summary
  mood := scene.mood
  tension := scene.tension

/-- `scene.participant_character_ids if scene is not None else frozenset()`. -/
def participantIds : Option SceneSemanticsRow → List Id
  | some scene => scene.participantCharacterIds
  | none => []

/-! ## Generation -/

structure ChapterRunState where
  previousSpeakerId : Option Id := none
  previousEmotion : Option Emotion := none
  previousEmotionIntensity : Option ℚ := none
  previousPacing : Option ℚ := none
  previousPitch : Option ℚ := none
  previousVolume : Option ℚ := none
  previousDeliveryMode : Option DeliveryMode := none
  deriving DecidableEq

/-- What `build_chunk` writes of a chunk. -/
structure ChunkFields where
  sceneId : Option Id
  sequenceIndex : ℕ
  chapterSequenceIndex : ℕ
  text : Text
  speakerType : SpeakerType
  characterId : Id
  decision : PerformanceDecision
  paragraphId : Id
  paragraphCharStart : ℕ
  paragraphCharEnd : ℕ
  deriving DecidableEq

/-- A chunk with what the resolver and the provider were fed for it. -/
structure DirectedChunk where
  query : SpeakerQuery
  input : PerformanceChunkInput
  fields : ChunkFields
  deriving DecidableEq

/-- What `_resolve` feeds the speaker resolver. -/
def ChapterRunState.query (st : ChapterRunState) (ctx : DirectorChapterContext)
    (paragraph : DirectorParagraphRow) (span : ChunkSpan) : SpeakerQuery where
  span := span
  paragraphText := paragraph.text
  knownSpeakers := ctx.knownSpeakers
  sceneParticipantIds := participantIds (ctx.sceneForParagraph paragraph.sceneId)
  previousSpeakerId := st.previousSpeakerId
  sentinels := ctx.sentinels

/-- The previous state that `_decide_performance` passes on: none until an emotion is known. -/
def ChapterRunState.previousState (st : ChapterRunState) : Option PreviousPerformanceState :=
  if st.previousEmotion.isSome then
    some {
      speakerCharacterId := st.previousSpeakerId
      emotion := st.previousEmotion
      emotionIntensity := st.previousEmotionIntensity
      pacing := st.previousPacing
      pitch := st.previousPitch
      volume := st.previousVolume
      deliveryMode := st.previousDeliveryMode }
  else none

/-- What `_decide_performance` feeds the provider. -/
def ChapterRunState.input (st : ChapterRunState) (ctx : DirectorChapterContext)
    (paragraph : DirectorParagraphRow) (span : ChunkSpan) (speaker : ResolvedSpeaker) :
    PerformanceChunkInput where
  chunkId := .place paragraph.id span.charStart span.charEnd
  text := span.text
  isDialogueHint := span.isDialogueHint
  speaker :=
    { speakerType := speaker.speakerType
      characterId := some speaker.characterId
      displayName := (ctx.speakerById speaker.characterId).map KnownSpeaker.displayName
      speechTraits := (ctx.speakerById speaker.characterId).bind KnownSpeaker.speechTraits }
  scene := (ctx.sceneForParagraph paragraph.sceneId).map SceneSemanticsRow.context
  previousState := st.previousState

def nextState (speaker : ResolvedSpeaker) (decision : PerformanceDecision) : ChapterRunState where
  previousSpeakerId := some speaker.characterId
  previousEmotion := some decision.emotion
  previousEmotionIntensity := some decision.emotionIntensity
  previousPacing := some decision.pacing
  previousPitch := some decision.pitch
  previousVolume := some decision.volume
  previousDeliveryMode := some decision.deliveryMode

/-- `build_chunk`. -/
def buildFields (sceneId : Option Id) (sequenceIndex chapterSequenceIndex : ℕ) (paragraphId : Id)
    (span : ChunkSpan) (speaker : ResolvedSpeaker) (decision : PerformanceDecision) :
    ChunkFields where
  sceneId := sceneId
  sequenceIndex := sequenceIndex
  chapterSequenceIndex := chapterSequenceIndex
  text := span.text
  speakerType := speaker.speakerType
  characterId := speaker.characterId
  decision := decision
  paragraphId := paragraphId
  paragraphCharStart := span.charStart
  paragraphCharEnd := span.charEnd

def DirectorChapterContext.spans (ctx : DirectorChapterContext) (maxChars : ℕ) :
    List (DirectorParagraphRow × ChunkSpan) :=
  ctx.paragraphs.flatMap fun paragraph =>
    (chunkParagraph paragraph.text maxChars).map fun span => (paragraph, span)

section Generation

variable {ε : Type} (u : PythonText) (provider : Provider ε) (maxChars : ℕ)

/-- The loop over the spans of a chapter, with its two running counters. -/
def directSpans (ctx : DirectorChapterContext) : ChapterRunState → ℕ → ℕ →
    List (DirectorParagraphRow × ChunkSpan) → Except ε (List DirectedChunk × ChapterRunState)
  | st, _, _, [] => .ok ([], st)
  | st, sequenceIndex, chapterSequenceIndex, (paragraph, span) :: spans => do
      let query := st.query ctx paragraph span
      let speaker := resolveSpeaker u query
      let input := st.input ctx paragraph span speaker
      let decision ← provider input
      let chunk : DirectedChunk :=
        { query := query
          input := input
          fields := buildFields paragraph.sceneId sequenceIndex chapterSequenceIndex paragraph.id
            span speaker decision }
      let (chunks, last) ← directSpans ctx (nextState speaker decision) (sequenceIndex + 1)
        (chapterSequenceIndex + 1) spans
      return (chunk :: chunks, last)

/-- The state in which the loop starts: what the job's payload carries, with the speaker of the last
narrative state where the payload has none. -/
def ChapterRunState.entering (st : ChapterRunState) (ctx : DirectorChapterContext) :
    ChapterRunState :=
  { st with previousSpeakerId := st.previousSpeakerId <|> ctx.initialPreviousSpeakerId }

/-- The chunks of a chapter, and what the payload of the next chapter's job carries. -/
def directChapter (ctx : DirectorChapterContext) (st : ChapterRunState) (sequenceIndex : ℕ) :
    Except ε (List DirectedChunk × ChapterRunState) :=
  directSpans u provider ctx (st.entering ctx) sequenceIndex 0 (ctx.spans maxChars)

def directChapters : ChapterRunState → ℕ → List DirectorChapterContext →
    Except ε (List (List DirectedChunk))
  | _, _, [] => .ok []
  | st, sequenceIndex, ctx :: ctxs => do
      let (chunks, last) ← directChapter u provider maxChars ctx st sequenceIndex
      let rest ← directChapters last (sequenceIndex + chunks.length) ctxs
      return chunks :: rest

end Generation

/-! ## One Turn of the Loop -/

/-- The chunk was directed in a state. -/
structure DirectedIn (u : PythonText) (ctx : DirectorChapterContext) (st : ChapterRunState)
    (place : DirectorParagraphRow × ChunkSpan) (chunk : DirectedChunk) : Prop where
  query : chunk.query = st.query ctx place.1 place.2
  input : chunk.input = st.input ctx place.1 place.2 (resolveSpeaker u chunk.query)
  sceneId : chunk.fields.sceneId = place.1.sceneId
  paragraphId : chunk.fields.paragraphId = place.1.id
  charStart : chunk.fields.paragraphCharStart = place.2.charStart
  charEnd : chunk.fields.paragraphCharEnd = place.2.charEnd

section Turn

variable {ε : Type} {u : PythonText} {provider : Provider ε} {ctx : DirectorChapterContext}
  {st last : ChapterRunState} {n m : ℕ} {spans : List (DirectorParagraphRow × ChunkSpan)}
  {chunks : List DirectedChunk}

theorem directSpans_cons_eq_ok {place : DirectorParagraphRow × ChunkSpan}
    (h : directSpans u provider ctx st n m (place :: spans) = .ok (chunks, last)) :
    ∃ chunk rest speaker decision, chunks = chunk :: rest ∧ DirectedIn u ctx st place chunk ∧
      directSpans u provider ctx (nextState speaker decision) (n + 1) (m + 1) spans =
        .ok (rest, last) := by
  obtain ⟨paragraph, span⟩ := place
  rw [directSpans] at h
  obtain ⟨decision, -, h⟩ := Relational.except_bind_eq_ok_iff.mp h
  obtain ⟨⟨rest, last'⟩, hrest, h⟩ := Relational.except_bind_eq_ok_iff.mp h
  cases h
  exact ⟨_, rest, _, decision, rfl, ⟨rfl, rfl, rfl, rfl, rfl, rfl⟩, hrest⟩

theorem mem_of_mem_spans {maxChars : ℕ} {place : DirectorParagraphRow × ChunkSpan}
    (h : place ∈ ctx.spans maxChars) :
    place.1 ∈ ctx.paragraphs ∧ place.2 ∈ chunkParagraph place.1.text maxChars := by
  obtain ⟨paragraph, hparagraph, hspan⟩ := List.mem_flatMap.mp h
  obtain ⟨span, hmem, rfl⟩ := List.mem_map.mp hspan
  exact ⟨hparagraph, hmem⟩

end Turn

/-! ## Revision -/

/-- The row of `load_chunk_for_revision`, as far as it decides what is fed. -/
structure RevisionRow where
  id : Id
  sceneId : Option Id
  sequenceIndex : ℕ
  chapterSequenceIndex : ℕ
  paragraphId : Id
  paragraphCharStart : ℕ
  paragraphCharEnd : ℕ

def ChunkFields.row (fields : ChunkFields) (id : Id) : RevisionRow where
  id := id
  sceneId := fields.sceneId
  sequenceIndex := fields.sequenceIndex
  chapterSequenceIndex := fields.chapterSequenceIndex
  paragraphId := fields.paragraphId
  paragraphCharStart := fields.paragraphCharStart
  paragraphCharEnd := fields.paragraphCharEnd

namespace RevisionRow

variable (row : RevisionRow) (ctx : DirectorChapterContext) (paragraph : DirectorParagraphRow)

/-- `'"' in text or "“" in text`. -/
def hasOpeningQuote (text : Text) : Bool := decide ('"' ∈ text ∨ '“' ∈ text)

def paragraph? : Option DirectorParagraphRow :=
  ctx.paragraphs.reverse.find? fun p => decide (p.id = row.paragraphId)

/-- The span of the row, cut out of its paragraph again. -/
def span : ChunkSpan where
  charStart := row.paragraphCharStart
  charEnd := row.paragraphCharEnd
  text := slice paragraph.text row.paragraphCharStart row.paragraphCharEnd
  isDialogueHint := hasOpeningQuote
    (slice paragraph.text row.paragraphCharStart row.paragraphCharEnd)

/-- What a revision feeds the speaker resolver. -/
def query : SpeakerQuery where
  span := row.span paragraph
  paragraphText := paragraph.text
  knownSpeakers := ctx.knownSpeakers
  sceneParticipantIds := participantIds (ctx.sceneForParagraph paragraph.sceneId)
  previousSpeakerId := none
  sentinels := ctx.sentinels

/-- What a revision feeds the provider. -/
def input (speaker : ResolvedSpeaker) : PerformanceChunkInput where
  chunkId := .row row.id
  text := (row.span paragraph).text
  isDialogueHint := (row.span paragraph).isDialogueHint
  speaker :=
    { speakerType := speaker.speakerType
      characterId := some speaker.characterId
      displayName := (ctx.speakerById speaker.characterId).map KnownSpeaker.displayName
      -- the traits are not passed on
      speechTraits := none }
  scene := (ctx.sceneForParagraph paragraph.sceneId).map SceneSemanticsRow.context
  previousState := none

/-- The loop body of `handle_revise_director_ir`; a row whose paragraph is not there is skipped. -/
def revise {ε : Type} (u : PythonText) (provider : Provider ε) : Except ε (Option DirectedChunk) :=
  match row.paragraph? ctx with
  | none => .ok none
  | some paragraph => do
      let query := row.query ctx paragraph
      let speaker := resolveSpeaker u query
      let input := row.input ctx paragraph speaker
      let decision ← provider input
      return some {
        query := query
        input := input
        fields := buildFields row.sceneId row.sequenceIndex row.chapterSequenceIndex row.paragraphId
          (row.span paragraph) speaker decision }

end RevisionRow

end AudioBook.Direction
