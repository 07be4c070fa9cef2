import AudioBook.Progress.Stages

/-!
# What Writes the Rows That Are Counted

The transactions of ingestion, analysis, the Director, synthesis and assembly, as far as they write
rows that the progress of a book counts, on tables with their unique indexes and the foreign keys of
their own rows. What only rejects a transaction (the validation of a script, the checks of audio) is
left out.
-/

namespace AudioBook.Progress

open Relational

/-! ## Tables -/

namespace ProgressStore

/-- The key of `book_version_current_key`. -/
def versionCurrentKey (v : BookVersion) : Option Id := if v.isCurrent then some v.bookId else none

/-- The table `book_version`. -/
def bookVersion : Table ProgressStore BookVersion where
  rows := ProgressStore.bookVersions
  setRows rows s := { s with bookVersions := rows }
  constraints := [.uniqueWhere fun v => some v.id, .uniqueWhere versionCurrentKey,
    .selfReference BookVersion.id BookVersion.supersededBy]

/-- The table `parsed_page`. -/
def parsedPage : Table ProgressStore ParsedPage where
  rows := ProgressStore.parsedPages
  setRows rows s := { s with parsedPages := rows }
  constraints := [.uniqueWhere fun p => some p.id,
    .uniqueWhere fun p => some (p.bookVersionId, p.pageNumber)]

/-- The table `chapter`. -/
def chapter : Table ProgressStore Chapter where
  rows := ProgressStore.chapters
  setRows rows s := { s with chapters := rows }
  constraints := [.uniqueWhere fun c => some c.id,
    .uniqueWhere fun c => some (c.bookVersionId, c.orderIndex)]

/-- The table `scene`. -/
def scene : Table ProgressStore Scene where
  rows := ProgressStore.scenes
  setRows rows s := { s with scenes := rows }
  constraints := [.uniqueWhere fun scene => some scene.id]

/-- The table `scene_semantics`. -/
def semantics : Table ProgressStore SceneSemantics where
  rows := ProgressStore.sceneSemantics
  setRows rows s := { s with sceneSemantics := rows }
  constraints := [.uniqueWhere fun r => some r.id,
    .uniqueWhere fun r => some (r.sceneId, r.storyBibleVersionId)]

/-- The key of `audio_script_current_key`. -/
def scriptCurrentKey (script : AudioScript) : Option Id :=
  if script.isCurrent then some script.bookId else none

/-- The table `audio_script`. -/
def audioScript : Table ProgressStore AudioScript where
  rows := ProgressStore.audioScripts
  setRows rows s := { s with audioScripts := rows }
  constraints := [.uniqueWhere fun script => some script.id, .uniqueWhere scriptCurrentKey,
    .selfReference AudioScript.id AudioScript.supersededBy]

/-- The key of `audio_script_chunk_sequence_current_key`. -/
def chunkSequenceKey (c : AudioScriptChunk) : Option (Id × ℕ) :=
  if c.isCurrent then some (c.audioScriptId, c.sequenceIndex) else none

/-- The table `audio_script_chunk`. -/
def audioScriptChunk : Table ProgressStore AudioScriptChunk where
  rows := ProgressStore.audioScriptChunks
  setRows rows s := { s with audioScriptChunks := rows }
  constraints := [.uniqueWhere fun c => some c.id, .uniqueWhere chunkSequenceKey,
    .selfReference AudioScriptChunk.id AudioScriptChunk.supersedes,
    .selfReference AudioScriptChunk.id AudioScriptChunk.supersededBy]

/-- The key of `audio_chunk_current_key`. -/
def audioCurrentKey (a : AudioChunk) : Option Id :=
  if a.isCurrent then some a.audioScriptChunkId else none

/-- The table `audio_chunk`. -/
def audioChunk : Table ProgressStore AudioChunk where
  rows := ProgressStore.audioChunks
  setRows rows s := { s with audioChunks := rows }
  constraints := [.uniqueWhere fun a => some a.id, .uniqueWhere audioCurrentKey,
    .selfReference AudioChunk.id AudioChunk.supersedes,
    .selfReference AudioChunk.id AudioChunk.supersededBy]

/-- The key of `chapter_audio_current_key`. -/
def chapterAudioCurrentKey (a : ChapterAudio) : Option Id :=
  if a.isCurrent && !a.isPreviewBuild then some a.chapterId else none

/-- The table `chapter_audio`. -/
def chapterAudio : Table ProgressStore ChapterAudio where
  rows := ProgressStore.chapterAudios
  setRows rows s := { s with chapterAudios := rows }
  constraints := [.uniqueWhere fun a => some a.id, .uniqueWhere chapterAudioCurrentKey]

end ProgressStore

open ProgressStore

abbrev ProgressTx := Transaction ProgressStore Violation

def newId : ProgressTx Id := do
  let s ← get
  set { s with nextId := s.nextId + 1 }
  return s.nextId

def newIds (n : ℕ) : ProgressTx (List Id) := do
  let s ← get
  set { s with nextId := s.nextId + n }
  return List.range' s.nextId n

/-- A row that a foreign key asks for. -/
def referenced {ρ : Type} (row : Option ρ) : ProgressTx ρ :=
  match row with
  | some row => pure row
  | none => throw .foreignKey

/-! ## Ingestion -/

/-- What `persistIngestionResult` stores. -/
structure IngestionResult where
  contentHash : Hash
  pipelineVersion : ℕ
  /-- What `deriveBookVersionStatus` makes of it. -/
  status : BookVersionStatus
  /-- The number and status of each page; there are none for a source without pages. -/
  pages : Option (List (ℕ × ParsedPageStatus))
  chapters : ℕ

def IngestionResult.version (r : IngestionResult) (bookVersionId bookId : Id) : BookVersion where
  id := bookVersionId
  bookId := bookId
  isCurrent := true
  status := r.status
  pagesTotal := r.pages.map List.length
  contentHash := r.contentHash
  pipelineVersion := r.pipelineVersion

/-- The `parsed_page` rows. -/
def IngestionResult.pageRows (r : IngestionResult) (bookVersionId bookId : Id)
    (pageIds : List Id) : List ParsedPage :=
  (pageIds.zip (r.pages.getD [])).map fun (id, pageNumber, status) =>
    { id, bookId, bookVersionId, pageNumber, status }

/-- The `chapter` rows. -/
def chapterRows (bookVersionId bookId : Id) (chapterIds : List Id) : List Chapter :=
  chapterIds.zipIdx.map fun (id, orderIndex) => { id, bookId, bookVersionId, orderIndex }

/-- The transaction of `persistIngestionResult`: the same content again is a merge. -/
def persistIngestionResult (bookId : Id) (r : IngestionResult) : ProgressTx Unit := do
  let s ← get
  if s.bookVersions.any fun v => decide (v.bookId = bookId ∧
      v.pipelineVersion = r.pipelineVersion ∧ v.contentHash = r.contentHash ∧
      v.supersededBy = none) then
    pure ()
  else
    let bookVersionId ← newId
    bookVersion.insert (r.version bookVersionId bookId)
    bookVersion.update
      (fun v => decide (v.bookId = bookId ∧ v.id ≠ bookVersionId) && v.isCurrent)
      fun v => { v with isCurrent := false, supersededBy := some bookVersionId }
    let pageIds ← newIds (r.pages.getD []).length
    parsedPage.insertMany (r.pageRows bookVersionId bookId pageIds)
    let chapterIds ← newIds r.chapters
    chapter.insertMany (chapterRows bookVersionId bookId chapterIds)

/-! ## Analysis -/

/-- The scenes that `analyze_scene` stores for a chapter, each with its semantics. The book and the
version of the job are those of the chapter. -/
def persistScenes (c : Chapter) (storyBibleVersionId : Id) : ℕ → ProgressTx Unit
  | 0 => pure ()
  | n + 1 => do
      let sceneId ← newId
      scene.insert ⟨sceneId, c.bookId, c.bookVersionId, c.id⟩
      let semanticsId ← newId
      semantics.insert ⟨semanticsId, c.bookId, sceneId, storyBibleVersionId⟩
      persistScenes c storyBibleVersionId n

/-- The second session of `analyze_scene`. -/
def analyzeScene (chapterId storyBibleVersionId : Id) (scenes : ℕ) : ProgressTx Unit := do
  let s ← get
  let c ← referenced (s.chapters.find? fun c => decide (c.id = chapterId))
  persistScenes c storyBibleVersionId scenes

/-! ## The Director -/

def createDraftAudioScript (bookId : Id) : ProgressTx Unit := do
  let id ← newId
  audioScript.insert { id, bookId, isCurrent := false, state := .draft }

def finalizeAudioScript (audioScriptId bookId : Id) : ProgressTx Unit := do
  audioScript.update (fun script => decide (script.id = audioScriptId)) fun script =>
    { script with state := .validated, isCurrent := true }
  audioScript.update
    (fun script => decide (script.bookId = bookId ∧ script.id ≠ audioScriptId) && script.isCurrent)
    fun script =>
      { script with isCurrent := false, state := .superseded, supersededBy := some audioScriptId }

/-- The rows of `insert_chunks`: the sequence index of each chunk, and whether it is flagged. -/
def chunkRows (script : AudioScript) (ids : List Id) (chunks : List (ℕ × Bool)) :
    List AudioScriptChunk :=
  (ids.zip chunks).map fun (id, sequenceIndex, flagged) =>
    { id
      bookId := script.bookId
      audioScriptId := script.id
      sequenceIndex
      isCurrent := true
      state := .draft
      flagged }

/-- The last session of `generate_director_ir`: the chunks of a chapter; after the last chapter the
script is finalized with them. -/
def persistChapter (audioScriptId : Id) (chunks : List (ℕ × Bool)) (isLastChapter : Bool) :
    ProgressTx Unit := do
  let s ← get
  let script ← referenced (s.audioScripts.find? fun script => decide (script.id = audioScriptId))
  let ids ← newIds chunks.length
  audioScriptChunk.insertMany (chunkRows script ids chunks)
  if isLastChapter then finalizeAudioScript audioScriptId script.bookId else pure ()

/-- `update_chunk_in_place`, an edit of the chunk, or its lock: flags and state change. -/
def updateChunk (chunkId : Id) (flagged : Bool) (state : AudioScriptChunkState) :
    ProgressTx Unit :=
  audioScriptChunk.update (fun c => decide (c.id = chunkId)) fun c => { c with flagged, state }

/-- `supersede_locked_chunk`: the new version is inserted before the old one is retired. -/
def supersedeLockedChunk (chunkId : Id) (flagged : Bool) : ProgressTx Unit := do
  let s ← get
  let old ← referenced (s.audioScriptChunks.find? fun c => decide (c.id = chunkId) && c.isCurrent)
  let id ← newId
  audioScriptChunk.insert
    { old with id, flagged, state := .draft, supersedes := some chunkId, supersededBy := none }
  audioScriptChunk.update (fun c => decide (c.id = chunkId)) fun c =>
    { c with isCurrent := false, supersededBy := some id }

/-! ## Audio -/

/-- `insert_audio_chunk`. The old row is pointed at the new one before that is inserted. -/
def insertAudioChunk (chunkId : Id) (pass : Bool) : ProgressTx Unit := do
  let s ← get
  let c ← referenced (s.audioScriptChunks.find? fun c => decide (c.id = chunkId))
  let id ← newId
  let old := s.audioChunks.find? fun a => decide (a.audioScriptChunkId = chunkId) && a.isCurrent
  audioChunk.update (fun a => decide (some a.id = old.map AudioChunk.id)) fun a =>
    { a with isCurrent := false, status := .superseded, supersededBy := some id }
  audioChunk.insert {
    id
    bookId := c.bookId
    audioScriptChunkId := chunkId
    isCurrent := true
    status := if pass then .validated else .invalid
    supersedes := old.map AudioChunk.id }

/-- The transaction of `processAssembleChapterJob`. -/
def assembleChapter (chapterId : Id) : ProgressTx Unit := do
  let s ← get
  let c ← referenced (s.chapters.find? fun c => decide (c.id = chapterId))
  chapterAudio.update (fun a => decide (a.chapterId = chapterId) && a.isCurrent) fun a =>
    { a with isCurrent := false }
  let id ← newId
  chapterAudio.insert { id, bookId := c.bookId, chapterId, isCurrent := true, status := .assembled }

/-! ## What They Commit -/

section Commits

variable {s s' : ProgressStore}

theorem get_bind_eq_ok_iff {f : ProgressStore → ProgressTx Unit} :
    (get >>= f) s = .ok ((), s') ↔ f s s = .ok ((), s') := Iff.rfl

theorem newId_bind_eq_ok_iff {f : Id → ProgressTx Unit} :
    (newId >>= f) s = .ok ((), s') ↔ f s.nextId { s with nextId := s.nextId + 1 } = .ok ((), s') :=
  Iff.rfl

theorem newIds_bind_eq_ok_iff {n : ℕ} {f : List Id → ProgressTx Unit} :
    (newIds n >>= f) s = .ok ((), s') ↔
      f (List.range' s.nextId n) { s with nextId := s.nextId + n } = .ok ((), s') := Iff.rfl

theorem referenced_bind_eq_ok_iff {ρ : Type} {row : Option ρ} {f : ρ → ProgressTx Unit} :
    (referenced row >>= f) s = .ok ((), s') ↔ ∃ r, row = some r ∧ f r s = .ok ((), s') := by
  cases row with
  | none =>
    constructor
    · intro h
      cases h
    · rintro ⟨r, hr, -⟩
      cases hr
  | some r =>
    constructor
    · intro h
      exact ⟨r, rfl, h⟩
    · rintro ⟨r', hr, h⟩
      cases hr
      exact h

theorem persistIngestionResult_commits {bookId : Id} {r : IngestionResult}
    (h : persistIngestionResult bookId r s = .ok ((), s')) :
    s' = s ∨ ∃ bookVersionId nextId pageIds chapterIds,
      bookVersionId ∉ s.bookVersions.map BookVersion.id ∧
      UniqueWhere versionCurrentKey (s.bookVersions ++ [r.version bookVersionId bookId]) ∧
      s' = { s with
        bookVersions := s.bookVersions ++ [r.version bookVersionId bookId]
        parsedPages := s.parsedPages ++ r.pageRows bookVersionId bookId pageIds
        chapters := s.chapters ++ chapterRows bookVersionId bookId chapterIds
        nextId } := by
  unfold persistIngestionResult at h
  rw [get_bind_eq_ok_iff] at h
  split at h
  · exact .inl (Transaction.pure_eq_ok_iff.mp h).2.symm
  right
  rw [newId_bind_eq_ok_iff] at h
  obtain ⟨_, s₁, hversion, h⟩ := Transaction.bind_eq_ok_iff.mp h
  obtain ⟨haccepts, rfl⟩ := (Table.insert_eq_ok_iff _).mp hversion
  have hids := (Constraint.holds_uniqueWhere _ _).mp (haccepts _ (.head _))
  have hunique := (Constraint.holds_uniqueWhere _ _).mp (haccepts _ (.tail _ (.head _)))
  obtain ⟨_, s₂, hretire, h⟩ := Transaction.bind_eq_ok_iff.mp h
  obtain ⟨-, rfl⟩ := (Table.update_eq_ok_iff _).mp hretire
  rw [newIds_bind_eq_ok_iff] at h
  obtain ⟨_, s₃, hpages, h⟩ := Transaction.bind_eq_ok_iff.mp h
  obtain ⟨-, rfl⟩ := (Table.insertMany_eq_ok_iff _).mp hpages
  rw [newIds_bind_eq_ok_iff] at h
  obtain ⟨-, rfl⟩ := (Table.insertMany_eq_ok_iff _).mp h
  -- the new version is the only current one of the book, so no other version is retired
  have hnone : ∀ v ∈ s.bookVersions ++ [r.version s.nextId bookId],
      (decide (v.bookId = bookId ∧ v.id ≠ s.nextId) && v.isCurrent) = false := by
    intro v hv
    by_contra hp
    simp only [Bool.not_eq_false, Bool.and_eq_true, decide_eq_true_eq] at hp
    have hkey : versionCurrentKey v = some bookId := by simp [versionCurrentKey, hp.1.1, hp.2]
    have hnew := hunique.eq_of_key hv (List.mem_append_right _ (List.mem_singleton_self _)) hkey rfl
    exact hp.1.2 (congrArg BookVersion.id hnew)
  let pages := (r.pages.getD []).length
  refine ⟨s.nextId, s.nextId + 1 + pages + r.chapters, List.range' (s.nextId + 1) pages,
    List.range' (s.nextId + 1 + pages) r.chapters, ?_, hunique, ?_⟩
  · intro hmem
    have hnodup := uniqueWhere_some.mp hids
    simp only [List.map_append, List.nodup_append] at hnodup
    exact hnodup.2.2 _ hmem _ (List.mem_singleton_self _) rfl
  · simp only [bookVersion, parsedPage, chapter, updateWhere_eq_self hnone]
    rfl

theorem persistScenes_commits {c : Chapter} {storyBibleVersionId : Id} {n : ℕ}
    (h : persistScenes c storyBibleVersionId n s = .ok ((), s')) :
    ∃ scenes semantics nextId,
      (∀ r ∈ scenes, r.bookId = c.bookId ∧ r.bookVersionId = c.bookVersionId) ∧
      References (fun r => (r.sceneId, r.bookId)) (fun r : Scene => (r.id, r.bookId))
        semantics scenes ∧
      s' = { s with
        scenes := s.scenes ++ scenes
        sceneSemantics := s.sceneSemantics ++ semantics
        nextId } := by
  induction n generalizing s with
  | zero =>
    obtain ⟨-, rfl⟩ := Transaction.pure_eq_ok_iff.mp h
    exact ⟨[], [], s.nextId, fun _ h => absurd h List.not_mem_nil, references_nil, by simp⟩
  | succ n ih =>
    unfold persistScenes at h
    rw [newId_bind_eq_ok_iff] at h
    obtain ⟨_, s₁, hscene, h⟩ := Transaction.bind_eq_ok_iff.mp h
    obtain ⟨-, rfl⟩ := (Table.insert_eq_ok_iff _).mp hscene
    rw [newId_bind_eq_ok_iff] at h
    obtain ⟨_, s₂, hsemantics, h⟩ := Transaction.bind_eq_ok_iff.mp h
    obtain ⟨-, rfl⟩ := (Table.insert_eq_ok_iff _).mp hsemantics
    obtain ⟨scenes, rows, nextId, hscenes, hrefs, rfl⟩ := ih h
    refine ⟨⟨s.nextId, c.bookId, c.bookVersionId, c.id⟩ :: scenes,
      ⟨s.nextId + 1, c.bookId, s.nextId, storyBibleVersionId⟩ :: rows, nextId, ?_, ?_, ?_⟩
    · exact List.forall_mem_cons.mpr ⟨⟨rfl, rfl⟩, hscenes⟩
    · refine List.forall_mem_cons.mpr ⟨⟨_, List.mem_cons_self, rfl⟩, fun r hr => ?_⟩
      obtain ⟨scene, hmem, hkey⟩ := hrefs r hr
      exact ⟨scene, List.mem_cons_of_mem _ hmem, hkey⟩
    · simp [scene, semantics]

theorem analyzeScene_commits {chapterId storyBibleVersionId : Id} {n : ℕ}
    (h : analyzeScene chapterId storyBibleVersionId n s = .ok ((), s')) :
    ∃ c ∈ s.chapters, ∃ scenes semantics nextId,
      (∀ r ∈ scenes, r.bookId = c.bookId ∧ r.bookVersionId = c.bookVersionId) ∧
      References (fun r => (r.sceneId, r.bookId)) (fun r : Scene => (r.id, r.bookId))
        semantics scenes ∧
      s' = { s with
        scenes := s.scenes ++ scenes
        sceneSemantics := s.sceneSemantics ++ semantics
        nextId } := by
  unfold analyzeScene at h
  rw [get_bind_eq_ok_iff] at h
  obtain ⟨c, hfound, h⟩ := referenced_bind_eq_ok_iff.mp h
  exact ⟨c, List.mem_of_find?_eq_some hfound, persistScenes_commits h⟩

theorem createDraftAudioScript_commits {bookId : Id}
    (h : createDraftAudioScript bookId s = .ok ((), s')) :
    ∃ script nextId,
      UniqueWhere scriptCurrentKey (s.audioScripts ++ [script]) ∧
      s' = { s with audioScripts := s.audioScripts ++ [script], nextId } := by
  unfold createDraftAudioScript at h
  rw [newId_bind_eq_ok_iff] at h
  obtain ⟨haccepts, rfl⟩ := (Table.insert_eq_ok_iff _).mp h
  have hunique := (Constraint.holds_uniqueWhere _ _).mp (haccepts _ (.tail _ (.head _)))
  exact ⟨_, _, hunique, rfl⟩

def withCurrent (audioScriptId : Id) : List AudioScript → List AudioScript :=
  updateWhere (fun script => decide (script.id = audioScriptId)) fun script =>
    { script with state := .validated, isCurrent := true }

theorem persistChapter_commits {audioScriptId : Id} {chunks : List (ℕ × Bool)} {isLastChapter : Bool}
    (h : persistChapter audioScriptId chunks isLastChapter s = .ok ((), s')) :
    ∃ script ids nextId scripts,
      s.audioScripts.find? (fun script => decide (script.id = audioScriptId)) = some script ∧
      (isLastChapter = false → scripts = s.audioScripts) ∧
      (isLastChapter = true → UniqueWhere scriptCurrentKey scripts ∧
        scripts = withCurrent audioScriptId s.audioScripts) ∧
      s' = { s with
        audioScripts := scripts
        audioScriptChunks := s.audioScriptChunks ++ chunkRows script ids chunks
        nextId } := by
  unfold persistChapter at h
  rw [get_bind_eq_ok_iff] at h
  obtain ⟨script, hfound, h⟩ := referenced_bind_eq_ok_iff.mp h
  have hmem := List.mem_of_find?_eq_some hfound
  have hid : script.id = audioScriptId := by simpa using List.find?_some hfound
  rw [newIds_bind_eq_ok_iff] at h
  obtain ⟨_, s₁, hchunks, h⟩ := Transaction.bind_eq_ok_iff.mp h
  obtain ⟨-, rfl⟩ := (Table.insertMany_eq_ok_iff _).mp hchunks
  split at h
  · rename_i hlast
    unfold finalizeAudioScript at h
    obtain ⟨_, s₂, hcurrent, h⟩ := Transaction.bind_eq_ok_iff.mp h
    obtain ⟨haccepts, rfl⟩ := (Table.update_eq_ok_iff _).mp hcurrent
    obtain ⟨-, rfl⟩ := (Table.update_eq_ok_iff _).mp h
    have hunique := (Constraint.holds_uniqueWhere _ _).mp (haccepts _ (.tail _ (.head _)))
    have hcurrent : { script with state := .validated, isCurrent := true } ∈
        withCurrent audioScriptId s.audioScripts :=
      mem_updateWhere.mpr (.inl ⟨script, hmem, decide_eq_true hid, rfl⟩)
    -- the script is now the only current one of its book, so no other script is retired
    have hnone : ∀ other ∈ withCurrent audioScriptId s.audioScripts,
        (decide (other.bookId = script.bookId ∧ other.id ≠ audioScriptId) && other.isCurrent)
          = false := by
      intro other hother
      by_contra hp
      simp only [Bool.not_eq_false, Bool.and_eq_true, decide_eq_true_eq] at hp
      have hkey : scriptCurrentKey other = some script.bookId := by
        simp [scriptCurrentKey, hp.1.1, hp.2]
      have hnew := hunique.eq_of_key hother hcurrent hkey rfl
      exact hp.1.2 ((congrArg AudioScript.id hnew).trans hid)
    refine ⟨script, List.range' s.nextId chunks.length, s.nextId + chunks.length, _, hfound,
      fun hfalse => ?_, fun _ => ⟨hunique, rfl⟩, ?_⟩
    · rw [hlast] at hfalse
      cases hfalse
    · show { s with audioScripts := updateWhere _ _ (withCurrent audioScriptId s.audioScripts)
                    audioScriptChunks := _, nextId := _ } = _
      rw [updateWhere_eq_self hnone]
      rfl
  · rename_i hlast
    obtain ⟨-, rfl⟩ := Transaction.pure_eq_ok_iff.mp h
    exact ⟨script, _, _, _, hfound, fun _ => rfl, fun htrue => absurd htrue hlast, rfl⟩

theorem not_supersedeLockedChunk_commits {chunkId : Id} {flagged : Bool}
    (h : supersedeLockedChunk chunkId flagged s = .ok ((), s')) : False := by
  unfold supersedeLockedChunk at h
  rw [get_bind_eq_ok_iff] at h
  obtain ⟨old, hfound, h⟩ := referenced_bind_eq_ok_iff.mp h
  have hmem := List.mem_of_find?_eq_some hfound
  have hold := List.find?_some hfound
  simp only [Bool.and_eq_true, decide_eq_true_eq] at hold
  rw [newId_bind_eq_ok_iff] at h
  obtain ⟨_, s₁, hinsert, -⟩ := Transaction.bind_eq_ok_iff.mp h
  obtain ⟨haccepts, -⟩ := (Table.insert_eq_ok_iff _).mp hinsert
  have hunique := (Constraint.holds_uniqueWhere _ _).mp (haccepts _ (.tail _ (.head _)))
  have hkey : ∀ c : AudioScriptChunk, c.isCurrent = true →
      chunkSequenceKey c = some (c.audioScriptId, c.sequenceIndex) := by
    intro c hc
    simp [chunkSequenceKey, hc]
  exact (uniqueWhere_concat_iff.mp hunique).2 _ (hkey _ hold.2) old hmem (hkey _ hold.2)

theorem insertAudioChunk_commits {chunkId : Id} {pass : Bool}
    (h : insertAudioChunk chunkId pass s = .ok ((), s')) :
    ∃ c ∈ s.audioScriptChunks, ∃ a nextId,
      c.id = chunkId ∧ a.audioScriptChunkId = chunkId ∧ a.bookId = c.bookId ∧
      UniqueWhere audioCurrentKey (s.audioChunks ++ [a]) ∧
      s' = { s with audioChunks := s.audioChunks ++ [a], nextId } := by
  unfold insertAudioChunk at h
  rw [get_bind_eq_ok_iff] at h
  obtain ⟨c, hfound, h⟩ := referenced_bind_eq_ok_iff.mp h
  have hmem := List.mem_of_find?_eq_some hfound
  have hid : c.id = chunkId := by simpa using List.find?_some hfound
  rw [newId_bind_eq_ok_iff] at h
  generalize hold : (s.audioChunks.find? fun a =>
    decide (a.audioScriptChunkId = chunkId) && a.isCurrent) = old at h
  obtain ⟨_, s₁, hretire, h⟩ := Transaction.bind_eq_ok_iff.mp h
  obtain ⟨hretired, rfl⟩ := (Table.update_eq_ok_iff _).mp hretire
  obtain ⟨haccepts, rfl⟩ := (Table.insert_eq_ok_iff _).mp h
  have hunique := (Constraint.holds_uniqueWhere _ _).mp (haccepts _ (.tail _ (.head _)))
  let retired := fun a : AudioChunk =>
    { a with isCurrent := false, status := .superseded, supersededBy := some s.nextId }
  cases old with
  | some a =>
    -- the retired row refers to an id that the insertion still finds free
    have hids := (Constraint.holds_uniqueWhere _ _).mp (haccepts _ (.head _))
    have hrefs := (Constraint.holds_selfReference _ _ _).mp
      (hretired _ (.tail _ (.tail _ (.tail _ (.head _)))))
    have hmatches : decide (some a.id = Option.map AudioChunk.id (some a)) = true :=
      decide_eq_true rfl
    have hused := hrefs (retired a)
      (mem_updateWhere.mpr (.inl ⟨a, List.mem_of_find?_eq_some hold, hmatches, rfl⟩)) s.nextId rfl
    obtain ⟨taken, htaken, hkey⟩ := List.mem_map.mp hused
    exact absurd (congrArg some hkey)
      ((uniqueWhere_concat_iff.mp hids).2 _ rfl taken htaken)
  | none =>
    have hsame : updateWhere (fun a => decide (some a.id = Option.map AudioChunk.id none)) retired
        s.audioChunks = s.audioChunks := updateWhere_eq_self fun a _ => rfl
    change UniqueWhere audioCurrentKey (updateWhere _ retired s.audioChunks ++ _) at hunique
    rw [hsame] at hunique
    refine ⟨c, hmem, _, s.nextId + 1, hid, rfl, rfl, hunique, ?_⟩
    show { s with audioChunks := updateWhere _ retired s.audioChunks ++ _, nextId := _ } = _
    rw [hsame]
    rfl

theorem assembleChapter_commits {chapterId : Id}
    (h : assembleChapter chapterId s = .ok ((), s')) :
    ∃ c ∈ s.chapters, ∃ a nextId rows,
      c.id = chapterId ∧ a.chapterId = chapterId ∧ a.bookId = c.bookId ∧
      a.isPreviewBuild = false ∧
      rows = updateWhere (fun a => decide (a.chapterId = chapterId) && a.isCurrent)
        (fun a => { a with isCurrent := false }) s.chapterAudios ∧
      UniqueWhere chapterAudioCurrentKey (rows ++ [a]) ∧
      s' = { s with chapterAudios := rows ++ [a], nextId } := by
  unfold assembleChapter at h
  rw [get_bind_eq_ok_iff] at h
  obtain ⟨c, hfound, h⟩ := referenced_bind_eq_ok_iff.mp h
  have hmem := List.mem_of_find?_eq_some hfound
  have hid : c.id = chapterId := by simpa using List.find?_some hfound
  obtain ⟨_, s₁, hretire, h⟩ := Transaction.bind_eq_ok_iff.mp h
  obtain ⟨-, rfl⟩ := (Table.update_eq_ok_iff _).mp hretire
  rw [newId_bind_eq_ok_iff] at h
  obtain ⟨haccepts, rfl⟩ := (Table.insert_eq_ok_iff _).mp h
  have hunique := (Constraint.holds_uniqueWhere _ _).mp (haccepts _ (.tail _ (.head _)))
  exact ⟨c, hmem, _, _, _, hid, rfl, rfl, rfl, rfl, hunique, rfl⟩

end Commits

/-! ## The Writers -/

inductive ProgressWrite
  | ingest (bookId : Id) (r : IngestionResult)
  | analyzeScene (chapterId storyBibleVersionId : Id) (scenes : ℕ)
  | createDraftAudioScript (bookId : Id)
  | persistChapter (audioScriptId : Id) (chunks : List (ℕ × Bool)) (isLastChapter : Bool)
  | updateChunk (chunkId : Id) (flagged : Bool) (state : AudioScriptChunkState)
  | supersedeLockedChunk (chunkId : Id) (flagged : Bool)
  | insertAudioChunk (chunkId : Id) (pass : Bool)
  | assembleChapter (chapterId : Id)
  | setJobs (jobs : List (Id × JobType × JobStatus))

def ProgressWrite.run : ProgressWrite → ProgressTx Unit
  | ingest bookId r => persistIngestionResult bookId r
  | analyzeScene chapterId storyBibleVersionId scenes =>
      Progress.analyzeScene chapterId storyBibleVersionId scenes
  | createDraftAudioScript bookId => Progress.createDraftAudioScript bookId
  | persistChapter audioScriptId chunks isLastChapter =>
      Progress.persistChapter audioScriptId chunks isLastChapter
  | updateChunk chunkId flagged state => Progress.updateChunk chunkId flagged state
  | supersedeLockedChunk chunkId flagged => Progress.supersedeLockedChunk chunkId flagged
  | insertAudioChunk chunkId pass => Progress.insertAudioChunk chunkId pass
  | assembleChapter chapterId => Progress.assembleChapter chapterId
  | setJobs jobs => modify fun s => { s with jobs := jobs }

end AudioBook.Progress
