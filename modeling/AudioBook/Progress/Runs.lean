import AudioBook.Concurrent.Machine
import AudioBook.Progress.Writers

/-!
# The Figures Over a Whole Run

The transactions of `ProgressWrite` in any order, from empty tables.

The unique indexes and the foreign keys let one version of a book commit, one current script, and
one audio for a chunk, so the tables never hold what could drive the counts apart. What they do let
commit is the chunks of a script that is not current: the Director stores the chunks of every
chapter, marked as current, before the script is finalized after the last one.

## Main results

* `sound_of_reachable`: what every run keeps.
* `consistentFigures_of_reachable`: the figures, over the runs that store the chunks of a script only when
  it is current or becomes so with them.
-/

namespace AudioBook.Progress

open Relational Concurrent ProgressStore

/-! ## Runs -/

def progressMachine : Machine ProgressStore ProgressWrite where
  init s := s = {}
  step w s :=
    match w.run s with
    | .ok (_, s') => some s'
    | .error _ => none

theorem progressMachine_step_eq_some {w : ProgressWrite} {s s' : ProgressStore}
    (h : progressMachine.step w s = some s') : w.run s = .ok ((), s') := by
  have hstep : (match w.run s with
    | .ok (_, s') => some s'
    | .error _ => none) = some s' := h
  split at hstep
  · rename_i hrun
    cases hstep
    exact hrun
  · cases hstep

/-- Chunks are stored for a script that is current, or that becomes so with them. -/
def ProgressWrite.Admits : ProgressWrite → ProgressStore → Prop
  | persistChapter audioScriptId chunks isLastChapter, s =>
      chunks = [] ∨ isLastChapter = true ∨
        (s.audioScripts.find? fun script => decide (script.id = audioScriptId)).any
          AudioScript.isCurrent = true
  | _, _ => True

instance (w : ProgressWrite) (s : ProgressStore) : Decidable (w.Admits s) := by
  cases w <;> unfold ProgressWrite.Admits <;> infer_instance

/-! ## What the Figures Promise -/

section Consistent

variable (bookId : Id) (s : ProgressStore)

/-- The version is the current one of the book. -/
def OfCurrentVersion (bookVersionId : Id) : Prop :=
  (currentVersion bookId s).map BookVersion.id = some bookVersionId

/-- The script is the current one of the book. -/
def OfCurrentScript (audioScriptId : Id) : Prop :=
  (currentScript bookId s).map AudioScript.id = some audioScriptId

/-- Every row that a count takes in belongs to the current version, or to the current script. -/
structure CountsOnlyCurrent : Prop where
  pages : ∀ p ∈ s.parsedPages, p.bookId = bookId → OfCurrentVersion bookId s p.bookVersionId
  scenes : ∀ r ∈ s.scenes, r.bookId = bookId → OfCurrentVersion bookId s r.bookVersionId
  semantics : ∀ r ∈ s.sceneSemantics, r.bookId = bookId →
    ∃ scene ∈ s.scenes, scene.id = r.sceneId ∧ OfCurrentVersion bookId s scene.bookVersionId
  chapters : ∀ c ∈ s.chapters, c.bookId = bookId → OfCurrentVersion bookId s c.bookVersionId
  chapterAudios : ∀ a ∈ s.chapterAudios, a.bookId = bookId → a.isCurrent = true →
    ∃ c ∈ s.chapters, c.id = a.chapterId ∧ OfCurrentVersion bookId s c.bookVersionId
  scriptChunks : ∀ c ∈ s.audioScriptChunks, c.bookId = bookId → c.isCurrent = true →
    OfCurrentScript bookId s c.audioScriptId
  audioChunks : ∀ a ∈ s.audioChunks, a.bookId = bookId → a.isCurrent = true →
    ∃ c ∈ s.audioScriptChunks, c.id = a.audioScriptChunkId ∧
      OfCurrentScript bookId s c.audioScriptId

/-- The figures of a book are consistent. -/
structure Consistent : Prop where
  withinTotal : ∀ stage ∈ computeStages bookId s, stage.WithinTotal
  inUnit : ∀ stage ∈ computeStages bookId s, stage.InUnit
  counts : CountsOnlyCurrent bookId s

end Consistent

/-! ## The Invariant -/

/-- The rows of ingestion and analysis: a book has one version, and everything belongs to it. -/
structure Ingested (s : ProgressStore) : Prop where
  current : ∀ v ∈ s.bookVersions, v.isCurrent = true
  unique : UniqueWhere versionCurrentKey s.bookVersions
  pages : References (fun p => (p.bookVersionId, p.bookId)) (fun v => (v.id, v.bookId))
    s.parsedPages s.bookVersions
  pagesTotal : ∀ v ∈ s.bookVersions,
    s.parsedPages.countP (fun p => decide (p.bookVersionId = v.id)) ≤ v.pagesTotal.getD 0
  chapters : References (fun c => (c.bookVersionId, c.bookId)) (fun v => (v.id, v.bookId))
    s.chapters s.bookVersions
  scenes : References (fun r => (r.bookVersionId, r.bookId)) (fun v => (v.id, v.bookId))
    s.scenes s.bookVersions
  semantics : References (fun r => (r.sceneId, r.bookId)) (fun r => (r.id, r.bookId))
    s.sceneSemantics s.scenes

/-- The rows of the Director and of synthesis: a chunk has one current audio. -/
structure Voiced (s : ProgressStore) : Prop where
  current : ∀ c ∈ s.audioScriptChunks, c.isCurrent = true
  unique : UniqueWhere audioCurrentKey s.audioChunks
  audio : References (fun a => (a.audioScriptChunkId, a.bookId)) (fun c => (c.id, c.bookId))
    s.audioChunks s.audioScriptChunks

/-- The rows of assembly: a chapter has one current audio. -/
structure Assembled (s : ProgressStore) : Prop where
  preview : ∀ a ∈ s.chapterAudios, a.isPreviewBuild = false
  unique : UniqueWhere chapterAudioCurrentKey s.chapterAudios
  audio : References (fun a => (a.chapterId, a.bookId)) (fun c => (c.id, c.bookId))
    s.chapterAudios s.chapters

/-- What every run keeps. -/
structure Sound (s : ProgressStore) : Prop where
  ingested : Ingested s
  voiced : Voiced s
  assembled : Assembled s

/-- Every chunk belongs to the current script of its book. -/
structure Finalized (s : ProgressStore) : Prop where
  unique : UniqueWhere scriptCurrentKey s.audioScripts
  chunks : References (fun c => (c.audioScriptId, c.bookId, true))
    (fun script => (script.id, script.bookId, script.isCurrent)) s.audioScriptChunks s.audioScripts

theorem sound_empty : Sound {} where
  ingested :=
    { current := fun _ h => absurd h List.not_mem_nil
      unique := List.nodup_nil
      pages := references_nil
      pagesTotal := fun _ h => absurd h List.not_mem_nil
      chapters := references_nil
      scenes := references_nil
      semantics := references_nil }
  voiced :=
    { current := fun _ h => absurd h List.not_mem_nil
      unique := List.nodup_nil
      audio := references_nil }
  assembled :=
    { preview := fun _ h => absurd h List.not_mem_nil
      unique := List.nodup_nil
      audio := references_nil }

theorem finalized_empty : Finalized {} where
  unique := List.nodup_nil
  chunks := references_nil

/-! ## What It Says About the Counts -/

section Counts

variable {bookId : Id} {s : ProgressStore}

theorem Ingested.currentVersion_eq_some (h : Ingested s) {v : BookVersion}
    (hv : v ∈ s.bookVersions) (hbook : v.bookId = bookId) : currentVersion bookId s = some v := by
  apply h.unique.find?_eq_some _ hv (k := bookId)
  · simp [versionCurrentKey, h.current v hv, hbook]
  · intro v'
    simp [versionCurrentKey, and_comm]

theorem Ingested.ofCurrentVersion (h : Ingested s) {ρ : Type} {rows : List ρ} {ref : ρ → Id × Id}
    (hrefs : References ref (fun v : BookVersion => (v.id, v.bookId)) rows s.bookVersions) {r : ρ}
    (hr : r ∈ rows) (hbook : (ref r).2 = bookId) : OfCurrentVersion bookId s (ref r).1 := by
  obtain ⟨v, hv, hkey⟩ := hrefs r hr
  have hid : v.id = (ref r).1 := congrArg Prod.fst hkey
  have hvbook : v.bookId = bookId := (congrArg Prod.snd hkey).trans hbook
  rw [OfCurrentVersion, h.currentVersion_eq_some hv hvbook, Option.map_some, hid]

theorem Finalized.ofCurrentScript (h : Finalized s) {c : AudioScriptChunk}
    (hc : c ∈ s.audioScriptChunks) (hbook : c.bookId = bookId) :
    OfCurrentScript bookId s c.audioScriptId := by
  obtain ⟨script, hscript, hkey⟩ := h.chunks c hc
  simp only [Prod.mk.injEq] at hkey
  obtain ⟨hid, hscriptBook, hcurrent⟩ := hkey
  have hfound : currentScript bookId s = some script := by
    apply h.unique.find?_eq_some _ hscript (k := bookId)
    · simp [scriptCurrentKey, hcurrent, hscriptBook, hbook]
    · intro script'
      simp [scriptCurrentKey, and_comm]
  rw [OfCurrentScript, hfound, Option.map_some, hid]

theorem countsOnlyCurrent (hs : Sound s) (hf : Finalized s) : CountsOnlyCurrent bookId s where
  pages p hp hbook := hs.ingested.ofCurrentVersion hs.ingested.pages hp hbook
  scenes r hr hbook := hs.ingested.ofCurrentVersion hs.ingested.scenes hr hbook
  semantics r hr hbook := by
    obtain ⟨scene, hscene, hkey⟩ := hs.ingested.semantics r hr
    simp only [Prod.mk.injEq] at hkey
    exact ⟨scene, hscene, hkey.1, hs.ingested.ofCurrentVersion hs.ingested.scenes hscene
      (hkey.2.trans hbook)⟩
  chapters c hc hbook := hs.ingested.ofCurrentVersion hs.ingested.chapters hc hbook
  chapterAudios a ha hbook _ := by
    obtain ⟨c, hc, hkey⟩ := hs.assembled.audio a ha
    simp only [Prod.mk.injEq] at hkey
    exact ⟨c, hc, hkey.1, hs.ingested.ofCurrentVersion hs.ingested.chapters hc
      (hkey.2.trans hbook)⟩
  scriptChunks c hc hbook _ := hf.ofCurrentScript hc hbook
  audioChunks a ha hbook _ := by
    obtain ⟨c, hc, hkey⟩ := hs.voiced.audio a ha
    simp only [Prod.mk.injEq] at hkey
    exact ⟨c, hc, hkey.1, hf.ofCurrentScript hc (hkey.2.trans hbook)⟩

theorem Ingested.pagesWith_le (h : Ingested s) {statuses : List ParsedPageStatus} {total : ℕ}
    (htotal : (currentVersion bookId s).bind BookVersion.pagesTotal = some total) :
    pagesWith bookId s statuses ≤ total := by
  obtain ⟨v, hfound, hpages⟩ := Option.bind_eq_some_iff.mp htotal
  have hv := List.mem_of_find?_eq_some hfound
  have hle : pagesWith bookId s statuses ≤
      s.parsedPages.countP fun p => decide (p.bookVersionId = v.id) := by
    apply List.countP_mono_left
    intro p hp hcounted
    have hbook : p.bookId = bookId := (of_decide_eq_true hcounted).1
    have hof := h.ofCurrentVersion h.pages hp hbook
    rw [OfCurrentVersion, hfound] at hof
    exact decide_eq_true (Option.some_inj.mp hof).symm
  have htotal := h.pagesTotal v hv
  rw [hpages] at htotal
  exact hle.trans htotal

theorem Voiced.audioWith_le (h : Voiced s) (statuses : List AudioChunkStatus) :
    audioWith bookId s statuses ≤ chunkCount bookId s := by
  apply countP_le_countP_of_references AudioChunk.audioScriptChunkId AudioScriptChunk.id h.unique
  · intro a _ hcounted
    simp only [Bool.and_eq_true, decide_eq_true_eq] at hcounted
    simp [audioCurrentKey, hcounted.2]
  · intro a ha hcounted
    obtain ⟨c, hc, hkey⟩ := h.audio a ha
    simp only [Prod.mk.injEq] at hkey
    simp only [Bool.and_eq_true, decide_eq_true_eq] at hcounted
    refine ⟨c, hc, ?_, hkey.1⟩
    simp [hkey.2, hcounted.1.1, h.current c hc]

theorem chapterAudioWith_le (h : Assembled s) (status : ChapterAudioStatus) :
    chapterAudioWith bookId s status ≤ chapterCount bookId s := by
  apply countP_le_countP_of_references ChapterAudio.chapterId Chapter.id h.unique
  · intro a ha hcounted
    simp only [Bool.and_eq_true, decide_eq_true_eq] at hcounted
    simp [chapterAudioCurrentKey, hcounted.2, h.preview a ha]
  · intro a ha hcounted
    obtain ⟨c, hc, hkey⟩ := h.audio a ha
    simp only [Prod.mk.injEq] at hkey
    simp only [Bool.and_eq_true, decide_eq_true_eq] at hcounted
    exact ⟨c, hc, decide_eq_true (hkey.2.trans hcounted.1.1), hkey.1⟩

theorem Sound.withinTotal (h : Sound s) : ∀ stage ∈ computeStages bookId s, stage.WithinTotal :=
  (completed_le_total_iff bookId s).mpr
    ⟨fun _ htotal => h.ingested.pagesWith_le htotal, fun _ => h.voiced.audioWith_le _,
      fun _ => chapterAudioWith_le h.assembled _⟩

end Counts

/-! ## What a Transaction Keeps -/

section Steps

variable {s s' : ProgressStore}

theorem length_pageRows_le (r : IngestionResult) (bookVersionId bookId : Id) (pageIds : List Id) :
    (r.pageRows bookVersionId bookId pageIds).length ≤
      (r.version bookVersionId bookId).pagesTotal.getD 0 := by
  have htotal : (r.version bookVersionId bookId).pagesTotal.getD 0 = (r.pages.getD []).length := by
    show (r.pages.map List.length).getD 0 = _
    cases r.pages <;> rfl
  rw [htotal, IngestionResult.pageRows, List.length_map, List.length_zip]
  exact min_le_right _ _

theorem Ingested.persistIngestionResult (hs : Ingested s) {bookId : Id} {r : IngestionResult}
    (h : Progress.persistIngestionResult bookId r s = .ok ((), s')) : Ingested s' := by
  obtain rfl | ⟨bookVersionId, nextId, pageIds, chapterIds, hnew, hunique, rfl⟩ :=
    persistIngestionResult_commits h
  · exact hs
  -- the rows of the result all carry the new version
  have hpages : ∀ p ∈ r.pageRows bookVersionId bookId pageIds,
      p.bookVersionId = bookVersionId ∧ p.bookId = bookId := by
    intro p hp
    obtain ⟨-, -, rfl⟩ := List.mem_map.mp hp
    exact ⟨rfl, rfl⟩
  have hchapters : ∀ c ∈ chapterRows bookVersionId bookId chapterIds,
      c.bookVersionId = bookVersionId ∧ c.bookId = bookId := by
    intro c hc
    obtain ⟨-, -, rfl⟩ := List.mem_map.mp hc
    exact ⟨rfl, rfl⟩
  have hmem : r.version bookVersionId bookId ∈
      s.bookVersions ++ [r.version bookVersionId bookId] :=
    List.mem_append_right _ (List.mem_singleton_self _)
  refine
    { current := ?_
      unique := hunique
      pages := hs.pages.append_key.append_ref ?_
      pagesTotal := ?_
      chapters := hs.chapters.append_key.append_ref ?_
      scenes := hs.scenes.append_key
      semantics := hs.semantics }
  · intro v hv
    rcases List.mem_append.mp hv with hv | hv
    · exact hs.current v hv
    · cases List.mem_singleton.mp hv
      rfl
  · intro p hp
    exact ⟨_, hmem, Prod.ext (hpages p hp).1.symm (hpages p hp).2.symm⟩
  · intro v hv
    rw [List.countP_append]
    rcases List.mem_append.mp hv with hv | hv
    · have hother : ∀ p ∈ r.pageRows bookVersionId bookId pageIds,
          ¬ decide (p.bookVersionId = v.id) = true := by
        intro p hp hcounted
        have hid := (hpages p hp).1.symm.trans (of_decide_eq_true hcounted)
        exact hnew (List.mem_map.mpr ⟨v, hv, hid.symm⟩)
      rw [List.countP_eq_zero.mpr hother]
      exact hs.pagesTotal v hv
    · cases List.mem_singleton.mp hv
      -- no page before refers to an id that no version has
      have hother : ∀ p ∈ s.parsedPages, ¬ decide (p.bookVersionId = bookVersionId) = true := by
        intro p hp hcounted
        obtain ⟨v, hv, hkey⟩ := hs.pages p hp
        have hid := (congrArg Prod.fst hkey).trans (of_decide_eq_true hcounted)
        exact hnew (List.mem_map.mpr ⟨v, hv, hid⟩)
      have hnone : s.parsedPages.countP
          (fun p => decide (p.bookVersionId = (r.version bookVersionId bookId).id)) = 0 :=
        List.countP_eq_zero.mpr hother
      rw [hnone, Nat.zero_add]
      exact List.countP_le_length.trans (length_pageRows_le r bookVersionId bookId pageIds)
  · intro c hc
    exact ⟨_, hmem, Prod.ext (hchapters c hc).1.symm (hchapters c hc).2.symm⟩

theorem Ingested.analyzeScene (hs : Ingested s) {chapterId storyBibleVersionId : Id} {n : ℕ}
    (h : Progress.analyzeScene chapterId storyBibleVersionId n s = .ok ((), s')) : Ingested s' := by
  obtain ⟨c, hc, scenes, semantics, nextId, hscenes, hsemantics, rfl⟩ := analyzeScene_commits h
  obtain ⟨v, hv, hkey⟩ := hs.chapters c hc
  refine { hs with scenes := hs.scenes.append_ref ?_, semantics := ?_ }
  · intro r hr
    obtain ⟨hbook, hversion⟩ := hscenes r hr
    exact ⟨v, hv, hkey.trans (Prod.ext hversion.symm hbook.symm)⟩
  · apply hs.semantics.append_key.append_ref
    intro r hr
    obtain ⟨scene, hscene, hkey⟩ := hsemantics r hr
    exact ⟨scene, List.mem_append_right _ hscene, hkey⟩

theorem Voiced.persistChapter (hs : Voiced s) {audioScriptId : Id} {chunks : List (ℕ × Bool)}
    {isLastChapter : Bool}
    (h : Progress.persistChapter audioScriptId chunks isLastChapter s = .ok ((), s')) :
    Voiced s' := by
  obtain ⟨script, ids, nextId, scripts, -, -, -, rfl⟩ := persistChapter_commits h
  refine { hs with current := ?_, audio := hs.audio.append_key }
  intro c hc
  rcases List.mem_append.mp hc with hc | hc
  · exact hs.current c hc
  · obtain ⟨-, -, rfl⟩ := List.mem_map.mp hc
    rfl

theorem Voiced.updateChunk (hs : Voiced s) {chunkId : Id} {flagged : Bool}
    {state : AudioScriptChunkState}
    (h : Progress.updateChunk chunkId flagged state s = .ok ((), s')) : Voiced s' := by
  obtain ⟨-, rfl⟩ := (Table.update_eq_ok_iff _).mp h
  refine { hs with current := ?_, audio := hs.audio.updateWhere_key fun _ _ _ _ hkey => hkey }
  exact forall_mem_updateWhere hs.current fun c hc _ => hs.current c hc

theorem Voiced.insertAudioChunk (hs : Voiced s) {chunkId : Id} {pass : Bool}
    (h : Progress.insertAudioChunk chunkId pass s = .ok ((), s')) : Voiced s' := by
  obtain ⟨c, hc, a, nextId, hid, hchunk, hbook, hunique, rfl⟩ := insertAudioChunk_commits h
  refine { hs with unique := hunique, audio := hs.audio.append_ref ?_ }
  intro a' ha'
  cases List.mem_singleton.mp ha'
  exact ⟨c, hc, Prod.ext (hid.trans hchunk.symm) hbook.symm⟩

theorem Assembled.assembleChapter (hs : Assembled s) {chapterId : Id}
    (h : Progress.assembleChapter chapterId s = .ok ((), s')) : Assembled s' := by
  obtain ⟨c, hc, a, nextId, rows, hid, hchapter, hbook, hpreview, rfl, hunique, rfl⟩ :=
    assembleChapter_commits h
  refine { preview := ?_, unique := hunique, audio := References.append_ref ?_ ?_ }
  · intro a' ha'
    rcases List.mem_append.mp ha' with ha' | ha'
    · refine forall_mem_updateWhere hs.preview (fun a' ha' _ => ?_) a' ha'
      exact hs.preview a' ha'
    · cases List.mem_singleton.mp ha'
      exact hpreview
  · exact hs.audio.updateWhere_ref fun _ => rfl
  · intro a' ha'
    cases List.mem_singleton.mp ha'
    exact ⟨c, hc, Prod.ext (hid.trans hchapter.symm) hbook.symm⟩

theorem Sound.run (hs : Sound s) {w : ProgressWrite} (h : w.run s = .ok ((), s')) : Sound s' := by
  cases w with
  | ingest bookId r =>
    have hingested := hs.ingested.persistIngestionResult h
    obtain rfl | ⟨_, _, _, _, -, -, rfl⟩ := persistIngestionResult_commits h
    · exact hs
    · exact ⟨hingested, { hs.voiced with },
        { hs.assembled with audio := hs.assembled.audio.append_key }⟩
  | analyzeScene chapterId storyBibleVersionId n =>
    have hingested := hs.ingested.analyzeScene h
    obtain ⟨_, -, _, _, _, -, -, rfl⟩ := analyzeScene_commits h
    exact ⟨hingested, { hs.voiced with }, { hs.assembled with }⟩
  | createDraftAudioScript bookId =>
    obtain ⟨_, _, -, rfl⟩ := createDraftAudioScript_commits h
    exact ⟨{ hs.ingested with }, { hs.voiced with }, { hs.assembled with }⟩
  | persistChapter audioScriptId chunks isLastChapter =>
    have hvoiced := hs.voiced.persistChapter h
    obtain ⟨_, _, _, _, -, -, -, rfl⟩ := persistChapter_commits h
    exact ⟨{ hs.ingested with }, hvoiced, { hs.assembled with }⟩
  | updateChunk chunkId flagged state =>
    have hvoiced := hs.voiced.updateChunk h
    obtain ⟨-, rfl⟩ := (Table.update_eq_ok_iff _).mp h
    exact ⟨{ hs.ingested with }, hvoiced, { hs.assembled with }⟩
  | supersedeLockedChunk chunkId flagged => exact (not_supersedeLockedChunk_commits h).elim
  | insertAudioChunk chunkId pass =>
    have hvoiced := hs.voiced.insertAudioChunk h
    obtain ⟨_, -, _, _, -, -, -, -, rfl⟩ := insertAudioChunk_commits h
    exact ⟨{ hs.ingested with }, hvoiced, { hs.assembled with }⟩
  | assembleChapter chapterId =>
    have hassembled := hs.assembled.assembleChapter h
    obtain ⟨_, -, _, _, _, -, -, -, -, -, -, rfl⟩ := assembleChapter_commits h
    exact ⟨{ hs.ingested with }, { hs.voiced with }, hassembled⟩
  | setJobs jobs =>
    cases h
    exact ⟨{ hs.ingested with }, { hs.voiced with }, { hs.assembled with }⟩

theorem Finalized.persistChapter (hf : Finalized s) {audioScriptId : Id} {chunks : List (ℕ × Bool)}
    {isLastChapter : Bool}
    (hadmits : (ProgressWrite.persistChapter audioScriptId chunks isLastChapter).Admits s)
    (h : Progress.persistChapter audioScriptId chunks isLastChapter s = .ok ((), s')) :
    Finalized s' := by
  obtain ⟨script, ids, nextId, scripts, hfound, hsame, hcurrent, rfl⟩ := persistChapter_commits h
  have hmem := List.mem_of_find?_eq_some hfound
  have hrows : ∀ c ∈ chunkRows script ids chunks,
      c.audioScriptId = script.id ∧ c.bookId = script.bookId := by
    intro c hc
    obtain ⟨-, -, rfl⟩ := List.mem_map.mp hc
    exact ⟨rfl, rfl⟩
  cases isLastChapter with
  | true =>
    obtain ⟨hunique, rfl⟩ := hcurrent rfl
    refine { unique := hunique, chunks := References.append_ref ?_ ?_ }
    · apply hf.chunks.updateWhere_key
      intro c _ other _ hkey
      simp only [Prod.mk.injEq] at hkey ⊢
      exact ⟨hkey.1, hkey.2.1, trivial⟩
    · intro c hc
      obtain ⟨hscript, hbook⟩ := hrows c hc
      have hid : script.id = audioScriptId := by simpa using List.find?_some hfound
      refine ⟨_, mem_updateWhere.mpr (.inl ⟨script, hmem, decide_eq_true hid, rfl⟩), ?_⟩
      exact Prod.ext hscript.symm (Prod.ext hbook.symm rfl)
  | false =>
    cases hsame rfl
    refine { unique := hf.unique, chunks := hf.chunks.append_ref ?_ }
    intro c hc
    rcases hadmits with rfl | hlast | hadmits
    · rw [chunkRows, List.zip_nil_right] at hc
      cases hc
    · cases hlast
    · rw [hfound] at hadmits
      obtain ⟨hscript, hbook⟩ := hrows c hc
      exact ⟨script, hmem, Prod.ext hscript.symm (Prod.ext hbook.symm hadmits)⟩

theorem Finalized.run (hf : Finalized s) {w : ProgressWrite} (hadmits : w.Admits s)
    (h : w.run s = .ok ((), s')) : Finalized s' := by
  cases w with
  | ingest bookId r =>
    obtain rfl | ⟨_, _, _, _, -, -, rfl⟩ := persistIngestionResult_commits h
    · exact hf
    · exact { hf with }
  | analyzeScene chapterId storyBibleVersionId n =>
    obtain ⟨_, -, _, _, _, -, -, rfl⟩ := analyzeScene_commits h
    exact { hf with }
  | createDraftAudioScript bookId =>
    obtain ⟨_, _, hunique, rfl⟩ := createDraftAudioScript_commits h
    exact { unique := hunique, chunks := hf.chunks.append_key }
  | persistChapter audioScriptId chunks isLastChapter => exact hf.persistChapter hadmits h
  | updateChunk chunkId flagged state =>
    obtain ⟨-, rfl⟩ := (Table.update_eq_ok_iff _).mp h
    exact { unique := hf.unique, chunks := hf.chunks.updateWhere_ref fun _ => rfl }
  | supersedeLockedChunk chunkId flagged => exact (not_supersedeLockedChunk_commits h).elim
  | insertAudioChunk chunkId pass =>
    obtain ⟨_, -, _, _, -, -, -, -, rfl⟩ := insertAudioChunk_commits h
    exact { hf with }
  | assembleChapter chapterId =>
    obtain ⟨_, -, _, _, _, -, -, -, -, -, -, rfl⟩ := assembleChapter_commits h
    exact { hf with }
  | setJobs jobs =>
    cases h
    exact { hf with }

end Steps

/-! ## Every Run -/

section Reachable

variable {s : ProgressStore}

theorem sound_of_reachable (h : progressMachine.Reachable Machine.anyEvent s) : Sound s := by
  refine h.invariant ?_ ?_
  · rintro _ rfl
    exact sound_empty
  · intro w s s' hs _ hstep
    exact hs.run (progressMachine_step_eq_some hstep)

/-- In a run that stores the chunks of a script only when it is current or becomes so with them,
every stage reports no more units than there are, every progress is between 0 and 1, and every
counted row belongs to the current version or the current script. -/
theorem consistentFigures_of_reachable (h : progressMachine.Reachable ProgressWrite.Admits s)
    (bookId : Id) : Consistent bookId s := by
  have hs : Sound s := sound_of_reachable h.any
  have hf : Finalized s := by
    refine h.invariant ?_ ?_
    · rintro _ rfl
      exact finalized_empty
    · intro w s s' hf hadmits hstep
      exact hf.run hadmits (progressMachine_step_eq_some hstep)
  exact
    { withinTotal := hs.withinTotal
      inUnit := progress_mem_unit bookId s
      counts := countsOnlyCurrent hs hf }

/-- A book from its pages to the audio of its chapter. -/
def wholeBook : List ProgressWrite :=
  [.ingest 7 ⟨0, 1, .ready, some [(1, .ok), (2, .needsReview)], 1⟩,
    .analyzeScene 3 0 1,
    .createDraftAudioScript 7,
    .persistChapter 6 [(0, false), (1, true)] true,
    .insertAudioChunk 7 true,
    .insertAudioChunk 8 false,
    .assembleChapter 3]

theorem consistent_wholeBook :
    ∃ s, progressMachine.Run ProgressWrite.Admits {} s ∧
      (computeStages 7 s).map StageProgress.completedUnits = [2, 1, 2, 1, 1] ∧ Consistent 7 s := by
  have hreplay : (progressMachine.replay ProgressWrite.Admits wholeBook {}).map
      (fun s => (computeStages 7 s).map StageProgress.completedUnits) = some [2, 1, 2, 1, 1] := by
    decide +kernel
  obtain ⟨s, hrun, hunits⟩ := Machine.exists_run_of_replay hreplay
  exact ⟨s, hrun, hunits, consistentFigures_of_reachable ⟨{}, rfl, hrun⟩ 7⟩

/-- The Director stores the chunks of the first of two chapters. -/
def firstChapter : List ProgressWrite :=
  [.ingest 7 ⟨0, 1, .ready, none, 2⟩,
    .createDraftAudioScript 7,
    .persistChapter 3 [(0, false)] false]

/-- The chunk of the first chapter is counted, and the book has no current script. -/
theorem not_forall_consistent :
    ¬ ∀ s, progressMachine.Reachable Machine.anyEvent s → ∀ bookId, Consistent bookId s := by
  intro h
  have hreplay : (progressMachine.replay Machine.anyEvent firstChapter {}).map
      (fun s => (s.audioScriptChunks.map fun c => (c.bookId, c.isCurrent),
        (currentScript 7 s).isNone)) = some ([(7, true)], true) := by
    decide +kernel
  obtain ⟨s, hrun, hstate⟩ := Machine.exists_run_of_replay hreplay
  simp only [Prod.mk.injEq] at hstate
  obtain ⟨hchunks, hnone⟩ := hstate
  obtain ⟨c, hc, hcounted⟩ := List.exists_of_mem_map (hchunks ▸ List.mem_singleton_self _)
  simp only [Prod.mk.injEq] at hcounted
  have hof := (h s ⟨{}, rfl, hrun⟩ 7).counts.scriptChunks c hc hcounted.1 hcounted.2
  rw [OfCurrentScript, Option.isNone_iff_eq_none.mp hnone] at hof
  cases hof

end Reachable

end AudioBook.Progress
