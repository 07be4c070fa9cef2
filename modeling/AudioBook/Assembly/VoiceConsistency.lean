import AudioBook.Assembly.FollowUp
import AudioBook.Concurrent.Executions
import AudioBook.Director.Finalize
import AudioBook.Schema.Constraints
import Mathlib.Data.List.Dedup

/-!
# Voice Consistency of a Chapter

Whether the audio of a chapter can be stored once it is rendered. The processor computes the voice
consistency of the chapter's chunks before it starts the rendering and only records the result,
while a `CHECK` of the table rejects an assembled row whose result is negative. The Director
checks the voices of a script scene by scene, so a character may change its voice between two
scenes of one chapter.

Main results:

- `persistedChapterAudio_passesChecks_iff`: the row that the processor writes meets the `CHECK`
  constraints exactly when no character of the chapter has two voices.
-/

namespace Relational

variable {σ ρ : Type}

/-- A row meets the `CHECK` constraints of a table. -/
def Table.PassesChecks (T : Table σ ρ) (r : ρ) : Prop :=
  ∀ c ∈ T.constraints, c.violation = .check → c.holds [r] = true

instance (T : Table σ ρ) (r : ρ) : Decidable (T.PassesChecks r) :=
  inferInstanceAs (Decidable (∀ c ∈ T.constraints, c.violation = .check → c.holds [r] = true))

end Relational

namespace AudioBook

open Relational Concurrent

/-! ## One Voice for Each Character -/

/-- Chunks of one character, or of the narrator, that have a voice have the same one. -/
def OneVoicePerCharacter (chunks : List OrderedChunk) : Prop :=
  ∀ c₁ ∈ chunks, ∀ c₂ ∈ chunks, c₁.chunk.characterId = c₂.chunk.characterId →
    ∀ v₁ ∈ c₁.chunk.voiceProfileVersionId, ∀ v₂ ∈ c₂.chunk.voiceProfileVersionId, v₁ = v₂

variable {chunks : List OrderedChunk}

theorem mem_voiceVersionsOf {characterId : Option Id} {v : Id} :
    v ∈ voiceVersionsOf characterId chunks ↔ ∃ c ∈ chunks,
      c.chunk.characterId = characterId ∧ c.chunk.voiceProfileVersionId = some v := by
  simp only [voiceVersionsOf, List.mem_dedup, List.mem_filterMap]
  constructor
  · rintro ⟨c, hc, hv⟩
    split at hv
    · next hcharacter => exact ⟨c, hc, hcharacter, hv⟩
    · cases hv
  · rintro ⟨c, hc, hcharacter, hv⟩
    exact ⟨c, hc, by rw [if_pos hcharacter, hv]⟩

theorem length_le_one_iff_of_nodup {l : List Id} (h : l.Nodup) :
    l.length ≤ 1 ↔ ∀ v₁ ∈ l, ∀ v₂ ∈ l, v₁ = v₂ := by
  match l with
  | [] => simp
  | [v] => simp
  | v :: w :: l =>
    have hne : v ≠ w := fun heq => (List.nodup_cons.mp h).1 (by simp [heq])
    constructor
    · intro hlength
      simp only [List.length_cons] at hlength
      omega
    · exact fun hall => absurd (hall v (by simp) w (by simp)) hne

theorem voiceConsistencyVerified_iff :
    voiceConsistencyVerified chunks = true ↔ OneVoicePerCharacter chunks := by
  simp only [voiceConsistencyVerified, List.all_eq_true, decide_eq_true_eq]
  constructor
  · intro h c₁ hc₁ c₂ hc₂ hcharacter v₁ hv₁ v₂ hv₂
    have h₁ : v₁ ∈ voiceVersionsOf c₁.chunk.characterId chunks :=
      mem_voiceVersionsOf.mpr ⟨c₁, hc₁, rfl, hv₁⟩
    have h₂ : v₂ ∈ voiceVersionsOf c₁.chunk.characterId chunks :=
      mem_voiceVersionsOf.mpr ⟨c₂, hc₂, hcharacter.symm, hv₂⟩
    exact (length_le_one_iff_of_nodup (List.nodup_dedup _)).mp (h c₁ hc₁) v₁ h₁ v₂ h₂
  · intro h c _
    refine (length_le_one_iff_of_nodup (List.nodup_dedup _)).mpr fun v₁ h₁ v₂ h₂ => ?_
    obtain ⟨c₁, hc₁, heq₁, hv₁⟩ := mem_voiceVersionsOf.mp h₁
    obtain ⟨c₂, hc₂, heq₂, hv₂⟩ := mem_voiceVersionsOf.mp h₂
    exact h c₁ hc₁ c₂ hc₂ (heq₁.trans heq₂.symm) v₁ hv₁ v₂ hv₂

/-! ## The Row That the Processor Writes -/

variable (computeManifestHash : List (Id × Hash) → Hash)

/-- The row records an assembly of a chapter from complete chunks, and their voice consistency. -/
structure AssembledFrom (chapterId : Id) (chunks : List OrderedChunk) (row : ChapterAudio) :
    Prop where
  complete : manifestComplete chunks = true
  chapterId : row.chapterId = chapterId
  manifest : row.chunkManifestHash = computeManifestHash (chunkManifest chunks)
  status : row.status = .assembled
  isPreviewBuild : row.isPreviewBuild = false
  voices : row.voiceConsistencyVerified = voiceConsistencyVerified chunks

variable {row : ChapterAudio}

theorem chapterAudio_passesChecks_iff :
    Db.chapterAudio.PassesChecks row ↔
      (row.status = .assembled → row.isPreviewBuild ∨ row.voiceConsistencyVerified) := by
  rw [imp_iff_not_or]
  simp [Table.PassesChecks, Db.chapterAudio, Constraint.check, Constraint.uniqueWhere]

theorem AssembledFrom.passesChecks_iff {computeManifestHash : List (Id × Hash) → Hash}
    {chapterId : Id} (h : AssembledFrom computeManifestHash chapterId chunks row) :
    Db.chapterAudio.PassesChecks row ↔ OneVoicePerCharacter chunks := by
  rw [← voiceConsistencyVerified_iff, ← h.voices, chapterAudio_passesChecks_iff]
  simp [h.status, h.isPreviewBuild]

def PersistsChapterAudio (x : AccessEvent) : Prop :=
  ∃ jobId row, x.label = .persistChapterAudio jobId row

theorem not_persists_of_plain (a : Access) (w : Store → Store) (h : a.Plain w) (x : AccessEvent)
    (hlabel : x.label = a) : ¬ PersistsChapterAudio x := by
  rintro ⟨jobId, row, hrow⟩
  refine h.1 ?_
  rw [← hlabel, hrow]
  trivial

/-- Before the access there was a query of the chunks that the row is assembled from. -/
def ReadChunks (chapterId : Id) (pre : List AccessEvent) (x : AccessEvent) : Prop :=
  ∃ y ∈ pre, y.label = .query ∧ y.fate = .done ∧ ∀ jobId row,
    x.label = .persistChapterAudio jobId row →
      AssembledFrom computeManifestHash chapterId (currentChunks chapterId y.store) row

variable {computeManifestHash}

theorem ReadChunks.mono {chapterId : Id} (es₁ pre : List AccessEvent) (x : AccessEvent)
    (h : ReadChunks computeManifestHash chapterId pre x) :
    ReadChunks computeManifestHash chapterId (es₁ ++ pre) x := by
  obtain ⟨y, hy, hread⟩ := h
  exact ⟨y, List.mem_append_right _ hy, hread⟩

theorem preceded_assembleChapter (job : ProcessingJob) (chapterId : Id)
    (hcomplete : manifestComplete chunks = true) (directorVersion : ℕ) (d : Delivery) :
    (assembleChapter job chapterId chunks (computeManifestHash (chunkManifest chunks))
      directorVersion d).Preceded PersistsChapterAudio fun _ x => ∀ jobId row,
        x.label = .persistChapterAudio jobId row →
          AssembledFrom computeManifestHash chapterId chunks row := by
  have hP := not_persists_of_plain
  refine Prog.preceded_bind (fun _ _ _ h => h) (always_external hP) fun _ => ?_
  refine Prog.preceded_bind (fun _ _ _ h => h) (always_query hP _) fun nextVersion => ?_
  refine Prog.preceded_bind (fun _ _ _ h => h) (always_external hP) fun _ => ?_
  refine Prog.preceded_bind (fun _ _ _ h => h) (always_freshId hP) fun chapterAudioId => ?_
  refine Prog.preceded_bind_of_preceded (Prog.preceded_atomically ?_) fun _ =>
    always_maybeTriggerAudiobookFanIn hP job
  intro x hlabel _ jobId row hrow
  obtain ⟨-, rfl⟩ := Access.persistChapterAudio.inj (hlabel.symm.trans hrow)
  exact ⟨hcomplete, rfl, rfl, rfl, rfl, rfl⟩

theorem preceded_processAssembleChapterJob (chapterId : Id) (d : Delivery) :
    (processAssembleChapterJob computeManifestHash chapterId d).Preceded PersistsChapterAudio
      (ReadChunks computeManifestHash chapterId) := by
  have hP := not_persists_of_plain
  rw [processAssembleChapterJob]
  split
  · exact Prog.preceded_of_always trivial
  refine Prog.preceded_bind ReadChunks.mono (always_query hP _) fun found => ?_
  split
  · exact Prog.preceded_of_always trivial
  next job =>
  split
  · exact Prog.preceded_of_always trivial
  next hjob =>
  have hseen : job.status ∉ [.succeeded, .failed] := by simpa using hjob
  split
  · exact Prog.preceded_of_always trivial
  refine Prog.preceded_bind_of_trace (fun found pre x => ∃ chapter, found = some chapter ∧
    ReadChunks computeManifestHash chapter.id pre x) (always_query hP _) ?_ ?_
  · rintro (_ | chapter)
    · exact Prog.preceded_of_always trivial
    simp only [Option.some.injEq, exists_eq_left']
    -- The chunks that this query returns are the ones that the row records.
    refine Prog.preceded_bind_of_trace (fun chunks _ x => ∀ jobId row,
      x.label = .persistChapterAudio jobId row →
        AssembledFrom computeManifestHash chapter.id chunks row) (always_query hP _) ?_ ?_
    · intro chunks
      split
      · next hcomplete =>
        split
        · refine Prog.preceded_of_always (Prog.always_bind ?_ fun _ => trivial)
          exact always_recordFailure hP (by simp) _ _
        refine Prog.preceded_bind (fun _ _ _ h => h) (always_query hP _) fun existing => ?_
        split
        · refine Prog.preceded_bind_of_preceded (Prog.preceded_atomically ?_) fun _ =>
            Prog.always_bind (always_maybeTriggerAudiobookFanIn hP job) fun _ => trivial
          rintro x hlabel - jobId row hrow
          cases hlabel.symm.trans hrow
        refine Prog.preceded_bind (fun _ _ _ h => h) (always_perform hP not_false not_false hseen)
          fun _ => ?_
        refine Prog.preceded_tryCatch (preceded_assembleChapter job _ hcomplete _ d) fun err => ?_
        refine Prog.always_bind ?_ fun _ => trivial
        rw [handleChapterAssemblyFailure]
        split
        · trivial
        · exact always_recordFailure hP (by simp) _ _
      · exact Prog.preceded_of_always (always_recordFailure hP (by simp) _ _)
    · intro chunks es₁ pre x hquery _ hassembled
      rcases Prog.trace_read hquery with ⟨-, hcrash⟩ | ⟨s, fate, rfl, hreturn, -⟩
      · cases hcrash
      obtain ⟨rfl, rfl⟩ := hreturn chunks rfl
      exact ⟨⟨.query, s, .done⟩, List.mem_append_left _ (List.mem_singleton_self _), rfl, rfl,
        hassembled⟩
  · rintro found es₁ pre x hquery - ⟨chapter, rfl, hread⟩
    obtain ⟨y, rfl, -, hfound⟩ := exists_of_query hquery
    have hid := List.find?_some hfound.symm
    rw [← of_decide_eq_true hid]
    exact ReadChunks.mono _ _ _ hread

theorem passesChecks_of_commits {jobId : Id} {s : Store}
    (h : Prog.Commits (Access.persistChapterAudio jobId row).tx s) :
    Db.chapterAudio.PassesChecks row := by
  obtain ⟨_, s', h⟩ := h
  obtain ⟨_, s₁, -, h⟩ := Transaction.bind_eq_ok_iff.mp h
  obtain ⟨_, s₂, hinsert, -⟩ := Transaction.bind_eq_ok_iff.mp h
  obtain ⟨haccepts, -⟩ := (Table.insert_eq_ok_iff (ε := Fault) _).mp hinsert
  exact chapterAudio_passesChecks_iff.mpr ((Db.chapterAudio_accepts_iff.mp haccepts).voices row (by simp))

/-- In every execution of `processAssembleChapterJob`, whatever fails and whatever others do in
between, the row that it writes meets the `CHECK` constraints exactly when no character of the
chunks that it read has two voices; and if one has, no transaction can store the row. -/
theorem persistedChapterAudio_passesChecks_iff {chapterId : Id} {d : Delivery}
    {es pre post : List AccessEvent} {r : Ending Fault Unit} {x : AccessEvent} {jobId : Id}
    {row : ChapterAudio}
    (h : (processAssembleChapterJob computeManifestHash chapterId d).Trace es r)
    (hes : es = pre ++ x :: post) (hx : x.label = .persistChapterAudio jobId row) :
    ∃ y ∈ pre, y.label = .query ∧ y.fate = .done ∧
      AssembledFrom computeManifestHash chapterId (currentChunks chapterId y.store) row ∧
      (Db.chapterAudio.PassesChecks row ↔
        OneVoicePerCharacter (currentChunks chapterId y.store)) ∧
      (¬ OneVoicePerCharacter (currentChunks chapterId y.store) →
        ∀ s, ¬ Prog.Commits (Access.persistChapterAudio jobId row).tx s) := by
  obtain ⟨y, hy, hlabel, hfate, hread⟩ :=
    preceded_processAssembleChapterJob chapterId d es r h pre x post hes ⟨jobId, row, hx⟩
  have hassembled := hread jobId row hx
  refine ⟨y, hy, hlabel, hfate, hassembled, hassembled.passesChecks_iff, fun hvoices s hcommits => ?_⟩
  exact hvoices (hassembled.passesChecks_iff.mp (passesChecks_of_commits hcommits))

/-! ## A Character That Changes Its Voice -/

def Access.persistedChapterAudio : Access → Option (Id × ChapterAudio)
  | persistChapterAudio jobId row => some (jobId, row)
  | _ => none

theorem Access.eq_persistChapterAudio {a : Access} {jobId : Id}
    (h : a.persistedChapterAudio = some (jobId, row)) : a = .persistChapterAudio jobId row := by
  unfold Access.persistedChapterAudio at h
  split at h
  · cases h
    rfl
  · cases h

/-- The processor on the chapter of the small book, after a user asked for the audiobook. -/
def chapterRun (s : Store) : List AccessEvent × Ending Fault Unit × Store :=
  (processAssembleChapterJob polynomialDigest 3 ⟨chapterEnvelope 100 3, 0, 77⟩).execute
    ((startAssembly polynomialDigest 1 { scope := .audiobook, deliveryFormats := [.m4b] }).evaluate
      (fun _ => none) s).2 (List.replicate 20 .done)

theorem trace_chapterRun (s : Store) :
    (processAssembleChapterJob polynomialDigest 3 ⟨chapterEnvelope 100 3, 0, 77⟩).Trace
      (chapterRun s).1 (chapterRun s).2.1 :=
  (Prog.runs_execute (@rfl Store) _ _ _).trace

/-- The small book with a second scene in its chapter, after the voice of the character who speaks
in both was changed for the second one. -/
def reassignedBook : Store := { narratedBook with
  audioScriptChunks := [
    { id := 5, bookId := 1, audioScriptId := 4, chapterId := 3, sequenceIndex := 0,
      chapterSequenceIndex := 0, directorVersion := 1, text := ['a'], sceneId := some 30,
      speakerType := .character, characterId := some 20, voiceProfileVersionId := some 9,
      state := .locked, lockedAt := true, currentAudioChunkId := some 6, source := ⟨8, 0, 1⟩ },
    { id := 10, bookId := 1, audioScriptId := 4, chapterId := 3, sequenceIndex := 1,
      chapterSequenceIndex := 1, directorVersion := 1, text := ['b'], sceneId := some 31,
      speakerType := .character, characterId := some 20, voiceProfileVersionId := some 19,
      state := .locked, lockedAt := true, currentAudioChunkId := some 11, source := ⟨8, 1, 2⟩ }]
  audioChunks := narratedBook.audioChunks ++ [{
    id := 11, audioScriptChunkId := 10, ttsJobId := 12, chapterId := 3, isCurrent := true,
    status := .validated, contentHash := 71, durationMs := 800, objectVerified := true }] }


theorem exists_persisted {s : Store}
    (h : ((chapterRun s).1[9]?.bind fun x => x.label.persistedChapterAudio).isSome) :
    ∃ pre x post jobId row, (chapterRun s).1 = pre ++ x :: post ∧
      x.label = .persistChapterAudio jobId row ∧ (chapterRun s).1[9]? = some x := by
  obtain ⟨⟨jobId, row⟩, hbind⟩ := Option.isSome_iff_exists.mp h
  obtain ⟨x, hx, hrow⟩ := Option.bind_eq_some_iff.mp hbind
  obtain ⟨hlength, hget⟩ := List.getElem?_eq_some_iff.mp hx
  refine ⟨(chapterRun s).1.take 9, x, (chapterRun s).1.drop 10, jobId, row, ?_,
    Access.eq_persistChapterAudio hrow, hx⟩
  rw [← hget, ← List.drop_eq_getElem_cons hlength, List.take_append_drop]

/-- The chapter of the small book is narrated with one voice, and the row can be stored. -/
theorem persistedChapterAudio_passesChecks_iff_narratedBook :
    ∃ pre x post jobId row, (chapterRun narratedBook).1 = pre ++ x :: post ∧
      x.label = .persistChapterAudio jobId row ∧
      ∃ y ∈ pre, y.label = .query ∧ y.fate = .done ∧
        AssembledFrom polynomialDigest 3 (currentChunks 3 y.store) row ∧
        (Db.chapterAudio.PassesChecks row ↔ OneVoicePerCharacter (currentChunks 3 y.store)) ∧
        (¬ OneVoicePerCharacter (currentChunks 3 y.store) →
          ∀ s, ¬ Prog.Commits (Access.persistChapterAudio jobId row).tx s) := by
  obtain ⟨pre, x, post, jobId, row, hsplit, hx, -⟩ :=
    exists_persisted (s := narratedBook) (by decide +kernel)
  exact ⟨pre, x, post, jobId, row, hsplit, hx,
    persistedChapterAudio_passesChecks_iff (trace_chapterRun narratedBook) hsplit hx⟩

/-- The chunks of the second book pass the Director's check, scene by scene; the processor starts
the rendering, and the row it writes fails a `CHECK`. -/
theorem not_forall_passesChecks :
    ¬ ∀ (computeManifestHash : List (Id × Hash) → Hash) (chapterId : Id) (d : Delivery)
        (es : List AccessEvent) (r : Ending Fault Unit),
        (processAssembleChapterJob computeManifestHash chapterId d).Trace es r →
        (∀ x ∈ es,
          voicesConsistent [] (x.store.audioScriptChunks.map AudioScriptChunk.rawVoice) = true) →
        ∀ x ∈ es, ∀ jobId row, x.label = .persistChapterAudio jobId row →
          Db.chapterAudio.PassesChecks row := by
  intro hclaim
  obtain ⟨pre, x, post, jobId, row, hsplit, hx, hget⟩ :=
    exists_persisted (s := reassignedBook) (by decide +kernel)
  have hpasses := hclaim _ _ _ _ _ (trace_chapterRun reassignedBook) (by decide +kernel) x
    (by simp [hsplit]) jobId row hx
  have hfails : ∀ p ∈ (chapterRun reassignedBook).1[9]?.bind fun x => x.label.persistedChapterAudio,
      ¬ Db.chapterAudio.PassesChecks p.2 := by decide +kernel
  exact hfails (jobId, row) (by simp [hget, hx, Access.persistedChapterAudio]) hpasses

end AudioBook
