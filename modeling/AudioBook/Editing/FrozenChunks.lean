import AudioBook.Concurrent.Triples
import AudioBook.Editing.ChunkEdits

/-!
# A Locked Chunk Is Frozen

Three programs write a stored script chunk. The start of its synthesis locks it. A `PATCH` and a
revision by the Director read the chunk, and write it by its id in a later transaction, which does
not look at the state again and sets it to `DRAFT`.

- `beginTtsJob`, `patchChunk`, `reviseDirectorIr`: the programs.
- `freezeSystem`: the programs, interleaved in any way.
- `Unfrozen`: the writes in place that find their chunks not locked.

What only rejects a revision besides the constraints of the table (the foreign keys of the chunk) is
left out, and so are the job rows and the events.

## Main results

* `frozenBetween_of_run`: in every run of unfrozen writes a locked chunk stays as it is.
-/

namespace AudioBook.FrozenChunks

open Relational Concurrent
open ChunkEdits (ChunkContent PatchRequest PatchError EditState requireChunk checkVoiceBinding
  connects changedOriginal editedChunk)

/-! ## Rows -/

/-- The columns of `audio_script_chunk` that only the Director writes. -/
structure DirectorColumns where
  pronunciationHints : Option String := none
  generationParams : Option String := none
  generationParamsHash : Option Hash := none
  confidence : ℚ
  decisionConfidence : Option String := none
  fallbackApplied : Bool := false
  fallbackReason : Option String := none
  directorVersion : String
  directorModelVersionId : Id
  contextBundleHash : Hash
  deriving DecidableEq

/-- `audio_script_chunk`. -/
structure ChunkVersion extends ChunkEdits.AudioScriptChunk where
  audioScriptId : Id
  sequenceIndex : ℕ
  version : ℕ := 1
  supersedesChunkId : Option Id := none
  supersededByChunkId : Option Id := none
  spokenText : Option String := none
  director : DirectorColumns

/-- The performance, the voice and the text of a chunk. -/
def ChunkVersion.frozen (c : ChunkVersion) :
    ChunkContent × DirectorColumns × String × Option String :=
  (c.toChunkContent, c.director, c.text, c.spokenText)

structure ChunkStore where
  books : Id → Option ChunkEdits.Book := fun _ => none
  characters : Id → Option ChunkEdits.Character := fun _ => none
  voiceProfiles : Id → Option ChunkEdits.VoiceProfile := fun _ => none
  voiceProfileVersions : Id → Option ChunkEdits.VoiceProfileVersion := fun _ => none
  rendered : Id → List Id := fun _ => []
  chunks : List ChunkVersion := []
  nextId : Id := 0

/-- What a `PATCH` reads. -/
def ChunkStore.editState (s : ChunkStore) : EditState where
  books := s.books
  chunks id := (s.chunks.find? fun c => decide (c.id = id)).map ChunkVersion.toAudioScriptChunk
  characters := s.characters
  voiceProfiles := s.voiceProfiles
  voiceProfileVersions := s.voiceProfileVersions
  rendered := s.rendered

/-- The key of `audio_script_chunk_sequence_current_key`. -/
def sequenceKey (c : ChunkVersion) : Option (Id × ℕ) :=
  if c.isCurrent then some (c.audioScriptId, c.sequenceIndex) else none

/-- The table `audio_script_chunk`. -/
def chunk : Table ChunkStore ChunkVersion where
  rows := ChunkStore.chunks
  setRows rows s := { s with chunks := rows }
  constraints := [.uniqueWhere fun c => some c.id, .uniqueWhere sequenceKey,
    .check fun c => decide c.toAudioScriptChunk.meetsChecks,
    .selfReference (fun c => c.id) ChunkVersion.supersedesChunkId,
    .selfReference (fun c => c.id) ChunkVersion.supersededByChunkId]

inductive ChunkError
  | violation (v : Violation)
  | refused (e : PatchError)
  | directorFailed
  | other
  deriving DecidableEq

instance : OfViolation ChunkError := ⟨ChunkError.violation⟩

abbrev ChunkTx := Transaction ChunkStore ChunkError

/-- An access to the store. A write names the chunks that it changes in place. -/
inductive ChunkAccess
  | query
  | lock (chunkId : Id)
  | write (chunkIds : List Id)

abbrev ChunkService := Prog ChunkStore ChunkAccess ChunkError

def query {α : Type} (f : ChunkStore → α) : ChunkService α := Prog.read .query f

/-! ## Synthesis -/

/-- The freeze of `begin_tts_job`. -/
def beginTtsJob (chunkId : Id) (now : ℕ) : ChunkTx Unit :=
  chunk.update (fun c => decide (c.id = chunkId ∧ c.state ≠ .locked)) fun c =>
    { c with state := .locked, lockedAt := some now }

/-! ## Edits -/

/-- An update of one chunk by its id; audio keeps the character that it names of the chunk
(`audio_chunk_script_chunk_character_fkey`). -/
def writeChunk (chunkId : Id) (f : ChunkVersion → ChunkVersion) : ChunkTx Unit := do
  let s ← get
  if ∃ c ∈ s.chunks, c.id = chunkId ∧
      ∃ characterId ∈ s.rendered chunkId, (f c).characterId ≠ some characterId then
    throw (.violation .foreignKey)
  else chunk.update (fun c => decide (c.id = chunkId)) f

/-- What the query of a `PATCH` answers. -/
def answer {α : Type} (f : EditState → Except PatchError α) : ChunkService α := do
  match ← query fun s => f s.editState with
  | .ok a => return a
  | .error e => throw (.refused e)

/-- `audioScriptChunk.update`: the named columns of the row, and what is recorded of the chunk as
it was read. -/
def updateAudioScriptChunk (r : PatchRequest) (read : ChunkEdits.AudioScriptChunk) :
    ChunkTx Unit := do
  let s ← get
  if ¬ connects r.body s.editState then throw (.refused .recordNotFound)
  else
    writeChunk r.chunkId fun c =>
      { c with
        toAudioScriptChunk :=
          { editedChunk c.toAudioScriptChunk r.body r.sub r.now with
            directorOriginal := some (changedOriginal read r.body) } }

/-- `updateAudioScriptChunk` of the service. -/
def patchChunk (r : PatchRequest) : ChunkService Unit := do
  let read ← answer (requireChunk r)
  if read.state = .locked then
    throw (.refused (.conflict "AUDIO_SCRIPT_CHUNK_FROZEN"
      ("This chunk is LOCKED (already used for generation) and cannot be edited in place. " ++
        "Request a new chunk version via revise-director instead.")))
  else
    answer (checkVoiceBinding r.body)
    Prog.atomically (.write [r.chunkId]) (updateAudioScriptChunk r read)

/-! ## Revisions -/

/-- What `build_chunk` makes of a chunk and a decision. -/
structure BuiltChunk where
  content : ChunkContent
  director : DirectorColumns
  text : String

inductive RevisionOutcome
  | built (b : BuiltChunk)
  /-- The chapter or the paragraph of the chunk is not there. -/
  | skipped
  | failed

/-- A `revise_director_ir` job. -/
structure Revision where
  bookId : Id
  chunkIds : List Id
  /-- What the chapter context and the provider decide. -/
  outcome : Id → RevisionOutcome

def updateChunkInPlace (chunkId : Id) (b : BuiltChunk) : ChunkTx Unit :=
  writeChunk chunkId fun c =>
    { c with
      toChunkContent :=
        { b.content with
          seed := c.seed
          targetSampleRate := c.targetSampleRate
          targetChannels := c.targetChannels }
      director := b.director
      state := .draft
      rowVersion := c.rowVersion + 1 }

def newVersion (old : ChunkVersion) (id : Id) (b : BuiltChunk) : ChunkVersion :=
  { b.content with
    id
    bookId := old.bookId
    text := b.text
    audioScriptId := old.audioScriptId
    sequenceIndex := old.sequenceIndex
    version := old.version + 1
    supersedesChunkId := some old.id
    director := b.director }

/-- `supersede_locked_chunk`: the new version is inserted, and then the old one is retired. -/
def supersedeLockedChunk (old : ChunkVersion) (b : BuiltChunk) : ChunkTx Unit := do
  let s ← get
  set { s with nextId := s.nextId + 1 }
  chunk.insert (newVersion old s.nextId b)
  chunk.update (fun c => decide (c.id = old.id)) fun c =>
    { c with isCurrent := false, supersededByChunkId := some s.nextId }

/-- The write of one chunk, by the state that was read. -/
def reviseChunk (r : Revision) (read : ChunkVersion) : ChunkTx Unit :=
  match r.outcome read.id with
  | .skipped => pure ()
  | .failed => throw .directorFailed
  | .built b =>
      if read.state = .locked then supersedeLockedChunk read b else updateChunkInPlace read.id b

/-- The second session: all chunks in one transaction. -/
def reviseChunks (r : Revision) : List ChunkVersion → ChunkTx Unit
  | [] => pure ()
  | read :: reads => do
      reviseChunk r read
      reviseChunks r reads

/-- The first session: `load_chunk_for_revision` of every requested chunk. -/
def loadChunks (bookId : Id) : List Id → ChunkService (List ChunkVersion)
  | [] => return []
  | chunkId :: chunkIds => do
      let found ← query fun s =>
        s.chunks.find? fun c => decide (c.id = chunkId) && c.isCurrent
      let rest ← loadChunks bookId chunkIds
      return (found.filter fun c => decide (c.bookId = bookId)).toList ++ rest

/-- The chunks that a revision changes in place: those that it did not read as locked. -/
def inPlace (reads : List ChunkVersion) : List Id :=
  (reads.filter fun c => decide (c.state ≠ .locked)).map fun c => c.id

/-- `handle_revise_director_ir`. -/
def reviseDirectorIr (r : Revision) : ChunkService Unit := do
  let reads ← loadChunks r.bookId r.chunkIds
  Prog.atomically (.write (inPlace reads)) (reviseChunks r reads)

/-! ## The System -/

inductive ChunkRequest
  | beginTtsJob (chunkId : Id) (now : ℕ)
  | patch (r : PatchRequest)
  | revise (r : Revision)

/-- Any number of programs, interleaved in any way. -/
def freezeSystem : System ChunkStore ChunkRequest ChunkAccess ChunkError where
  init := chunk.Holds
  enabled _ _ := True
  program
    | .beginTtsJob chunkId now => Prog.atomically (.lock chunkId) (beginTtsJob chunkId now)
    | .patch r => patchChunk r
    | .revise r => reviseDirectorIr r

instance (i : ChunkRequest) (s : ChunkStore) : Decidable (freezeSystem.enabled i s) :=
  isTrue trivial

/-- The chunks that a write changes in place are not locked when it commits. -/
def Unfrozen : ChunkAccess → ChunkStore → Prop
  | .write chunkIds, s => ∀ c ∈ s.chunks, c.id ∈ chunkIds → c.state ≠ .locked
  | _, _ => True

instance : (l : ChunkAccess) → (s : ChunkStore) → Decidable (Unfrozen l s)
  | .write _, _ => inferInstanceAs (Decidable (∀ _ ∈ _, _))
  | .query, _ | .lock _, _ => isTrue trivial

/-- A locked chunk of the first store is the same in the second one, and a chunk that is new there
supersedes a locked one. -/
structure FrozenBetween (s s' : ChunkStore) : Prop where
  kept : ∀ c ∈ s.chunks, c.state = .locked →
    (∃ c' ∈ s'.chunks, c'.id = c.id) ∧
      ∀ c' ∈ s'.chunks, c'.id = c.id → c'.state = .locked ∧ c'.frozen = c.frozen
  superseding : ∀ c' ∈ s'.chunks, (∃ c ∈ s.chunks, c.id = c'.id) ∨
    ∃ old ∈ s'.chunks, old.state = .locked ∧ c'.supersedesChunkId = some old.id

/-! ## What a Write Leaves of the Chunks -/

section Changes

variable {s s' : ChunkStore}

/-- A later state of the same chunk, which is the same while it is locked. -/
structure ChunkVersion.Later (c c' : ChunkVersion) : Prop where
  id : c'.id = c.id
  supersedes : c'.supersedesChunkId = c.supersedesChunkId
  locked : c.state = .locked → c'.state = .locked ∧ c'.frozen = c.frozen

instance : IsPreorder ChunkVersion ChunkVersion.Later where
  refl _ := ⟨rfl, rfl, fun h => ⟨h, rfl⟩⟩
  trans _ _ _ h₁ h₂ := by
    refine ⟨h₂.id.trans h₁.id, h₂.supersedes.trans h₁.supersedes, fun h => ?_⟩
    obtain ⟨hstate, hfrozen⟩ := h₁.locked h
    obtain ⟨hstate', hfrozen'⟩ := h₂.locked hstate
    exact ⟨hstate', hfrozen'.trans hfrozen⟩

def LockedIn (s : ChunkStore) (chunkId : Id) : Prop :=
  ∃ c ∈ s.chunks, c.id = chunkId ∧ c.state = .locked

/-- Every chunk persists, and a new one supersedes a locked one. -/
structure StoreLater (s s' : ChunkStore) : Prop where
  persists : Persist ChunkVersion.Later s.chunks s'.chunks
  arises : ∀ c' ∈ s'.chunks, (∃ c ∈ s.chunks, c.Later c') ∨
    ∃ chunkId, LockedIn s' chunkId ∧ c'.supersedesChunkId = some chunkId

theorem LockedIn.mono {chunkId : Id} (h : LockedIn s chunkId)
    (hlater : Persist ChunkVersion.Later s.chunks s'.chunks) : LockedIn s' chunkId := by
  obtain ⟨c, hc, hid, hstate⟩ := h
  obtain ⟨c', hc', hc⟩ := hlater c hc
  exact ⟨c', hc', hc.id.trans hid, (hc.locked hstate).1⟩

instance : IsPreorder ChunkStore StoreLater where
  refl s := ⟨refl_of (Persist ChunkVersion.Later) s.chunks,
    fun c hc => .inl ⟨c, hc, refl_of ChunkVersion.Later c⟩⟩
  trans s s₁ s₂ h₁ h₂ := by
    refine ⟨trans_of (Persist ChunkVersion.Later) h₁.persists h₂.persists, fun c₂ hc₂ => ?_⟩
    rcases h₂.arises c₂ hc₂ with ⟨c₁, hc₁, hlater⟩ | hnew
    · rcases h₁.arises c₁ hc₁ with ⟨c, hc, hlater'⟩ | ⟨chunkId, hlocked, hsupersedes⟩
      · exact .inl ⟨c, hc, trans_of ChunkVersion.Later hlater' hlater⟩
      · exact .inr ⟨chunkId, hlocked.mono h₂.persists, hlater.supersedes.trans hsupersedes⟩
    · exact .inr hnew

theorem nodup_of_holds (h : chunk.Holds s) : (s.chunks.map fun c => c.id).Nodup :=
  uniqueWhere_some.mp ((Constraint.holds_uniqueWhere _ _).mp (h _ (.head _)))

theorem storeLater_updateWhere {p : ChunkVersion → Bool} {f : ChunkVersion → ChunkVersion}
    (hf : ∀ c ∈ s.chunks, p c = true → c.Later (f c)) :
    StoreLater s { s with chunks := updateWhere p f s.chunks } := by
  refine ⟨Persist.updateWhere hf, fun c' hc' => .inl ?_⟩
  rcases mem_updateWhere.mp hc' with ⟨c, hc, hp, rfl⟩ | ⟨hc, -⟩
  · exact ⟨c, hc, hf c hc hp⟩
  · exact ⟨c', hc, refl_of ChunkVersion.Later c'⟩

def LocksNothing (s s' : ChunkStore) : Prop :=
  ∀ c' ∈ s'.chunks, c'.state = .locked → LockedIn s c'.id

/-- What is known of a write that keeps locked chunks. -/
structure Keeps (s s' : ChunkStore) : Prop where
  holds : chunk.Holds s'
  later : StoreLater s s'
  locks : LocksNothing s s'

theorem Keeps.refl (h : chunk.Holds s) : Keeps s s :=
  ⟨h, refl_of StoreLater s, fun c hc hstate => ⟨c, hc, rfl, hstate⟩⟩

theorem writeChunk_keeps {chunkId : Id} {f : ChunkVersion → ChunkVersion}
    (hid : ∀ c, (f c).id = c.id) (hsupersedes : ∀ c, (f c).supersedesChunkId = c.supersedesChunkId)
    (hdraft : ∀ c, (f c).state = .draft)
    (hunlocked : ∀ c ∈ s.chunks, c.id = chunkId → c.state ≠ .locked)
    (h : writeChunk chunkId f s = .ok ((), s')) : Keeps s s' := by
  obtain ⟨_, _, hget, h⟩ := Transaction.bind_eq_ok_iff.mp h
  cases hget
  split at h
  · cases h
  · obtain ⟨haccepts, rfl⟩ := (Table.update_eq_ok_iff (ε := ChunkError) chunk).mp h
    refine ⟨haccepts, storeLater_updateWhere fun c hc hp => ?_, fun c' hc' hstate => ?_⟩
    · exact ⟨hid c, hsupersedes c, fun hlocked =>
        absurd hlocked (hunlocked c hc (of_decide_eq_true hp))⟩
    · rcases mem_updateWhere.mp hc' with ⟨c, -, -, rfl⟩ | ⟨hc, -⟩
      · rw [hdraft] at hstate
        cases hstate
      · exact ⟨c', hc, rfl, hstate⟩

theorem updateAudioScriptChunk_keeps {r : PatchRequest} {read : ChunkEdits.AudioScriptChunk}
    (hunlocked : ∀ c ∈ s.chunks, c.id = r.chunkId → c.state ≠ .locked)
    (h : updateAudioScriptChunk r read s = .ok ((), s')) : Keeps s s' := by
  obtain ⟨_, _, hget, h⟩ := Transaction.bind_eq_ok_iff.mp h
  cases hget
  split at h
  · cases h
  · refine writeChunk_keeps ?_ ?_ ?_ hunlocked h
    · intro c
      rfl
    · intro c
      rfl
    · intro c
      rfl

theorem supersedeLockedChunk_keeps {old : ChunkVersion} {b : BuiltChunk}
    (hlocked : LockedIn s old.id) (h : supersedeLockedChunk old b s = .ok ((), s')) :
    Keeps s s' := by
  obtain ⟨_, _, hget, h⟩ := Transaction.bind_eq_ok_iff.mp h
  cases hget
  obtain ⟨_, _, hset, h⟩ := Transaction.bind_eq_ok_iff.mp h
  cases hset
  obtain ⟨_, _, hinsert, h⟩ := Transaction.bind_eq_ok_iff.mp h
  obtain ⟨-, rfl⟩ := (Table.insert_eq_ok_iff (ε := ChunkError) chunk).mp hinsert
  obtain ⟨haccepts, rfl⟩ := (Table.update_eq_ok_iff (ε := ChunkError) chunk).mp h
  let retire : ChunkVersion → ChunkVersion := fun c =>
    { c with isCurrent := false, supersededByChunkId := some s.nextId }
  have hretire : ∀ c : ChunkVersion, c.Later (retire c) := fun c =>
    ⟨rfl, rfl, fun hstate => ⟨hstate, rfl⟩⟩
  let rows := s.chunks ++ [newVersion old s.nextId b]
  have hpersists : Persist ChunkVersion.Later s.chunks
      (updateWhere (fun c => decide (c.id = old.id)) retire rows) :=
    trans_of (Persist ChunkVersion.Later) (Persist.append _ _ _)
      (Persist.updateWhere fun c _ _ => hretire c)
  -- every row is that of an old chunk or of the new one, retired or not
  have hrows : ∀ c' ∈ updateWhere (fun c => decide (c.id = old.id)) retire rows,
      ∃ c, (c ∈ s.chunks ∨ c = newVersion old s.nextId b) ∧ c.Later c' ∧ c'.state = c.state := by
    intro c' hc'
    rcases mem_updateWhere.mp hc' with ⟨c, hc, -, rfl⟩ | ⟨hc, -⟩
    · exact ⟨c, by simpa [rows] using hc, hretire c, rfl⟩
    · exact ⟨c', by simpa [rows] using hc, refl_of ChunkVersion.Later c', rfl⟩
  refine ⟨haccepts, ⟨hpersists, fun c' hc' => ?_⟩, fun c' hc' hstate => ?_⟩
  · obtain ⟨c, hc | rfl, hlater, -⟩ := hrows c' hc'
    · exact .inl ⟨c, hc, hlater⟩
    · exact .inr ⟨old.id, hlocked.mono hpersists, hlater.supersedes⟩
  · obtain ⟨c, hc | rfl, hlater, hsame⟩ := hrows c' hc'
    · exact ⟨c, hc, hlater.id.symm, hsame.symm.trans hstate⟩
    · cases hsame.symm.trans hstate

theorem reviseChunk_keeps {r : Revision} {read : ChunkVersion} (hs : chunk.Holds s)
    (hlocked : read.state = .locked → LockedIn s read.id)
    (hunlocked : read.state ≠ .locked → ∀ c ∈ s.chunks, c.id = read.id → c.state ≠ .locked)
    (h : reviseChunk r read s = .ok ((), s')) : Keeps s s' := by
  rw [reviseChunk] at h
  cases hout : r.outcome read.id with
  | skipped =>
    rw [hout] at h
    obtain ⟨-, rfl⟩ := Transaction.pure_eq_ok_iff.mp h
    exact Keeps.refl hs
  | failed =>
    rw [hout] at h
    cases h
  | built b =>
    simp only [hout] at h
    by_cases hstate : read.state = .locked
    · rw [if_pos hstate] at h
      exact supersedeLockedChunk_keeps (hlocked hstate) h
    · rw [if_neg hstate] at h
      refine writeChunk_keeps ?_ ?_ ?_ (hunlocked hstate) h
      · intro c
        rfl
      · intro c
        rfl
      · intro c
        rfl

theorem mem_inPlace {reads : List ChunkVersion} {chunkId : Id} :
    chunkId ∈ inPlace reads ↔ ∃ read ∈ reads, read.state ≠ .locked ∧ read.id = chunkId := by
  simp [inPlace, and_assoc]

theorem reviseChunks_keeps {r : Revision} {reads : List ChunkVersion} (hs : chunk.Holds s)
    (hlocked : ∀ read ∈ reads, read.state = .locked → LockedIn s read.id)
    (hunlocked : Unfrozen (.write (inPlace reads)) s)
    (h : reviseChunks r reads s = .ok ((), s')) : chunk.Holds s' ∧ StoreLater s s' := by
  induction reads generalizing s with
  | nil =>
    obtain ⟨-, rfl⟩ := Transaction.pure_eq_ok_iff.mp h
    exact ⟨hs, refl_of StoreLater s⟩
  | cons read reads ih =>
    obtain ⟨_, s₁, hread, h⟩ := Transaction.bind_eq_ok_iff.mp h
    have hkeeps : Keeps s s₁ := by
      refine reviseChunk_keeps hs (hlocked read List.mem_cons_self) (fun hstate c hc hid => ?_) hread
      exact hunlocked c hc (mem_inPlace.mpr ⟨read, List.mem_cons_self, hstate, hid.symm⟩)
    have hlocked' : ∀ read' ∈ reads, read'.state = .locked → LockedIn s₁ read'.id := by
      intro read' hread' hstate
      exact (hlocked read' (List.mem_cons_of_mem _ hread') hstate).mono hkeeps.later.persists
    have hunlocked' : Unfrozen (.write (inPlace reads)) s₁ := by
      intro c hc hid hstate
      obtain ⟨c₀, hc₀, hid₀, hstate₀⟩ := hkeeps.locks c hc hstate
      obtain ⟨read', hread', hstate', hid'⟩ := mem_inPlace.mp hid
      refine hunlocked c₀ hc₀ (mem_inPlace.mpr ⟨read', ?_, hstate', ?_⟩) hstate₀
      · exact List.mem_cons_of_mem _ hread'
      · exact hid'.trans hid₀.symm
    obtain ⟨hholds, hlater⟩ := ih hkeeps.holds hlocked' hunlocked' h
    exact ⟨hholds, trans_of StoreLater hkeeps.later hlater⟩

end Changes

/-! ## The Programs Keep Locked Chunks -/

/-- Locked chunks stay as they are, as long as the writes in place find none. -/
def freezeContract : Contract ChunkStore ChunkAccess := .ofInvariant Unfrozen chunk.Holds StoreLater

section Programs

theorem triple_answer {α : Type} {f : EditState → Except PatchError α} :
    freezeContract.Triple chunk.Holds (answer f) fun _ => chunk.Holds := by
  refine Contract.Triple.bind (G := fun _ => chunk.Holds)
    (Contract.triple_read Contract.stable_invariant fun s hs => hs) fun result => ?_
  cases result with
  | ok a => exact Contract.triple_pure fun s hs => hs
  | error e => exact Contract.triple_throw

theorem triple_patchChunk (r : PatchRequest) :
    freezeContract.Triple chunk.Holds (patchChunk r) fun _ _ => True := by
  refine triple_answer.bind fun read => ?_
  split
  · exact Contract.triple_throw
  · refine triple_answer.bind fun _ => ?_
    refine Contract.triple_atomically Contract.stable_invariant fun s _ s' hs hadmits hok => ?_
    have hkeeps := updateAudioScriptChunk_keeps
      (fun c hc hid => hadmits c hc (List.mem_singleton.mpr hid)) hok
    exact ⟨fun _ => ⟨hkeeps.holds, hkeeps.later⟩, trivial⟩

def ReadLocked (reads : List ChunkVersion) (s : ChunkStore) : Prop :=
  ∀ read ∈ reads, read.state = .locked → LockedIn s read.id

theorem stable_readLocked (reads : List ChunkVersion) :
    freezeContract.Stable fun s => chunk.Holds s ∧ ReadLocked reads s := by
  refine Contract.stable_of_mono fun s s' _ hlater hlocked read hread hstate => ?_
  exact (hlocked read hread hstate).mono hlater.persists

theorem triple_loadChunks (bookId : Id) (chunkIds : List Id) :
    freezeContract.Triple chunk.Holds (loadChunks bookId chunkIds)
      fun reads s => chunk.Holds s ∧ ReadLocked reads s := by
  induction chunkIds with
  | nil =>
    refine Contract.triple_pure fun s hs => ⟨hs, fun read hread => ?_⟩
    cases hread
  | cons chunkId chunkIds ih =>
    refine Contract.Triple.bind
      (G := fun found s => chunk.Holds s ∧ ReadLocked (Option.toList found) s)
      (Contract.triple_read Contract.stable_invariant fun s hs => ⟨hs, ?_⟩) fun found => ?_
    · intro read hread hstate
      rw [Option.mem_toList] at hread
      exact ⟨read, List.mem_of_find?_eq_some hread, rfl, hstate⟩
    · have hrest := (ih.mono (fun s (hs : chunk.Holds s ∧ ReadLocked found.toList s) => hs.1)
        fun _ _ hs => hs).frame (stable_readLocked found.toList)
      refine hrest.bind fun rest => Contract.triple_pure fun s hs => ⟨hs.1.1, ?_⟩
      intro read hread hstate
      rcases List.mem_append.mp hread with hread | hread
      · rw [Option.mem_toList, Option.filter_eq_some_iff] at hread
        exact hs.2.2 read (Option.mem_toList.mpr hread.1) hstate
      · exact hs.1.2 read hread hstate

theorem triple_reviseDirectorIr (r : Revision) :
    freezeContract.Triple chunk.Holds (reviseDirectorIr r) fun _ _ => True := by
  refine (triple_loadChunks r.bookId r.chunkIds).bind fun reads => ?_
  refine Contract.triple_atomically (stable_readLocked reads) fun s _ s' hs hadmits hok => ?_
  exact ⟨fun _ => reviseChunks_keeps hs.1 hs.2 hadmits hok, trivial⟩

theorem allows_beginTtsJob (chunkId : Id) (now : ℕ) :
    freezeContract.Allows (.lock chunkId) (Prog.commit (beginTtsJob chunkId now)) := by
  refine freezeContract.allows_commit fun s _ s' _ hok _ => ?_
  obtain ⟨haccepts, rfl⟩ := (Table.update_eq_ok_iff (ε := ChunkError) chunk).mp hok
  refine ⟨haccepts, storeLater_updateWhere fun c _ hp => ⟨rfl, rfl, fun hlocked => ?_⟩⟩
  exact absurd hlocked (of_decide_eq_true hp).2

theorem freezeSystem_respects : freezeSystem.Respects freezeContract := by
  intro s₀ s i hinit hev _
  have hs : chunk.Holds s := (hev hinit).1
  cases i with
  | beginTtsJob chunkId now =>
    exact Contract.safe_of_always (Prog.always_atomically (allows_beginTtsJob chunkId now))
  | patch r => exact (triple_patchChunk r).safe hs
  | revise r => exact (triple_reviseDirectorIr r).safe hs

theorem frozenBetween_of_storeLater {s s' : ChunkStore} (hholds : chunk.Holds s')
    (hlater : StoreLater s s') : FrozenBetween s s' where
  kept c hc hstate := by
    obtain ⟨c', hc', hlater'⟩ := hlater.persists c hc
    refine ⟨⟨c', hc', hlater'.id⟩, fun c'' hc'' hid => ?_⟩
    obtain rfl : c'' = c' :=
      List.inj_on_of_nodup_map (nodup_of_holds hholds) hc'' hc' (hid.trans hlater'.id.symm)
    exact hlater'.locked hstate
  superseding c' hc' := by
    rcases hlater.arises c' hc' with ⟨c, hc, hlater'⟩ | ⟨chunkId, ⟨old, hold, hid, hstate⟩, hnew⟩
    · exact .inl ⟨c, hc, hlater'.id.symm⟩
    · exact .inr ⟨old, hold, hstate, by rw [hnew, hid]⟩

/-- In every run in which no write in place meets a locked chunk, a chunk that is locked keeps its
state and its fields, and a chunk that a revision adds supersedes a locked one. -/
theorem frozenBetween_of_run {c c' : Config ChunkStore ChunkAccess ChunkError}
    (h : freezeSystem.Reachable Unfrozen c) (hrun : freezeSystem.Run Unfrozen c c') :
    FrozenBetween c.store c'.store := by
  obtain ⟨s₀, hinit, hev₀⟩ := freezeSystem_respects.evolves_of_reachable h
  obtain ⟨hholds, hlater⟩ := freezeSystem_respects.evolves_of_run h hrun (hev₀ hinit).1
  exact frozenBetween_of_storeLater hholds hlater

end Programs

/-! ## A Lock Between a Read and a Write -/

/-- A chunk of book 7 with an approved voice. -/
def voicedChunk : ChunkVersion :=
  { speakerType := .narrator
    voiceProfileVersionId := some 5
    id := 1
    bookId := 7
    text := "It was late."
    audioScriptId := 3
    sequenceIndex := 0
    director := { confidence := 1, directorVersion := "v1", directorModelVersionId := 9,
                  contextBundleHash := 0 } }

def oneChunk : ChunkStore := { chunks := [voicedChunk], nextId := 20 }

theorem holds_oneChunk : chunk.Holds oneChunk := by
  decide +kernel

def revisionTo (emotion : ChunkEdits.Emotion) : Revision where
  bookId := 7
  chunkIds := [1]
  outcome _ := .built
    { content := { speakerType := .narrator, voiceProfileVersionId := some 5, emotion }
      director := voicedChunk.director
      text := "It was late." }

def shown (s : ChunkStore) : List (Id × AudioScriptChunkState × ChunkEdits.Emotion) :=
  s.chunks.map fun c => (c.id, c.state, c.emotion)

/-- A revision, the start of synthesis, and a revision after it. -/
theorem frozenBetween_lockedChunk :
    ∃ c c', freezeSystem.Reachable Unfrozen c ∧ freezeSystem.Run Unfrozen c c' ∧
      shown c.store = [(1, .locked, .sad)] ∧ shown c'.store = [(1, .locked, .sad)] ∧
        FrozenBetween c.store c'.store := by
  have hplay : ((freezeSystem.playAll Unfrozen ⟨oneChunk, []⟩
      [.spawn (.revise (revisionTo .sad)), .proceed 0, .proceed 0, .spawn (.beginTtsJob 1 4),
        .proceed 1]).bind fun c => (freezeSystem.playAll Unfrozen c
          [.spawn (.revise (revisionTo .angry)), .proceed 2, .proceed 2]).map
            fun c' => (shown c.store, shown c'.store)) =
      some ([(1, .locked, .sad)], [(1, .locked, .sad)]) := by
    decide +kernel
  obtain ⟨c, c', hrun, hrun', hbefore, hafter⟩ :=
    System.exists_run_run_of_playAll (f := shown) (g := shown) hplay
  have hreach : freezeSystem.Reachable Unfrozen c := ⟨oneChunk, holds_oneChunk, hrun⟩
  exact ⟨c, c', hreach, hrun', hbefore, hafter, frozenBetween_of_run hreach hrun'⟩

/-- The revision reads the chunk, its synthesis starts, and the revision writes it. -/
theorem not_forall_frozenBetween :
    ¬ ∀ c c', freezeSystem.Reachable anyAccess c → freezeSystem.Run anyAccess c c' →
      FrozenBetween c.store c'.store := by
  intro h
  have hplay : ((freezeSystem.playAll anyAccess ⟨oneChunk, []⟩
      [.spawn (.revise (revisionTo .sad)), .proceed 0, .spawn (.beginTtsJob 1 4), .proceed 1]).bind
        fun c => (freezeSystem.playAll anyAccess c [.proceed 0]).map
          fun c' => (shown c.store, shown c'.store)) =
      some ([(1, .locked, .neutral)], [(1, .draft, .sad)]) := by
    decide +kernel
  obtain ⟨c, c', hrun, hrun', hbefore, hafter⟩ :=
    System.exists_run_run_of_playAll (f := shown) (g := shown) hplay
  obtain ⟨hkept, -⟩ := h c c' ⟨oneChunk, holds_oneChunk, hrun⟩ hrun'
  obtain ⟨r, hr, hshown⟩ := List.exists_of_mem_map (hbefore ▸ List.mem_singleton_self _)
  obtain ⟨r', hr', hshown'⟩ := List.exists_of_mem_map (hafter ▸ List.mem_singleton_self _)
  simp only [Prod.mk.injEq] at hshown hshown'
  have hstate := ((hkept r hr hshown.2.1).2 r' hr' (hshown'.1.trans hshown.1.symm)).1
  rw [hshown'.2.1] at hstate
  cases hstate

end AudioBook.FrozenChunks
