import AudioBook.Schema.Constraints
import AudioBook.Tts.Writes

/-!
# Superseding Writes and the Foreign Key of Their Pointer

Two writers replace a current row and leave a pointer from the old row to the new one: the
synthesis worker for the audio of a chunk, and the API for the voice of a character. Both write
the pointer first, because only one row per target may be current, and insert the row it points
at afterwards. The foreign key of the pointer is checked after the first statement, so the
transaction never commits.

Main results:

- `update_audioChunk_pointer` and `update_voiceAssignment_pointer`: pointing a row at an id
  that no row has yet breaks the foreign key, and nothing else.
- `SupersedingWrite.rejected_of_current`: wherever a current row exists, its replacement is
  rejected and nothing is recorded.
-/

namespace AudioBook

open Relational

/-! ## Assigning a Voice -/

/-- What `assignCharacterVoice` has read about a character. -/
structure CharacterRow where
  id : Id
  isSentinel : Bool
  isNarratorSentinel : Bool

/-- What `assignCharacterVoice` has read about the requested voice version. -/
structure VoiceVersionRow where
  id : Id
  voiceProfileId : Id
  /-- `approvalState` is `APPROVED` or `LOCKED`. -/
  productionApproved : Bool
  /-- One of `supportedLanguages` is the book's language. -/
  supportsBookLanguage : Bool

def CharacterRow.role (character : CharacterRow) : VoiceAssignmentRole :=
  if character.isNarratorSentinel then .narrator else .character

/-- The request passes the checks that `assignCharacterVoice` makes before it writes. -/
def voiceAdmissible (character : CharacterRow) (version : VoiceVersionRow) : Prop :=
  ¬ (character.isSentinel ∧ ¬ character.isNarratorSentinel) ∧ version.productionApproved ∧
    version.supportsBookLanguage

instance (character : CharacterRow) (version : VoiceVersionRow) :
    Decidable (voiceAdmissible character version) :=
  inferInstanceAs (Decidable (_ ∧ _ ∧ _))

def findActiveAssignment (bookId characterId : Id) (role : VoiceAssignmentRole) (s : Store) :
    Option VoiceAssignment :=
  s.voiceAssignments.find? fun a => decide (a.bookId = bookId ∧ a.characterId = characterId ∧
    a.role = role ∧ a.isActive)

/-- Assign a voice version to a character, under the id `newId`. The previous assignment is
pointed at the new one before that is created. -/
def assignCharacterVoice (newId bookId : Id) (character : CharacterRow)
    (version : VoiceVersionRow) : Tx Unit := do
  if ¬ voiceAdmissible character version then throw .uncoded
  match findActiveAssignment bookId character.id character.role (← get) with
  | some previous =>
      Db.voiceAssignment.update (fun a => decide (a.id = previous.id)) fun a =>
        { a with isActive := false, supersededByAssignmentId := some newId }
  | none => pure ()
  Db.voiceAssignment.insert {
    id := newId
    bookId := bookId
    characterId := character.id
    voiceProfileId := version.voiceProfileId
    voiceProfileVersionId := version.id
    role := character.role
    isActive := true }

/-- A write that replaces the current row of a target. -/
inductive SupersedingWrite
  | audioChunk (new : NewAudioChunk)
  | voiceAssignment (newId bookId : Id) (character : CharacterRow) (version : VoiceVersionRow)

namespace SupersedingWrite

def run : SupersedingWrite → Tx Unit
  | audioChunk new => do
      let _ ← insertAudioChunk new
  | voiceAssignment newId bookId character version =>
      assignCharacterVoice newId bookId character version

def newId : SupersedingWrite → Id
  | audioChunk new => new.audioChunkId
  | voiceAssignment newId _ _ _ => newId

def currentId : SupersedingWrite → Store → Option Id
  | audioChunk new, s =>
      (findCurrentAudioChunk new.audioScriptChunkId s).map AudioChunk.id
  | voiceAssignment _ bookId character _, s =>
      (findActiveAssignment bookId character.id character.role s).map VoiceAssignment.id

def ConstraintsHold : SupersedingWrite → Store → Prop
  | audioChunk _, s => Db.audioChunk.Holds s
  | voiceAssignment _ _ _ _, s => Db.voiceAssignment.Holds s

instance (w : SupersedingWrite) (s : Store) : Decidable (w.ConstraintsHold s) :=
  match w with
  | audioChunk _ => inferInstanceAs (Decidable (Db.audioChunk.Holds s))
  | voiceAssignment _ _ _ _ => inferInstanceAs (Decidable (Db.voiceAssignment.Holds s))

/-- The new id is fresh, and the request passes the checks that precede the write. -/
def Admissible : SupersedingWrite → Store → Prop
  | audioChunk new, s => new.audioChunkId ∉ s.audioChunks.map AudioChunk.id
  | voiceAssignment newId _ character version, s =>
      newId ∉ s.voiceAssignments.map VoiceAssignment.id ∧ voiceAdmissible character version

instance (w : SupersedingWrite) (s : Store) : Decidable (w.Admissible s) :=
  match w with
  | audioChunk new => inferInstanceAs (Decidable (new.audioChunkId ∉ _))
  | voiceAssignment newId _ character version =>
      inferInstanceAs (Decidable (newId ∉ _ ∧ voiceAdmissible character version))

/-- The row `old` points at the row `new`, which exists. -/
def PointsAt : SupersedingWrite → Store → Id → Id → Prop
  | audioChunk _, s, old, new =>
      (∃ a ∈ s.audioChunks, a.id = old ∧ a.supersededByAudioChunkId = some new) ∧
        new ∈ s.audioChunks.map AudioChunk.id
  | voiceAssignment _ _ _ _, s, old, new =>
      (∃ a ∈ s.voiceAssignments, a.id = old ∧ a.supersededByAssignmentId = some new) ∧
        new ∈ s.voiceAssignments.map VoiceAssignment.id

/-- The write commits, and afterwards the row that was current points at the new one. -/
def Recorded (w : SupersedingWrite) (s : Store) : Prop :=
  ∃ old s', w.currentId s = some old ∧ w.run s = .ok ((), s') ∧ w.PointsAt s' old w.newId

end SupersedingWrite

/-! ## The First Statement Is Rejected -/

theorem update_audioChunk_pointer {s : Store} {old : AudioChunk} {newId : Id}
    (hs : Db.audioChunk.Holds s) (hold : old ∈ s.audioChunks)
    (hnew : newId ∉ s.audioChunks.map AudioChunk.id) :
    (Db.audioChunk.update (fun a => decide (a.id = old.id)) fun a =>
      { a with
        isCurrent := false
        status := .superseded
        supersededByAudioChunkId := some newId } : Tx Unit) s =
      .error (.violation .foreignKey) := by
  have hok := Db.audioChunk_accepts_iff.mp hs
  refine Table.statement_eq_error _ ⟨.selfReference AudioChunk.id
    AudioChunk.supersededByAudioChunkId, by simp [Db.audioChunk], ?_⟩ ?_
  · rw [Bool.eq_false_iff, Ne, Constraint.holds_selfReference]
    exact not_selfReferencing_updateWhere (fun _ => rfl) hold (by simp) rfl hnew
  · -- Retiring a row frees its index entry, so only the two references can be broken.
    simp only [Db.audioChunk, List.forall_mem_cons, Bool.eq_false_iff]
    refine ⟨absurd ?_, absurd ?_, absurd ?_, fun _ => rfl, fun _ => rfl, by simp⟩
    · rw [Constraint.holds_uniqueWhere, uniqueWhere_some]
      exact nodup_map_updateWhere hok.id fun _ => rfl
    · rw [Constraint.holds_uniqueWhere]
      exact hok.current.updateWhere_of_retire fun _ _ _ => .inl rfl
    · rw [Constraint.holds_check]
      exact forall_mem_updateWhere (fun a ha => decide_eq_true (hok.verified a ha)) (by simp)

theorem update_voiceAssignment_pointer {s : Store} {old : VoiceAssignment} {newId : Id}
    (hs : Db.voiceAssignment.Holds s) (hold : old ∈ s.voiceAssignments)
    (hnew : newId ∉ s.voiceAssignments.map VoiceAssignment.id) :
    (Db.voiceAssignment.update (fun a => decide (a.id = old.id)) fun a =>
      { a with isActive := false, supersededByAssignmentId := some newId } : Tx Unit) s =
      .error (.violation .foreignKey) := by
  have hok := Db.voiceAssignment_accepts_iff.mp hs
  refine Table.statement_eq_error _ ⟨.selfReference VoiceAssignment.id
    VoiceAssignment.supersededByAssignmentId, by simp [Db.voiceAssignment], ?_⟩
    ?_
  · rw [Bool.eq_false_iff, Ne, Constraint.holds_selfReference]
    exact not_selfReferencing_updateWhere (fun _ => rfl) hold (by simp) rfl hnew
  · simp only [Db.voiceAssignment, List.forall_mem_cons, Bool.eq_false_iff]
    refine ⟨absurd ?_, absurd ?_, fun _ => rfl, by simp⟩
    · rw [Constraint.holds_uniqueWhere, uniqueWhere_some]
      exact nodup_map_updateWhere hok.id fun _ => rfl
    · rw [Constraint.holds_uniqueWhere]
      exact hok.active.updateWhere_of_retire fun _ _ _ => .inl rfl

/-! ## The Transaction Is Rejected -/

theorem insertAudioChunk_eq_error {new : NewAudioChunk} {s : Store} {old : AudioChunk}
    (hs : Db.audioChunk.Holds s)
    (hold : findCurrentAudioChunk new.audioScriptChunkId s = some old)
    (hnew : new.audioChunkId ∉ s.audioChunks.map AudioChunk.id) :
    insertAudioChunk new s = .error (.violation .foreignKey) := by
  rw [insertAudioChunk, Transaction.bind_eq_of_ok rfl]
  simp only [hold, Option.map_some]
  exact Transaction.bind_eq_error
    (update_audioChunk_pointer hs (List.mem_of_find?_eq_some hold) hnew)

theorem assignCharacterVoice_eq_error {newId bookId : Id} {character : CharacterRow}
    {version : VoiceVersionRow} {s : Store} {old : VoiceAssignment}
    (hs : Db.voiceAssignment.Holds s)
    (hold : findActiveAssignment bookId character.id character.role s = some old)
    (hnew : newId ∉ s.voiceAssignments.map VoiceAssignment.id)
    (hadm : voiceAdmissible character version) :
    assignCharacterVoice newId bookId character version s = .error (.violation .foreignKey) := by
  rw [assignCharacterVoice, if_neg (not_not.mpr hadm)]
  change ((get : Tx Store) >>= _) s = _
  rw [Transaction.bind_eq_of_ok rfl]
  simp only [hold]
  exact Transaction.bind_eq_error
    (update_voiceAssignment_pointer hs (List.mem_of_find?_eq_some hold) hnew)

/-- Wherever the target of a superseding write has a current row, the write is rejected by the
foreign key of the pointer: it is recorded in no state at all. -/
theorem SupersedingWrite.rejected_of_current (w : SupersedingWrite) (s : Store)
    (hs : w.ConstraintsHold s) (hadm : w.Admissible s) (hcurrent : (w.currentId s).isSome) :
    w.run s = .error (.violation .foreignKey) ∧ ¬ w.Recorded s := by
  have herror : w.run s = .error (.violation .foreignKey) := by
    cases w with
    | audioChunk new =>
      simp only [currentId, Option.isSome_map, Option.isSome_iff_exists] at hcurrent
      obtain ⟨old, hold⟩ := hcurrent
      exact Transaction.bind_eq_error (insertAudioChunk_eq_error hs hold hadm)
    | voiceAssignment newId bookId character version =>
      simp only [currentId, Option.isSome_map, Option.isSome_iff_exists] at hcurrent
      obtain ⟨old, hold⟩ := hcurrent
      exact assignCharacterVoice_eq_error hs hold hadm.1 hadm.2
  refine ⟨herror, ?_⟩
  rintro ⟨_, s', -, hrun, -⟩
  rw [herror] at hrun
  cases hrun

def synthesizedStore : Store where
  audioChunks := [{
    id := 10, audioScriptChunkId := 1, ttsJobId := 5, chapterId := 2, isCurrent := true,
    status := .validated, contentHash := 77, durationMs := 900, objectVerified := true }]

/-- A second synthesis of the same chunk. -/
def secondTake : SupersedingWrite :=
  .audioChunk {
    audioChunkId := 11, audioScriptChunkId := 1, ttsJobId := 6, chapterId := 2,
    validationStatus := .pass, contentHash := 78, durationMs := 850 }

/-- The second synthesis of a chunk is rejected by the foreign key. -/
theorem secondTake_rejected :
    secondTake.run synthesizedStore = .error (.violation .foreignKey) ∧
      ¬ secondTake.Recorded synthesizedStore :=
  secondTake.rejected_of_current synthesizedStore (by decide) (by decide) (by decide)

/-- It is not so that every superseding write is recorded: the second synthesis of a chunk is
not. -/
theorem not_forall_recorded :
    ¬ ∀ (w : SupersedingWrite) (s : Store), w.ConstraintsHold s → w.Admissible s →
      (w.currentId s).isSome → w.Recorded s := by
  intro h
  obtain ⟨_, s', -, hrun, -⟩ :=
    h secondTake synthesizedStore (by decide) (by decide) (by decide)
  have herror : secondTake.run synthesizedStore = .error (.violation .foreignKey) := rfl
  rw [herror] at hrun
  cases hrun

end AudioBook
