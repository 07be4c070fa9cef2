import AudioBook.Editing.ChunkEdits

/-!
# The Director's Values Behind Human Edits

`director_original` is meant to hold, of every field that a human changed, the value that the
Director had produced. A request records the nine scalar performance fields and the voice version;
it also writes pauses, emphasis, non-verbal expressions, the voice profile, the generation controls
and the review flags, and records none of them.

- `Tracks`: what `director_original` says of the Director's chunk after any requests.
- `Complete`: it holds the Director's value of every changed field, and restoring them gives back
  the Director's content.

## Main results

* `tracks_applyAll`: no sequence of requests replaces a recorded value.
* `complete_iff`: the record is complete exactly when no request has changed one of the nine fields
  that are not recorded.
-/

namespace AudioBook.ChunkEdits

/-! ## Sequences of Requests -/

/-- The state after a request; a refused one changes nothing. -/
def PatchRequest.apply (r : PatchRequest) (s : EditState) : EditState :=
  match updateAudioScriptChunk r s with
  | .ok s' => s'
  | .error _ => s

def applyAll (rs : List PatchRequest) (s : EditState) : EditState :=
  rs.foldl (fun s r => r.apply s) s

def EditState.value (s : EditState) (chunkId : Id) (f : ChunkField) : Option f.Value :=
  (s.chunks chunkId).map fun c => c.value f

def Changes (chunkId : Id) (f : ChunkField) : List PatchRequest → EditState → Prop
  | [], _ => False
  | r :: rs, s =>
    (r.apply s).value chunkId f ≠ s.value chunkId f ∨ Changes chunkId f rs (r.apply s)

def AudioScriptChunk.originals (c : AudioScriptChunk) : DirectorOriginal :=
  c.directorOriginal.getD fun _ => none

def AudioScriptChunk.restored (c : AudioScriptChunk) : ChunkContent :=
  .ofValues fun f => (c.originals f).getD (c.value f)

/-- `c` records the Director's value of every field with the property, and restoring the recorded
values gives back the Director's content. -/
structure Complete (director c : AudioScriptChunk) (changed : ChunkField → Prop) : Prop where
  originals : ∀ f, changed f → c.originals f = some (director.value f)
  restored : c.restored = director.toChunkContent

/-! ## What Is Kept -/

/-- What is recorded is the Director's, and of a field that can be recorded and is not the value
itself is the Director's. -/
structure Tracks (director c : AudioScriptChunk) : Prop where
  recorded : ∀ f ∉ unrecordedFields, c.originals f = some (director.value f) ∨
    c.originals f = none ∧ c.value f = director.value f
  unrecorded : ∀ f ∈ unrecordedFields, c.originals f = none

@[simp]
theorem originals_editedChunk (c : AudioScriptChunk) (body : UpdateAudioScriptChunkBody) (sub : Id)
    (now : ℕ) (f : ChunkField) :
    (editedChunk c body sub now).originals f =
      (c.originals f <|> if body.records f then some (c.value f) else none) := by
  rw [AudioScriptChunk.originals, editedChunk, Option.getD_some, changedOriginal_apply]
  simp only [mem_requestedFields]
  rfl

theorem Tracks.edit {director c : AudioScriptChunk} (h : Tracks director c)
    (body : UpdateAudioScriptChunkBody) (sub : Id) (now : ℕ) :
    Tracks director (editedChunk c body sub now) where
  recorded f hf := by
    rw [originals_editedChunk]
    rcases h.recorded f hf with hvalue | ⟨hnone, hvalue⟩
    · -- The first original wins.
      simp [hvalue]
    · rw [hnone, ← hvalue]
      by_cases hrecords : body.records f = true
      · simp [hrecords]
      · right
        refine ⟨by simp [hrecords], ?_⟩
        by_contra hchanged
        exact hrecords (records_of_changed hf hchanged)
  unrecorded f hf := by
    rw [originals_editedChunk, h.unrecorded f hf, records_of_mem_unrecordedFields body hf]
    rfl

theorem chunks_apply (r : PatchRequest) {s : EditState} {chunkId : Id} {c : AudioScriptChunk}
    (hc : s.chunks chunkId = some c) :
    (r.apply s).chunks chunkId = some c ∨
      (r.apply s).chunks chunkId = some (editedChunk c r.body r.sub r.now) := by
  rw [PatchRequest.apply]
  split
  · next s' hok =>
    obtain ⟨chunk, hchunk, -, -, -, rfl⟩ := updateAudioScriptChunk_eq_ok hok
    by_cases hid : chunkId = r.chunkId
    · subst hid
      obtain ⟨-, hfound, -⟩ := requireChunk_eq_ok_iff.mp hchunk
      obtain rfl : c = chunk := Option.some.inj (hc.symm.trans hfound)
      exact .inr (Function.update_self ..)
    · left
      rw [← hc]
      exact Function.update_of_ne hid ..
  · exact .inl hc

theorem tracks_applyAll (rs : List PatchRequest) {director c : AudioScriptChunk} {s : EditState}
    {chunkId : Id} (hc : s.chunks chunkId = some c) (h : Tracks director c) :
    ∃ c', (applyAll rs s).chunks chunkId = some c' ∧ Tracks director c' ∧
      (∀ f, (c.originals f).isSome → (c'.originals f).isSome) ∧
      ∀ f ∉ unrecordedFields, Changes chunkId f rs s → (c'.originals f).isSome := by
  induction rs generalizing c s with
  | nil => exact ⟨c, hc, h, fun _ hf => hf, fun _ _ hf => hf.elim⟩
  | cons r rs ih =>
    rcases chunks_apply r hc with hsame | hedited
    · obtain ⟨c', hc', htracks, hkept, hchanges⟩ := ih hsame h
      refine ⟨c', hc', htracks, hkept, fun f hf hchanged => hchanges f hf ?_⟩
      refine hchanged.resolve_left ?_
      simp [EditState.value, hsame, hc]
    · obtain ⟨c', hc', htracks, hkept, hchanges⟩ := ih hedited (h.edit r.body r.sub r.now)
      refine ⟨c', hc', htracks, fun f hf => hkept f ?_, fun f hf hchanged => ?_⟩
      · rw [originals_editedChunk]
        obtain ⟨v, hv⟩ := Option.isSome_iff_exists.mp hf
        simp [hv]
      · rcases hchanged with hchanged | hchanged
        · -- The request that changes the field records it.
          refine hkept f ?_
          have hvalue : (r.body.write c.toChunkContent).value f ≠ c.value f := by
            intro heq
            refine hchanged ?_
            rw [EditState.value, EditState.value, hedited, hc]
            exact congrArg some heq
          rw [originals_editedChunk, records_of_changed hf hvalue]
          cases c.originals f <;> rfl
        · exact hchanges f hf hchanged

theorem value_applyAll {rs : List PatchRequest} {s : EditState} {chunkId : Id} {f : ChunkField}
    (h : ¬ Changes chunkId f rs s) : (applyAll rs s).value chunkId f = s.value chunkId f := by
  induction rs generalizing s with
  | nil => rfl
  | cons r rs ih =>
    obtain ⟨hfirst, hrest⟩ := not_or.mp h
    exact (ih hrest).trans (not_not.mp hfirst)

/-! ## Completeness -/

theorem Tracks.not_complete {director c : AudioScriptChunk} (h : Tracks director c)
    {changed : ChunkField → Prop} {f : ChunkField} (hf : f ∈ unrecordedFields)
    (hchanged : changed f) : ¬ Complete director c changed := by
  intro hcomplete
  have hrecorded := hcomplete.originals f hchanged
  rw [h.unrecorded f hf] at hrecorded
  cases hrecorded

theorem tracks_of_fresh {c : AudioScriptChunk} (h : c.directorOriginal = none) : Tracks c c where
  recorded f _ := .inr ⟨by rw [AudioScriptChunk.originals, h]; rfl, rfl⟩
  unrecorded f _ := by rw [AudioScriptChunk.originals, h]; rfl

/-- **The record of the Director's values.** After any sequence of requests, `director_original` of
a chunk holds the Director's value of every field that was changed, and restoring it gives back the
Director's content, exactly when no request has changed one of the fields that are not recorded. -/
theorem complete_iff (rs : List PatchRequest) {s : EditState} {chunkId : Id}
    {director : AudioScriptChunk} (hdirector : s.chunks chunkId = some director)
    (hfresh : director.directorOriginal = none) :
    ∃ c, (applyAll rs s).chunks chunkId = some c ∧
      (Complete director c (fun f => Changes chunkId f rs s) ↔
        ∀ f ∈ unrecordedFields, ¬ Changes chunkId f rs s) := by
  obtain ⟨c, hc, htracks, -, hchanges⟩ := tracks_applyAll rs hdirector (tracks_of_fresh hfresh)
  refine ⟨c, hc, fun hcomplete f hf hchanged => ?_, fun hnone => ⟨fun f hchanged => ?_, ?_⟩⟩
  · exact htracks.not_complete hf hchanged hcomplete
  · have hf : f ∉ unrecordedFields := fun hf => hnone f hf hchanged
    obtain ⟨v, hv⟩ := Option.isSome_iff_exists.mp (hchanges f hf hchanged)
    rcases htracks.recorded f hf with hvalue | ⟨hempty, -⟩
    · exact hvalue
    · simp [hempty] at hv
  · refine ChunkContent.eq_of_value fun f => ?_
    rw [AudioScriptChunk.restored, ChunkContent.value_ofValues]
    by_cases hf : f ∈ unrecordedFields
    · have hvalue := value_applyAll (hnone f hf)
      rw [EditState.value, EditState.value, hc, hdirector] at hvalue
      rw [htracks.unrecorded f hf, Option.getD_none]
      exact Option.some.inj hvalue
    · rcases htracks.recorded f hf with hvalue | ⟨hempty, hvalue⟩
      · rw [hvalue, Option.getD_some]
      · rw [hempty, Option.getD_none, hvalue]

/-! ## Histories -/

/-- Chunk 3 of book 2, as the Director produced it. -/
def directorChunk : AudioScriptChunk :=
  { id := 3, bookId := 2, text := "Who is there?", speakerType := .narrator }

/-- Book 2 of tenant 1 with that chunk. -/
def directedBook : EditState where
  books id := if id = 2 then some ⟨1⟩ else none
  chunks id := if id = 3 then some directorChunk else none
  characters _ := none
  voiceProfiles _ := none
  voiceProfileVersions _ := none
  rendered _ := []

/-- A `PATCH` of the chunk by a user of the tenant. -/
def patchChunk (body : UpdateAudioScriptChunkBody) : PatchRequest :=
  { sub := 5, tenantId := 1, bookId := 2, chunkId := 3, body }

/-- Two changes of the emotion: the first original is kept, and restoring it gives back the chunk. -/
theorem complete_emotion :
    ∃ c, (applyAll [patchChunk { performance := some { emotion := some .angry } },
          patchChunk { performance := some { emotion := some .sad } }] directedBook).chunks 3 =
        some c ∧
      c.emotion = .sad ∧ c.originals .emotion = some Emotion.neutral ∧
      c.restored = directorChunk.toChunkContent := by
  obtain ⟨c, hc, hiff⟩ := complete_iff
    [patchChunk { performance := some { emotion := some .angry } },
      patchChunk { performance := some { emotion := some .sad } }]
    (show directedBook.chunks 3 = some directorChunk from rfl) rfl
  have hkept : ∀ f ∈ unrecordedFields, ¬ Changes 3 f
      [patchChunk { performance := some { emotion := some .angry } },
        patchChunk { performance := some { emotion := some .sad } }] directedBook := by
    simp only [Changes]
    decide
  have hcomplete := hiff.mpr hkept
  have hemotion : (applyAll [patchChunk { performance := some { emotion := some .angry } },
      patchChunk { performance := some { emotion := some .sad } }] directedBook).value 3 .emotion =
        some Emotion.sad := rfl
  rw [EditState.value, hc] at hemotion
  refine ⟨c, hc, Option.some.inj hemotion, hcomplete.originals .emotion ?_, hcomplete.restored⟩
  simp only [Changes]
  decide

/-- A changed seed is not recorded, and restoring what is recorded leaves it changed. -/
theorem not_forall_complete :
    ¬ ∀ (rs : List PatchRequest) (s : EditState) (chunkId : Id) (director : AudioScriptChunk),
        s.chunks chunkId = some director → director.directorOriginal = none →
          ∃ c, (applyAll rs s).chunks chunkId = some c ∧
            Complete director c fun f => Changes chunkId f rs s := by
  intro h
  have hpatch := h [patchChunk { generationControl := some { seed := some (some 7) } }]
    directedBook 3 directorChunk rfl rfl
  obtain ⟨c, hc, hcomplete⟩ := hpatch
  obtain ⟨c', hc', htracks, -⟩ := tracks_applyAll
    [patchChunk { generationControl := some { seed := some (some 7) } }]
    (show directedBook.chunks 3 = some directorChunk from rfl) (tracks_of_fresh rfl)
  obtain rfl : c = c' := Option.some.inj (hc.symm.trans hc')
  refine htracks.not_complete (f := .seed) (by decide) ?_ hcomplete
  simp only [Changes]
  decide

end AudioBook.ChunkEdits
