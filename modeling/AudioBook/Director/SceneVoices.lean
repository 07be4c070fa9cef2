import AudioBook.Director.Finalize

/-!
# The Voices of a Scene

`validate_voice_consistency` keeps the version ids that it has seen as strings and compares them
with the ids of the chunks as they are. A `UUID` object is never equal to a string, so for the rows
of the database the check fails as soon as a character speaks twice in a scene
(`exactCheck_iff`).
-/

namespace AudioBook

/-- The scene and the character of a chunk, as strings, and the version of its voice, where all
three are set. -/
def VoiceFields.binding (chunk : VoiceFields) : Option ((Id × Id) × PyId) :=
  match chunk.sceneId, chunk.characterId, chunk.voiceProfileVersionId with
  | some sceneId, some characterId, some voiceVersionId =>
      some ((sceneId.toStr, characterId.toStr), voiceVersionId)
  | _, _, _ => none

/-- Two chunks of one scene and one character have different versions of a voice. -/
def VoiceConflict (chunks : List VoiceFields) : Prop :=
  ∃ c ∈ chunks, ∃ c' ∈ chunks, ∃ key v v',
    c.binding = some (key, v) ∧ c'.binding = some (key, v') ∧ v.toStr ≠ v'.toStr

/-- `validate_voice_consistency` raises exactly where there is a conflict. -/
def ExactCheck (chunks : List VoiceFields) : Prop :=
  voicesConsistent [] chunks = false ↔ VoiceConflict chunks

/-- Two chunks of one scene and one character have the same version of a voice. -/
def SameVersion (c c' : VoiceFields) : Prop :=
  ∀ key v v', c.binding = some (key, v) → c'.binding = some (key, v') → v.toStr = v'.toStr

/-- The later one of two chunks of one scene and one character has its version as a string. -/
def LaterAsString (c c' : VoiceFields) : Prop :=
  ∀ key v v', c.binding = some (key, v) → c'.binding = some (key, v') → v' = .str v'.toStr

/-! ## The Loop -/

theorem PyId.str_toStr_eq_iff {v v' : PyId} :
    v' = .str v.toStr ↔ v.toStr = v'.toStr ∧ v' = .str v'.toStr := by
  constructor
  · intro h
    rw [h]
    exact ⟨rfl, rfl⟩
  · rintro ⟨h, hstr⟩
    rw [h]
    exact hstr

variable {chunks : List VoiceFields} {seen : List ((Id × Id) × Id)}

theorem voicesConsistent_cons_of_none {chunk : VoiceFields} (hbinding : chunk.binding = none) :
    voicesConsistent seen (chunk :: chunks) = voicesConsistent seen chunks := by
  obtain ⟨_ | sceneId, _ | characterId, _ | voiceVersionId⟩ := chunk
  all_goals first | rfl | cases hbinding

theorem voicesConsistent_cons_of_some {chunk : VoiceFields} {key : Id × Id} {v : PyId}
    (hbinding : chunk.binding = some (key, v)) :
    voicesConsistent seen (chunk :: chunks) = true ↔
      (∀ existing, seen.lookup key = some existing → v = .str existing) ∧
        voicesConsistent ((key, v.toStr) :: seen) chunks = true := by
  obtain ⟨_ | sceneId, _ | characterId, _ | voiceVersionId⟩ := chunk <;> try cases hbinding
  rw [voicesConsistent]
  cases hseen : seen.lookup (sceneId.toStr, characterId.toStr) with
  | none => simp [hseen]
  | some existing =>
      simp only [hseen]
      by_cases heq : PyId.str existing ≠ v
      · rw [if_pos heq]
        simp [Ne.symm heq]
      · rw [if_neg heq]
        simp [not_not.mp heq]

theorem voicesConsistent_iff :
    voicesConsistent seen chunks = true ↔
      (∀ c ∈ chunks, ∀ key v existing, c.binding = some (key, v) →
        seen.lookup key = some existing → v = .str existing) ∧
      chunks.Pairwise fun c c' => SameVersion c c' ∧ LaterAsString c c' := by
  induction chunks generalizing seen with
  | nil => simp [voicesConsistent]
  | cons chunk chunks ih =>
      rw [List.pairwise_cons]
      cases hbinding : chunk.binding with
      | none =>
          have hpair : ∀ c', SameVersion chunk c' ∧ LaterAsString chunk c' := by
            intro c'
            constructor <;> intro key v v' h <;> rw [hbinding] at h <;> cases h
          rw [voicesConsistent_cons_of_none hbinding, ih]
          simp [hbinding, hpair]
      | some binding =>
          obtain ⟨key, v⟩ := binding
          rw [voicesConsistent_cons_of_some hbinding, ih]
          have hpair : ∀ c', SameVersion chunk c' ∧ LaterAsString chunk c' ↔
              ∀ v', c'.binding = some (key, v') → v' = .str v.toStr := by
            intro c'
            constructor
            · rintro ⟨hagree, hstring⟩ v' hv'
              exact PyId.str_toStr_eq_iff.mpr
                ⟨hagree key v v' hbinding hv', hstring key v v' hbinding hv'⟩
            · intro h
              constructor
              all_goals
                intro key' w v' hw hv'
                obtain ⟨rfl, rfl⟩ := Prod.mk.inj (Option.some.inj (hbinding.symm.trans hw))
              · exact (PyId.str_toStr_eq_iff.mp (h v' hv')).1
              · exact (PyId.str_toStr_eq_iff.mp (h v' hv')).2
          constructor
          · rintro ⟨hseen, hrest, hpairs⟩
            refine ⟨fun c hmem key' v' existing hv' hexisting => ?_, fun c' hmem => ?_, hpairs⟩
            · rcases List.mem_cons.mp hmem with rfl | hmem
              · obtain ⟨rfl, rfl⟩ := Prod.mk.inj (Option.some.inj (hbinding.symm.trans hv'))
                exact hseen existing hexisting
              · by_cases hkey : key' = key
                · -- both the chunk and what was seen before have the version
                  subst hkey
                  have hv := hseen existing hexisting
                  rw [hrest c hmem key' v' v.toStr hv' (by simp), hv]
                  rfl
                · exact hrest c hmem key' v' existing hv' (by
                    rw [List.lookup_cons, beq_false_of_ne hkey]
                    exact hexisting)
            · exact (hpair c').mpr fun v' hv' => hrest c' hmem key v' v.toStr hv' (by simp)
          · rintro ⟨hseen, hfirst, hpairs⟩
            refine ⟨fun existing => hseen chunk List.mem_cons_self key v existing hbinding,
              fun c hmem key' v' existing hv' hexisting => ?_, hpairs⟩
            by_cases hkey : key' = key
            · subst hkey
              have hexisting' : v.toStr = existing := by simpa using hexisting
              rw [← hexisting']
              exact (hpair c).mp (hfirst c hmem) v' hv'
            · rw [List.lookup_cons, beq_false_of_ne hkey] at hexisting
              exact hseen c (List.mem_cons_of_mem _ hmem) key' v' existing hv' hexisting

/-! ## Exactness -/

theorem pairwise_sameVersion_iff : chunks.Pairwise SameVersion ↔ ¬VoiceConflict chunks := by
  constructor
  · rintro hpairs ⟨c, hmem, c', hmem', key, v, v', hv, hv', hne⟩
    have hagree : SameVersion c c' := by
      refine hpairs.forall_of_forall_of_flip (fun c _ key v v' h h' => ?_)
        (hpairs.imp fun h key v v' hv hv' => (h key v' v hv' hv).symm) hmem hmem'
      obtain ⟨-, rfl⟩ := Prod.mk.inj (Option.some.inj (h.symm.trans h'))
      rfl
    exact hne (hagree key v v' hv hv')
  · intro hnone
    refine List.pairwise_of_forall_mem_list fun c hmem c' hmem' key v v' hv hv' => ?_
    by_contra hne
    exact hnone ⟨c, hmem, c', hmem', key, v, v', hv, hv', hne⟩

/-- The check is exact if and only if there is a conflict, or no chunk that follows another one of
its scene and its character has its version as a `UUID` object. -/
theorem exactCheck_iff (chunks : List VoiceFields) :
    ExactCheck chunks ↔ VoiceConflict chunks ∨ chunks.Pairwise LaterAsString := by
  have hloop : voicesConsistent [] chunks = true ↔
      ¬VoiceConflict chunks ∧ chunks.Pairwise LaterAsString := by
    rw [voicesConsistent_iff, List.pairwise_and_iff, pairwise_sameVersion_iff]
    simp
  rw [ExactCheck, ← Bool.not_eq_true, hloop]
  tauto

/-- Two rows of a scene in which the narrator speaks twice with one voice. -/
def narratorTwice : List VoiceFields :=
  [⟨some (.uuid 3), some (.uuid 7), some (.uuid 9)⟩,
    ⟨some (.uuid 3), some (.uuid 7), some (.uuid 9)⟩]

/-- The check raises, although there is one version only. -/
theorem not_forall_exactCheck : ¬∀ chunks : List VoiceFields, ExactCheck chunks := by
  intro h
  obtain ⟨c, hmem, c', hmem', key, v, v', hv, hv', hne⟩ := (h narratorTwice).mp (by decide)
  have hone : ∀ c ∈ narratorTwice, c.binding = some ((3, 7), .uuid 9) := by decide
  rw [hone c hmem] at hv
  rw [hone c' hmem'] at hv'
  obtain ⟨rfl, rfl⟩ := Prod.mk.inj (Option.some.inj hv)
  obtain ⟨-, rfl⟩ := Prod.mk.inj (Option.some.inj hv')
  exact hne rfl

end AudioBook
